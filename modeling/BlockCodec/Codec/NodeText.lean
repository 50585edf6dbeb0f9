import BlockCodec.Codec.Position
import BlockCodec.Json.Reader

namespace BlockCodec

/-- Decodes a node of a family from its text. A text that is not JSON is an
`INVALID_JSON` report at the root. -/
def decodeText {α : Type} (family : Family) (decode : Json → Except DecodeError α) (text : String) :
    Except DecodeError α :=
  match Json.parse text with
  | .error e => .error (DecodeError.ofProblem family (.invalidJson e.message) [])
  | .ok v => decode v

/-- Reads a node straight from text: a read fault or a decoding fault is given as its
text, the decoding fault before any fault in the text after the value. -/
def readNodeText {α : Type} (decode : Json → Except DecodeError α) (text : String) :
    Except String α :=
  match Json.readPrefix (some Json.nestingRoom) text with
  | .error e => .error e.message
  | .ok (v, rest) =>
    match decode v with
    | .error e => .error e.display
    | .ok x =>
      match rest with
      | none => .ok x
      | some e => .error e.message

end BlockCodec
