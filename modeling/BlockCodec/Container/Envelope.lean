import BlockCodec.Codec.Position
import BlockCodec.Json.Text

namespace BlockCodec

/-- The items after the tag of a container of `family` tagged `tag`. -/
def openEnvelope (family : Family) (tag : String) (pos : Position) (v : Json) :
    Except DecodeError (List Json) :=
  let fail (p : Problem) (kind : Option String) : DecodeError := ⟨family, p, kind, none, pos.path⟩
  match v with
  | .array [] => .error (fail .missingKind none)
  | .array (.string t :: rest) =>
    if t = tag then .ok rest else .error (fail (.unknownKind t [tag]) (some t))
  | .array (other :: _) =>
    let k := other.compact
    .error (fail (.unknownKind k [tag]) (some k))
  | other => .error (fail (.notAnArray other.typeName) none)

/-- Decodes items that start at index `start` of the array at `pos`, each at its own
position, in order; the first fault is reported. -/
def decodeItems {α : Type} (decode : Position → Json → Except DecodeError α) (pos : Position) :
    Nat → List Json → Except DecodeError (List α)
  | _, [] => .ok []
  | i, x :: rest => do
    let y ← decode (pos.child i) x
    let ys ← decodeItems decode pos (i + 1) rest
    pure (y :: ys)

end BlockCodec
