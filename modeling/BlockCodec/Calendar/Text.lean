import BlockCodec.Calendar.Iso
import BlockCodec.Json.Reader

namespace BlockCodec

namespace Instant

/-- The JSON text of an instant: its ISO text in quotes. -/
def toJsonText (t : Instant) : String := "\"" ++ t.toIso ++ "\""

/-- Reads an instant from JSON text that holds one string. A read fault is given with its
place, a malformed instant by its bare message, before any fault after the string. -/
def readJsonText (text : String) : Except String Instant :=
  match Json.readStringPrefix text with
  | .error e => .error e.message
  | .ok (s, rest) =>
    match parseIso s with
    | .error e => .error e.message
    | .ok t =>
      match rest with
      | none => .ok t
      | some e => .error e.message

end Instant

end BlockCodec
