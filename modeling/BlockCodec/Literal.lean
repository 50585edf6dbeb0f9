import BlockCodec.Calendar.Iso
import BlockCodec.Json.Text

namespace BlockCodec

inductive Literal where
  | number (n : Number)
  | text (s : String)
  | bool (b : Bool)
  | instant (t : Instant)
  deriving DecidableEq

inductive LiteralError where
  /-- The value is of a JSON type that holds no literal. -/
  | notScalar (found : String)
  /-- The `@date` member holds no instant. -/
  | instant (e : InstantError)
  deriving DecidableEq

def LiteralError.message : LiteralError → String
  | notScalar found => "Expected number, string, boolean or datetime, got " ++ found
  | instant e => e.message

def dateTag : String := "@date"

namespace Literal

def typeName : Literal → String
  | number _ => "number"
  | text _ => "string"
  | bool _ => "boolean"
  | instant _ => "datetime"

def toJson : Literal → Json
  | number n => .number n
  | text s => .string s
  | bool b => .bool b
  | instant t => .object [(dateTag, .string t.toIso)]

/-- Reads a literal from its JSON form. An object must have the single member `@date`
holding the ISO text of an instant. -/
def ofJson : Json → Except LiteralError Literal
  | .number n => .ok (number n)
  | .string s => .ok (text s)
  | .bool b => .ok (bool b)
  | .object [(key, v)] =>
    if key = dateTag then
      match v with
      | .string s =>
        match Instant.parseIso s with
        | .ok t => .ok (instant t)
        | .error e => .error (.instant e)
      | other => .error (.instant (.malformed other.compact))
    else .error (.notScalar "object")
  | other => .error (.notScalar other.typeName)

end Literal

end BlockCodec
