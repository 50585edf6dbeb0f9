import BlockCodec.Codec.Table
import BlockCodec.Literal

namespace BlockCodec

/-- The arguments of a node: its family and signature, the argument values, the index in
the node array of the first argument, and the node's position. -/
structure Arguments where
  family : Family
  signature : Signature
  values : List Json
  offset : Nat
  position : Position

namespace Arguments

def pathOf (a : Arguments) (index : Nat) : List Nat := a.position.path ++ [a.offset + index]

/-- The position of an argument, for decoding a nested node. -/
def childPosition (a : Arguments) (index : Nat) : Position := a.position.child (a.offset + index)

def locate (a : Arguments) (index : Nat) (p : Problem) : DecodeError :=
  ⟨a.family, p, some a.signature.kind, some a.signature.name, a.pathOf index⟩

def typeError (a : Arguments) (index : Nat) (expected : String) (found : Json) : DecodeError :=
  a.locate index (.argType (a.signature.paramName index) expected found.typeName)

/-- The report of an argument whose value is not acceptable, showing its JSON text, or
`nothing` when it is absent. -/
def invalidValue (a : Arguments) (index : Nat) (expected : String) : DecodeError :=
  let found := match a.values[index]? with
    | some v => v.compact
    | none => "nothing"
  a.locate index (.argType (a.signature.paramName index) expected found)

/-- The value of an argument; an absent one is an arity fault of the whole node. -/
def get (a : Arguments) (index : Nat) : Except DecodeError Json :=
  match a.values[index]? with
  | some v => .ok v
  | none =>
    .error ⟨a.family, .argCount a.signature.arityLabel a.values.length, some a.signature.kind,
      some a.signature.name, a.position.path⟩

def isPresent (a : Arguments) (index : Nat) : Bool := index < a.values.length

def text (a : Arguments) (index : Nat) : Except DecodeError String :=
  match a.get index with
  | .ok (.string s) => .ok s
  | .ok other => .error (a.typeError index "string" other)
  | .error e => .error e

/-- The strings of a list; a non-string item is reported at its own path. -/
def stringItems (a : Arguments) (index : Nat) : Nat → List Json → Except DecodeError (List String)
  | _, [] => .ok []
  | i, .string s :: rest => (stringItems a index (i + 1) rest).map (s :: ·)
  | i, other :: _ => .error { a.typeError index "string[]" other with path := a.pathOf index ++ [i] }

def textList (a : Arguments) (index : Nat) : Except DecodeError (List String) :=
  match a.get index with
  | .ok (.array items) => a.stringItems index 0 items
  | .ok other => .error (a.typeError index "string[]" other)
  | .error e => .error e

/-- A number argument, in the form it was written. -/
def number (a : Arguments) (index : Nat) : Except DecodeError Number :=
  match a.get index with
  | .ok (.number n) => .ok n
  | .ok other => .error (a.typeError index "number" other)
  | .error e => .error e

/-- A count argument: a non-negative integer written as one. -/
def count (a : Arguments) (index : Nat) : Except DecodeError UInt64 :=
  match a.get index with
  | .ok (.number (.natural n)) => .ok n
  | .ok other => .error (a.typeError index "non-negative integer" other)
  | .error e => .error e

def bool (a : Arguments) (index : Nat) : Except DecodeError Bool :=
  match a.get index with
  | .ok (.bool b) => .ok b
  | .ok other => .error (a.typeError index "boolean" other)
  | .error e => .error e

def literal (a : Arguments) (index : Nat) : Except DecodeError Literal :=
  match a.get index with
  | .ok v =>
    match Literal.ofJson v with
    | .ok l => .ok l
    | .error e => .error (a.locate index (.badLiteral e.message))
  | .error e => .error e

def optionalText (a : Arguments) (index : Nat) : Except DecodeError (Option String) :=
  if a.isPresent index then (a.text index).map some else .ok none

def optionalBool (a : Arguments) (index : Nat) : Except DecodeError (Option Bool) :=
  if a.isPresent index then (a.bool index).map some else .ok none

end Arguments

end BlockCodec
