import BlockCodec.Codec.Family
import BlockCodec.Decimal.Basic

namespace BlockCodec

inductive ArgType where
  | node (family : Family)
  | literal
  | text
  | textList
  | number
  | count
  | bool
  deriving DecidableEq

def ArgType.describe : ArgType → String
  | node family => family.name
  | literal => "literal"
  | text => "string"
  | textList => "string[]"
  | number => "number"
  | count => "integer"
  | bool => "boolean"

structure Param where
  name : String
  type : ArgType
  optional : Bool
  deriving DecidableEq

def Param.required (name : String) (type : ArgType) : Param := ⟨name, type, false⟩

def Param.optionalOf (name : String) (type : ArgType) : Param := ⟨name, type, true⟩

structure Signature where
  kind : String
  name : String
  description : String
  params : List Param
  deriving DecidableEq

namespace Signature

def required (s : Signature) : Nat := (s.params.filter fun p => !p.optional).length

def maxArgs (s : Signature) : Nat := s.params.length

def accepts (s : Signature) (count : Nat) : Bool := s.required ≤ count && count ≤ s.maxArgs

/-- The arity in messages: `n`, or `m to n` when parameters may be left out. -/
def arityLabel (s : Signature) : String :=
  if s.required = s.maxArgs then natText s.required
  else natText s.required ++ " to " ++ natText s.maxArgs

/-- The name of the parameter at an index, `?` past the last. -/
def paramName (s : Signature) (index : Nat) : String :=
  match s.params[index]? with
  | some p => p.name
  | none => "?"

end Signature

end BlockCodec
