import BlockCodec.Codec.Family
import BlockCodec.Decimal.Basic

namespace BlockCodec

inductive Problem where
  /-- A node is not an array; `found` is the JSON type found. -/
  | notAnArray (found : String)
  | missingKind
  /-- The discriminator is not a declared kind; a non-string one is given as JSON text. -/
  | unknownKind (kind : String) (known : List String)
  /-- The variant name is missing or not a string. -/
  | missingName (kind : String)
  /-- No variant of that name is registered under the kind; `similar` are suggestions. -/
  | unknownVariant (kind name : String) (similar : List String)
  /-- The number of arguments is outside the variant's arity. -/
  | argCount (arity : String) (got : Nat)
  /-- An argument is not of the expected type or value. -/
  | argType (arg expected found : String)
  | badLiteral (details : String)
  | depthLimit (limit : Nat)
  | invalidJson (details : String)
  deriving DecidableEq

namespace Problem

def code : Problem → String
  | notAnArray _ => "NOT_AN_ARRAY"
  | missingKind => "MISSING_KIND"
  | unknownKind _ _ => "UNKNOWN_KIND"
  | missingName _ => "MISSING_NAME"
  | unknownVariant _ _ _ => "UNKNOWN_VARIANT"
  | argCount _ _ => "ARG_COUNT"
  | argType _ _ _ => "ARG_TYPE"
  | badLiteral _ => "BAD_LITERAL"
  | depthLimit _ => "DEPTH_LIMIT"
  | invalidJson _ => "INVALID_JSON"

/-- The message of a problem met by a decoder of the given family. -/
def message (family : Family) : Problem → String
  | notAnArray found => "Expected an encoded " ++ family.name ++ " array, got " ++ found
  | missingKind => "Encoded " ++ family.name ++ " has no discriminator"
  | unknownKind kind _ => "Unknown kind of " ++ family.name ++ ": '" ++ kind ++ "'"
  | missingName kind => "Encoded " ++ family.name ++ " of kind '" ++ kind ++ "' has no variant name"
  | unknownVariant kind name _ =>
    "No " ++ family.name ++ " variant '" ++ name ++ "' registered under '" ++ kind ++ "'"
  | argCount arity got => "Expected " ++ arity ++ " arguments, got " ++ natText got
  | argType arg expected found => "Argument '" ++ arg ++ "': expected " ++ expected ++ ", got " ++ found
  | badLiteral details => "Bad literal: " ++ details
  | depthLimit limit => "Nesting deeper than " ++ natText limit ++ " levels"
  | invalidJson details => "Invalid JSON text: " ++ details

def suggestion : Problem → Option String
  | unknownKind _ known => some ("Expected one of: " ++ ", ".intercalate known)
  | unknownVariant _ _ [] => none
  | unknownVariant _ _ similar => some ("Similar: " ++ ", ".intercalate similar)
  | depthLimit _ => some "Raise the limit with DecodeContext::with_max_depth"
  | _ => none

end Problem

/-- The JSON pointer of a path of array indices: `/i` for each index. -/
def pointerText (path : List Nat) : String := String.join (path.map fun i => "/" ++ natText i)

structure DecodeError where
  family : Family
  problem : Problem
  kind : Option String
  name : Option String
  /-- The array indices from the root to the offending value. -/
  path : List Nat
  deriving DecidableEq

namespace DecodeError

/-- The report of a problem at a path, for no particular variant. -/
def ofProblem (family : Family) (problem : Problem) (path : List Nat) : DecodeError :=
  ⟨family, problem, none, none, path⟩

def code (e : DecodeError) : String := e.problem.code

def message (e : DecodeError) : String := e.problem.message e.family

def suggestion (e : DecodeError) : Option String := e.problem.suggestion

def pointer (e : DecodeError) : String := pointerText e.path

/-- The one-line text of a report: code, family, message, place and suggestion. -/
def display (e : DecodeError) : String :=
  let place := if e.path.isEmpty then " (at root)" else " (at " ++ e.pointer ++ ")"
  let hint := match e.suggestion with
    | some s => " (suggestion: " ++ s ++ ")"
    | none => ""
  "[" ++ e.code ++ "] " ++ e.family.name ++ ": " ++ e.message ++ place ++ hint

end DecodeError

end BlockCodec
