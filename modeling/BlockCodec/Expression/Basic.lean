import BlockCodec.Expression.Operator
import BlockCodec.Literal

namespace BlockCodec

inductive Expression where
  | constant (value : Literal)
  | column (name : String)
  | unary (op : UnaryOp) (operand : Expression)
  | binary (op : BinaryOp) (left right : Expression)
  | ternary (op : TernaryOp) (condition ifTrue ifFalse : Expression)
  | typeCheck (check : TypeCheck) (operand : Expression)
  | convert (target : Conversion) (operand : Expression)
  | extract (part : DatePart) (operand : Expression)
  deriving DecidableEq

def nullaryKind : String := "@nullary"
def negateKind : String := "@negate"
def arithmeticKind : String := "@arithmetic"
def ternaryKind : String := "@ternary"
def typecheckKind : String := "@typecheck"
def convertKind : String := "@convert"
def datetimeKind : String := "@datetime"

def expressionKinds : List String :=
  [nullaryKind, negateKind, arithmeticKind, ternaryKind, typecheckKind, convertKind, datetimeKind]

namespace Expression

def kind : Expression → String
  | constant _ | column _ => nullaryKind
  | unary _ _ => negateKind
  | binary _ _ _ => arithmeticKind
  | ternary _ _ _ _ => ternaryKind
  | typeCheck _ _ => typecheckKind
  | convert _ _ => convertKind
  | extract _ _ => datetimeKind

def name : Expression → String
  | constant _ => "constant"
  | column _ => "column"
  | unary op _ => op.name
  | binary op _ _ => op.name
  | ternary op _ _ _ => op.name
  | typeCheck check _ => check.name
  | convert target _ => target.name
  | extract part _ => part.name

def children : Expression → List Expression
  | constant _ | column _ => []
  | unary _ x | typeCheck _ x | convert _ x | extract _ x => [x]
  | binary _ l r => [l, r]
  | ternary _ c t f => [c, t, f]

/-- The number of nodes on the longest path from the root to a leaf. -/
def depth : Expression → Nat
  | constant _ | column _ => 1
  | unary _ x | typeCheck _ x | convert _ x | extract _ x => 1 + x.depth
  | binary _ l r => 1 + max l.depth r.depth
  | ternary _ c t f => 1 + max (max c.depth t.depth) f.depth

/-- The names of the columns read, in pre-order, repeats kept. -/
def columns : Expression → List String
  | constant _ => []
  | column n => [n]
  | unary _ x | typeCheck _ x | convert _ x | extract _ x => x.columns
  | binary _ l r => l.columns ++ r.columns
  | ternary _ c t f => c.columns ++ t.columns ++ f.columns

def literal? : Expression → Option Literal
  | constant l => some l
  | _ => none

def column? : Expression → Option String
  | column n => some n
  | _ => none

/-- The constant holding a binary64 value, which must be finite; it is kept as a float. -/
def number (x : Binary64) : Except NonFinite Expression :=
  (Number.ofBinary64 x).map fun n => constant (.number n)

end Expression

end BlockCodec
