import BlockCodec.Expression.Basic
import BlockCodec.Codec.Arguments

namespace BlockCodec

inductive ExpressionForm where
  | constant
  | column
  | unary (op : UnaryOp)
  | binary (op : BinaryOp)
  | ternary (op : TernaryOp)
  | typeCheck (check : TypeCheck)
  | convert (target : Conversion)
  | extract (part : DatePart)

namespace ExpressionForm

def operandParams : List Param := [Param.required "value" (.node .expression)]

def pairParams : List Param :=
  [Param.required "left" (.node .expression), Param.required "right" (.node .expression)]

def choiceParams : List Param :=
  [Param.required "condition" (.node .expression), Param.required "ifTrue" (.node .expression),
    Param.required "ifFalse" (.node .expression)]

end ExpressionForm

/-- The registered expression variants, in registration order. -/
def expressionVariants : List (Variant ExpressionForm) :=
  [⟨⟨nullaryKind, "constant", "Constant value", [Param.required "value" .literal]⟩, .constant⟩,
   ⟨⟨nullaryKind, "column", "Value of a column", [Param.required "name" .text]⟩, .column⟩] ++
  UnaryOp.all.map (fun op => ⟨⟨negateKind, op.name, op.description, ExpressionForm.operandParams⟩, .unary op⟩) ++
  BinaryOp.all.map (fun op => ⟨⟨arithmeticKind, op.name, op.description, ExpressionForm.pairParams⟩, .binary op⟩) ++
  TernaryOp.all.map (fun op => ⟨⟨ternaryKind, op.name, op.description, ExpressionForm.choiceParams⟩, .ternary op⟩) ++
  TypeCheck.all.map (fun c => ⟨⟨typecheckKind, c.name, c.description, ExpressionForm.operandParams⟩, .typeCheck c⟩) ++
  Conversion.all.map (fun c => ⟨⟨convertKind, c.name, c.description, ExpressionForm.operandParams⟩, .convert c⟩) ++
  DatePart.all.map (fun p => ⟨⟨datetimeKind, p.name, p.description, ExpressionForm.operandParams⟩, .extract p⟩)

def expressionTable : VariantTable ExpressionForm :=
  ⟨.expression, expressionKinds, expressionVariants⟩

namespace Expression

def encode : Expression → Json
  | constant l => .array [.string nullaryKind, .string "constant", l.toJson]
  | column n => .array [.string nullaryKind, .string "column", .string n]
  | unary op x => .array [.string negateKind, .string op.name, x.encode]
  | binary op l r => .array [.string arithmeticKind, .string op.name, l.encode, r.encode]
  | ternary op c t f => .array [.string ternaryKind, .string op.name, c.encode, t.encode, f.encode]
  | typeCheck check x => .array [.string typecheckKind, .string check.name, x.encode]
  | convert target x => .array [.string convertKind, .string target.name, x.encode]
  | extract part x => .array [.string datetimeKind, .string part.name, x.encode]

def toText (e : Expression) : String := e.encode.compact

/-- Decodes an expression at a position. The recursion descends one level per operand
and stops at the depth limit, whatever the value's own nesting. -/
def decodeAt (pos : Position) (v : Json) : Except DecodeError Expression :=
  if _h : pos.depth ≤ pos.limit then
    match expressionTable.readHeader pos v with
    | .error e => .error e
    | .ok (var, values) =>
      let a : Arguments := ⟨.expression, var.signature, values, 2, pos⟩
      let operand (i : Nat) : Except DecodeError Expression :=
        match a.get i with
        | .ok x => decodeAt (pos.child (2 + i)) x
        | .error e => .error e
      match var.form with
      | .constant => (a.literal 0).map constant
      | .column => (a.text 0).map column
      | .unary op => (operand 0).map (unary op)
      | .binary op => do
        let l ← operand 0
        let r ← operand 1
        pure (binary op l r)
      | .ternary op => do
        let c ← operand 0
        let t ← operand 1
        let f ← operand 2
        pure (ternary op c t f)
      | .typeCheck check => (operand 0).map (typeCheck check)
      | .convert target => (operand 0).map (convert target)
      | .extract part => (operand 0).map (extract part)
  else .error (pos.depthError .expression)
termination_by pos.limit + 1 - pos.depth
decreasing_by all_goals (rw [Position.depth_child, Position.limit_child]; omega)

def decode (limit : Nat) (v : Json) : Except DecodeError Expression :=
  decodeAt (Position.root limit) v

end Expression

end BlockCodec
