import BlockCodec.Container.Program

namespace BlockCodec

namespace Position

/-- The position of the array that holds the item at `p`: the last index dropped. -/
def parent (p : Position) : Position :=
  ⟨p.trail.tail, p.depth - 1, p.limit, by simp [p.depth_eq]⟩

@[simp] theorem parent_child (p : Position) (i : Nat) : (p.child i).parent = p := by
  cases p
  simp [child, parent]

end Position

/-- A decoder that shares the decoding context: it reads and moves the position, and it may
fail, leaving the context where it stands. -/
abbrev Decoding (α : Type) := ExceptT DecodeError (StateM Position) α

namespace Decoding

variable {α β : Type}

/-- The result of a decoder started at a position, and the position it leaves. -/
def runAt (d : Decoding α) (pos : Position) : Except DecodeError α × Position := d.run.run pos

def checkDepth (family : Family) : Decoding Unit := do
  let pos ← get
  if pos.limit < pos.depth then throw (pos.depthError family)

/-- Runs `inner` with the context moved into item `index`, and moves it back out afterwards,
whatever `inner` gave. -/
def descend (index : Nat) (inner : Decoding α) : Decoding α :=
  ExceptT.mk do
    modify (·.child index)
    let result ← inner.run
    modify Position.parent
    pure result

def lift (r : Except DecodeError α) : Decoding α := ExceptT.mk (pure r)

/-- Decodes the items of the array at the context from index `start` on, each with the
context moved into it, in order; the first fault ends the run. -/
def items (decode : Json → Decoding α) : Nat → List Json → Decoding (List α)
  | _, [] => pure []
  | i, x :: rest => do
    let y ← descend i (decode x)
    let ys ← items decode (i + 1) rest
    pure (y :: ys)

end Decoding

theorem Arguments.mem_of_get {a : Arguments} {index : Nat} {x : Json} (found : a.get index = .ok x) :
    x ∈ a.values := by
  unfold Arguments.get at found
  split at found
  · cases found
    exact List.mem_of_getElem? ‹_›
  · cases found

/-- Decodes argument `index` as a nested node, with the context moved into it. -/
def Arguments.node {α : Type} (a : Arguments) (index : Nat) (decode : (x : Json) → x ∈ a.values → Decoding α) :
    Decoding α :=
  match found : a.get index with
  | .ok x => Decoding.descend (a.offset + index) (decode x (a.mem_of_get found))
  | .error e => throw e

/-- The arguments of an accepted header are items of the node, so smaller than it. -/
theorem VariantTable.sizeOf_lt_of_readHeader {α : Type} {t : VariantTable α} {pos : Position} {v x : Json}
    {var : Variant α} {values : List Json} (header : t.readHeader pos v = .ok (var, values))
    (member : x ∈ values) : sizeOf x < sizeOf v := by
  have smaller := List.sizeOf_lt_of_mem member
  unfold readHeader at header
  split at header
  · cases header
  · split at header
    · cases header
    · split at header
      · split at header
        · cases header
        · split at header
          · cases header
            simp only [Json.array.sizeOf_spec, List.cons.sizeOf_spec]
            omega
          · cases header
      · cases header
  · cases header
  · cases header

namespace Expression

/-- One level of expression decoding in a traversal: the depth check, the header, then the
arguments in order, where `operand` decodes an operand once the context stands at it. -/
def decodeStep (v : Json) (operand : (x : Json) → sizeOf x < sizeOf v → Decoding Expression) :
    Decoding Expression := do
  Decoding.checkDepth .expression
  let pos ← get
  match header : expressionTable.readHeader pos v with
  | .error e => throw e
  | .ok (var, values) =>
    let a : Arguments := ⟨.expression, var.signature, values, 2, pos⟩
    let node (i : Nat) : Decoding Expression :=
      a.node i fun x member => operand x (VariantTable.sizeOf_lt_of_readHeader header member)
    match var.form with
    | .constant => constant <$> Decoding.lift (a.literal 0)
    | .column => column <$> Decoding.lift (a.text 0)
    | .unary op => unary op <$> node 0
    | .binary op => do
      let l ← node 0
      let r ← node 1
      pure (binary op l r)
    | .ternary op => do
      let c ← node 0
      let t ← node 1
      let f ← node 2
      pure (ternary op c t f)
    | .typeCheck check => typeCheck check <$> node 0
    | .convert target => convert target <$> node 0
    | .extract part => extract part <$> node 0

/-- Decodes an expression inside a traversal. Each operand is an item of the value being
decoded, so the recursion follows the value down and ends. -/
def decodeWith (v : Json) : Decoding Expression := decodeStep v fun x _ => decodeWith x
termination_by sizeOf v

end Expression

namespace Stage

/-- Builds a stage inside a traversal: filter and mutate decode their expression with the
context moved into it; the other builders read only their arguments. -/
def buildWith (expression : Json → Decoding Expression) (a : Arguments) : StageForm → Decoding Stage
  | .filter => do
    let e ← a.node 0 fun x _ => expression x
    pure (transform (.filter e))
  | .mutate => do
    let c ← Decoding.lift (a.text 0)
    let e ← a.node 1 fun x _ => expression x
    pure (transform (.mutate c e))
  | form => Decoding.lift (build a form)

/-- One level of stage decoding in a traversal, over a decoder of expressions. -/
def decodeStep (expression : Json → Decoding Expression) (v : Json) : Decoding Stage := do
  Decoding.checkDepth .stage
  let pos ← get
  let (var, values) ← Decoding.lift (stageTable.readHeader pos v)
  buildWith expression ⟨.stage, var.signature, values, 2, pos⟩ var.form

def decodeWith (v : Json) : Decoding Stage := decodeStep Expression.decodeWith v

end Stage

namespace Pipeline

/-- One level of pipeline decoding in a traversal, over a decoder of stages. -/
def decodeStep (stage : Json → Decoding Stage) (v : Json) : Decoding Pipeline := do
  Decoding.checkDepth .pipeline
  let pos ← get
  match openEnvelope .pipeline pipelineKind pos v with
  | .error e => throw e
  | .ok [] => throw ⟨.pipeline, .missingName pipelineKind, some pipelineKind, none, pos.path⟩
  | .ok (.string name :: rest) => Pipeline.mk name <$> Decoding.items stage 2 rest
  | .ok (other :: _) =>
    throw ⟨.pipeline, .argType "name" "string" other.typeName, some pipelineKind, none,
      (pos.child 1).path⟩

def decodeWith (v : Json) : Decoding Pipeline := decodeStep Stage.decodeWith v

end Pipeline

namespace Program

/-- One level of program decoding in a traversal, over a decoder of pipelines. -/
def decodeStep (pipeline : Json → Decoding Pipeline) (v : Json) : Decoding Program := do
  Decoding.checkDepth .program
  let pos ← get
  let items ← Decoding.lift (openEnvelope .program programKind pos v)
  Program.mk <$> Decoding.items pipeline 1 items

def decodeWith (v : Json) : Decoding Program := decodeStep Pipeline.decodeWith v

end Program

end BlockCodec
