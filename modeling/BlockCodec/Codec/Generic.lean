import BlockCodec.Container.Program

namespace BlockCodec

inductive Reading where
  | text
  | bool
  | textList
  | number
  | count
  | literal
  | node (family : Family)
  | nested
  | refuse
  deriving DecidableEq

/-- The parameter type a reading declares in a table of family `family`. -/
def Reading.argType (family : Family) : Reading → ArgType
  | text => .text
  | bool => .bool
  | textList => .textList
  | number => .number
  | count => .count
  | literal => .literal
  | node f => .node f
  | nested => .node family
  | refuse => .literal

inductive GenericValue where
  | absent
  | text (s : String)
  | bool (b : Bool)
  | textList (xs : List String)
  | number (n : Number)
  | count (n : UInt64)
  | literal (l : Literal)
  | expression (e : Expression)
  | stage (s : Stage)
  | pipeline (p : Pipeline)
  | program (p : Program)
  /-- A decoded node: its kind and name, how many arguments it was given, and what was
  read for each parameter. -/
  | node (kind name : String) (given : Nat) (args : List GenericValue)

/-- A parameter of a described variant: its name, how it is read, and whether it may be
left out. -/
structure GenericParam where
  name : String
  reading : Reading
  optional : Bool

def genericVariant (family : Family) (kind name description : String) (params : List GenericParam) :
    Variant (List Reading) :=
  ⟨⟨kind, name, description, params.map fun p => ⟨p.name, p.reading.argType family, p.optional⟩⟩,
    params.map (·.reading)⟩

def decodeStandard (family : Family) (pos : Position) (v : Json) : Except DecodeError GenericValue :=
  match family with
  | .expression => (Expression.decodeAt pos v).map .expression
  | .stage => (Stage.decodeAt pos v).map .stage
  | .pipeline => (Pipeline.decodeAt pos v).map .pipeline
  | .program => (Program.decodeAt pos v).map .program

/-- Decodes a node of a described table at a position. Text and boolean parameters that
may be left out read as absent when not given; others that may be left out are not read
at all when not given; a refusing parameter is always read and always fails. -/
def decodeGenericAt (t : VariantTable (List Reading)) (pos : Position) (v : Json) :
    Except DecodeError GenericValue :=
  if _h : pos.depth ≤ pos.limit then
    match t.readHeader pos v with
    | .error e => .error e
    | .ok (var, values) =>
      let a : Arguments := ⟨t.family, var.signature, values, 2, pos⟩
      let readOne (item : (Param × Reading) × Nat) : Except DecodeError GenericValue :=
        let ((p, r), i) := item
        match r, p.optional && !a.isPresent i with
        | .refuse, _ => .error (a.invalidValue i "nothing acceptable")
        | .text, _ =>
          if p.optional then (a.optionalText i).map fun o => o.elim .absent .text
          else (a.text i).map .text
        | .bool, _ =>
          if p.optional then (a.optionalBool i).map fun o => o.elim .absent .bool
          else (a.bool i).map .bool
        | _, true => .ok .absent
        | .textList, false => (a.textList i).map .textList
        | .number, false => (a.number i).map .number
        | .count, false => (a.count i).map .count
        | .literal, false => (a.literal i).map .literal
        | .node f, false =>
          match a.get i with
          | .ok x => decodeStandard f (a.childPosition i) x
          | .error e => .error e
        | .nested, false =>
          match a.get i with
          | .ok x => decodeGenericAt t (pos.child (2 + i)) x
          | .error e => .error e
      ((var.signature.params.zip var.form).zipIdx.mapM readOne).map
        (GenericValue.node var.signature.kind var.signature.name values.length)
  else .error (pos.depthError t.family)
termination_by pos.limit + 1 - pos.depth
decreasing_by rw [Position.depth_child, Position.limit_child]; omega

end BlockCodec
