import BlockCodec.Proofs.CompactText
import BlockCodec.Proofs.ContainerDecoding
import BlockCodec.Equality
import BlockCodec.Codec.NodeText

namespace BlockCodec

theorem Literal.canonical_toJson (l : Literal) : l.toJson.Canonical := by
  cases l with
  | instant t => exact .object (List.pairwise_singleton _ _) (by simp)
  | _ => simp [toJson]

theorem Expression.canonical_encode (e : Expression) : e.encode.Canonical := by
  induction e <;> simp [encode, Literal.canonical_toJson, *]

theorem Stage.canonical_encode (s : Stage) : s.encode.Canonical := by
  rcases s with t | p | st
  · cases t with
    | sort columns ascending => cases ascending <;> simp [encode, args, Transform.args, stringArray]
    | _ => simp [encode, args, Transform.args, stringArray, Expression.canonical_encode]
  · cases p <;> simp [encode, args, Plot.args]
  · cases st <;> simp [encode, args, StatTest.args]

theorem Pipeline.canonical_encode (p : Pipeline) : p.encode.Canonical := by
  simp [encode, Stage.canonical_encode]

theorem Program.canonical_encode (p : Program) : p.encode.Canonical := by
  simp [encode, Pipeline.canonical_encode]

/-- A decoder that gives back exactly the persisted forms within its limit tells every two
values apart by their persisted forms. -/
theorem encode_injective_of_decodeAt {α : Type} {decodeAt : Position → Json → Except DecodeError α}
    {encode : α → Json} {height : α → Nat}
    (decodes : ∀ {pos : Position} {v : Json} {x : α},
      decodeAt pos v = .ok x ↔ v = encode x ∧ pos.depth + height x ≤ pos.limit)
    {x y : α} (same : encode x = encode y) : x = y := by
  let pos := Position.root (height x + height y)
  have first : decodeAt pos (encode y) = .ok x := decodes.mpr ⟨same.symm, by simp [pos, Position.root]⟩
  have second : decodeAt pos (encode y) = .ok y := decodes.mpr ⟨rfl, by simp [pos, Position.root]⟩
  exact Except.ok.inj (first.symm.trans second)

/-- Canonical persisted forms that tell values apart make texts that tell them apart. -/
theorem compact_injective_of_encode {α : Type} {encode : α → Json} (canonical : ∀ x, (encode x).Canonical)
    (injective : ∀ {x y : α}, encode x = encode y → x = y) {x y : α}
    (same : (encode x).compact = (encode y).compact) : x = y :=
  injective (Json.render_injective .compact (canonical x) (canonical y) same)

theorem Expression.toText_injective {e e' : Expression} (same : e.toText = e'.toText) : e = e' :=
  compact_injective_of_encode canonical_encode (encode_injective_of_decodeAt decodeAt_eq_ok_iff) same

theorem Stage.toText_injective {s s' : Stage} (same : s.toText = s'.toText) : s = s' :=
  compact_injective_of_encode canonical_encode (encode_injective_of_decodeAt decodeAt_eq_ok_iff) same

theorem Pipeline.toText_injective {p p' : Pipeline} (same : p.toText = p'.toText) : p = p' :=
  compact_injective_of_encode canonical_encode (encode_injective_of_decodeAt decodeAt_eq_ok_iff) same

theorem Program.toText_injective {p p' : Program} (same : p.toText = p'.toText) : p = p' :=
  compact_injective_of_encode canonical_encode (encode_injective_of_decodeAt decodeAt_eq_ok_iff) same

theorem Binary64.ieeeEq_self {x : Binary64} (finite : x.isFinite = true) : x.ieeeEq x = true := by
  simp only [isFinite, bne_iff_ne, ne_eq] at finite
  simp [ieeeEq, isNaN, finite]

theorem Number.equals_self (n : Number) : n.equals n = true := by
  cases n with
  | float x finite => exact Binary64.ieeeEq_self finite
  | _ => simp [equals]

theorem Literal.equals_self (l : Literal) : l.equals l = true := by
  cases l <;> simp [equals, Number.equals_self]

theorem Expression.equals_self (e : Expression) : e.equals e = true := by
  induction e <;> simp [equals, Literal.equals_self, *]

theorem Transform.equals_self (t : Transform) : t.equals t = true := by
  cases t <;> simp [equals, Expression.equals_self]

theorem StatTest.equals_self (s : StatTest) : s.equals s = true := by
  cases s <;> simp [equals, Number.equals_self]

theorem Stage.equals_self (s : Stage) : s.equals s = true := by
  cases s <;> simp [equals, Transform.equals_self, StatTest.equals_self]

theorem isEqv_self {α : Type} {r : α → α → Bool} (refl : ∀ a, r a a = true) (l : List α) : l.isEqv l r = true := by
  induction l with
  | nil => rfl
  | cons a rest ih => simp [List.isEqv, refl, ih]

theorem Pipeline.equals_self (p : Pipeline) : p.equals p = true := by
  simp [equals, isEqv_self Stage.equals_self]

theorem Program.equals_self (p : Program) : p.equals p = true := by
  simp [equals, isEqv_self Pipeline.equals_self]

/-- Two nodes have the same text exactly when they are the same node, and nodes with the same
text are equal under the node equality. -/
def TextDeterminesNode {α : Type} (toText : α → String) (equals : α → α → Bool) : Prop :=
  ∀ x y, (toText x = toText y ↔ x = y) ∧ (toText x = toText y → equals x y = true)

theorem textDeterminesNode_of {α : Type} {toText : α → String} {equals : α → α → Bool}
    (injective : ∀ {x y : α}, toText x = toText y → x = y) (refl : ∀ x, equals x x = true) :
    TextDeterminesNode toText equals := by
  intro x y
  refine ⟨⟨injective, fun same => same ▸ rfl⟩, fun same => ?_⟩
  rw [injective same]
  exact refl y

theorem toText_eq_iff_eq_and_equals :
    TextDeterminesNode Expression.toText Expression.equals ∧ TextDeterminesNode Stage.toText Stage.equals ∧
      TextDeterminesNode Pipeline.toText Pipeline.equals ∧ TextDeterminesNode Program.toText Program.equals :=
  ⟨textDeterminesNode_of Expression.toText_injective Expression.equals_self,
    textDeterminesNode_of Stage.toText_injective Stage.equals_self,
    textDeterminesNode_of Pipeline.toText_injective Pipeline.equals_self,
    textDeterminesNode_of Program.toText_injective Program.equals_self⟩

/-- The constants `0.0` and `-0.0` are equal nodes with different texts. -/
theorem zero_constants_equal_with_different_texts :
    ∃ x y : Expression, x.equals y = true ∧ x.toText ≠ y.toText := by
  refine ⟨.constant (.number (.float Binary64.zero (by decide))),
    .constant (.number (.float Binary64.negZero (by decide))), by decide, fun same => ?_⟩
  have bits := Expression.toText_injective same
  simp only [Expression.constant.injEq, Literal.number.injEq, Number.float.injEq] at bits
  exact absurd bits (by decide)

section Serde

variable {α : Type}

theorem Json.parse_eq_ok_iff {text : String} {v : Json} :
    Json.parse text = .ok v ↔ Json.readPrefix (some Json.nestingRoom) text = .ok (v, none) := by
  unfold Json.parse Json.read
  split <;> simp_all

theorem decodeText_eq_ok_iff {family : Family} {decode : Json → Except DecodeError α} {text : String} {y : α} :
    decodeText family decode text = .ok y ↔ ∃ v, Json.parse text = .ok v ∧ decode v = .ok y := by
  unfold decodeText
  split <;> simp_all

/-- Reading a node straight from text succeeds exactly when the text holds one JSON value that
decodes, whatever order the two faults would be reported in. -/
theorem readNodeText_eq_ok_iff {decode : Json → Except DecodeError α} {text : String} {y : α} :
    readNodeText decode text = .ok y ↔ ∃ v, Json.parse text = .ok v ∧ decode v = .ok y := by
  simp only [Json.parse_eq_ok_iff]
  unfold readNodeText
  cases read : Json.readPrefix (some Json.nestingRoom) text with
  | error e => simp
  | ok result =>
    obtain ⟨v, rest⟩ := result
    cases decoded : decode v with
    | error e => simp [decoded]
    | ok x => cases rest <;> simp [decoded]

/-- Serde writes a node as the codec's text helper does, and serde's reading of a text succeeds
exactly when the codec's does, with the same node. -/
def SerdeAgrees (family : Family) (decode : Json → Except DecodeError α) (encode : α → Json)
    (toText : α → String) : Prop :=
  (∀ x, (encode x).compact = toText x) ∧
    ∀ text y, readNodeText decode text = .ok y ↔ decodeText family decode text = .ok y

theorem serdeAgrees_of {family : Family} {decode : Json → Except DecodeError α} {encode : α → Json}
    {toText : α → String} (written : ∀ x, (encode x).compact = toText x) :
    SerdeAgrees family decode encode toText :=
  ⟨written, fun _ _ => readNodeText_eq_ok_iff.trans decodeText_eq_ok_iff.symm⟩

theorem serde_agrees_with_node_text :
    SerdeAgrees .expression (Expression.decode defaultDepthLimit) Expression.encode Expression.toText ∧
      SerdeAgrees .stage (Stage.decode defaultDepthLimit) Stage.encode Stage.toText ∧
      SerdeAgrees .pipeline (Pipeline.decode defaultDepthLimit) Pipeline.encode Pipeline.toText ∧
      SerdeAgrees .program (Program.decode defaultDepthLimit) Program.encode Program.toText :=
  ⟨serdeAgrees_of fun _ => rfl, serdeAgrees_of fun _ => rfl, serdeAgrees_of fun _ => rfl,
    serdeAgrees_of fun _ => rfl⟩

end Serde

end BlockCodec
