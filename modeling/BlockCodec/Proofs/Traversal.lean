import BlockCodec.Codec.Traversal

namespace BlockCodec

namespace Decoding

variable {α β : Type}

/-- Started at `pos`, `d` gives `r` and leaves the context at `pos`. -/
def Returns (d : Decoding α) (pos : Position) (r : Except DecodeError α) : Prop :=
  d.runAt pos = (r, pos)

theorem runAt_bind (d : Decoding α) (f : α → Decoding β) (pos : Position) :
    (d >>= f).runAt pos = match d.runAt pos with
      | (.ok a, after) => (f a).runAt after
      | (.error e, after) => (.error e, after) := by
  simp only [runAt, ExceptT.run_bind, StateT.run_bind]
  rcases d.run.run pos with ⟨_ | _, _⟩ <;> rfl

variable {pos : Position}

theorem returns_pure (a : α) : (pure a : Decoding α).Returns pos (.ok a) := rfl

theorem returns_throw (e : DecodeError) : (throw e : Decoding α).Returns pos (.error e) := rfl

theorem returns_lift (r : Except DecodeError α) : (lift r).Returns pos r := rfl

theorem returns_get : (get : Decoding Position).Returns pos (.ok pos) := rfl

theorem Returns.bind {d : Decoding α} {f : α → Decoding β} {r : Except DecodeError α}
    {g : α → Except DecodeError β} (first : d.Returns pos r)
    (rest : ∀ a, r = .ok a → (f a).Returns pos (g a)) :
    (d >>= f).Returns pos (r >>= g) := by
  unfold Returns at *
  rw [runAt_bind, first]
  cases r with
  | error e => rfl
  | ok a => exact rest a rfl

theorem Returns.bind_ok {d : Decoding α} {f : α → Decoding β} {a : α} {r : Except DecodeError β}
    (first : d.Returns pos (.ok a)) (rest : (f a).Returns pos r) : (d >>= f).Returns pos r :=
  Returns.bind (g := fun _ => r) first fun _ same => by cases same; exact rest

theorem Returns.bind_error {d : Decoding α} {f : α → Decoding β} {e : DecodeError}
    (first : d.Returns pos (.error e)) : (d >>= f).Returns pos (.error e) :=
  Returns.bind (g := fun _ => .error e) first fun _ same => by cases same

theorem Returns.map {d : Decoding α} {f : α → β} {r : Except DecodeError α} (inner : d.Returns pos r) :
    (f <$> d).Returns pos (f <$> r) := by
  unfold Returns at *
  simp only [runAt, ExceptT.run_map, StateT.run_map] at *
  rw [inner]
  rfl

/-- Moving into an item and back out gives what the decoder gives at the item. -/
theorem Returns.descend {d : Decoding α} {r : Except DecodeError α} {i : Nat}
    (inner : d.Returns (pos.child i) r) : (descend i d).Returns pos r := by
  unfold Returns runAt at *
  simp [Decoding.descend, inner]
  exact congrArg (Prod.mk r) (Position.parent_child pos i)

theorem returns_checkDepth {family : Family} (within : pos.depth ≤ pos.limit) :
    (checkDepth family).Returns pos (.ok ()) := by
  refine Returns.bind_ok returns_get ?_
  rw [if_neg (Nat.not_lt.mpr within)]
  exact returns_pure ()

theorem returns_checkDepth_of_deep {family : Family} (deep : pos.limit < pos.depth) :
    (checkDepth family).Returns pos (.error (pos.depthError family)) := by
  refine Returns.bind_ok returns_get ?_
  rw [if_pos deep]
  exact returns_throw _

/-- Items decoded one after another, each with the context moved into it, give what the
positional decoder gives for the same items. -/
theorem Returns.items {decode : Json → Decoding α} {g : Position → Json → Except DecodeError α}
    (each : ∀ j x, (decode x).Returns (pos.child j) (g (pos.child j) x)) (start : Nat) (xs : List Json) :
    (items decode start xs).Returns pos (decodeItems g pos start xs) := by
  induction xs generalizing start with
  | nil => exact returns_pure []
  | cons x rest ih =>
    exact Returns.bind (Returns.descend (each start x)) fun y _ =>
      Returns.bind (ih (start + 1)) fun ys _ => returns_pure _

end Decoding

open Decoding

/-- A nested node read from an argument gives what its decoder gives at the argument's
position, or the arity fault of a missing argument. -/
theorem Arguments.returns_node {α : Type} {pos : Position} {a : Arguments} {i : Nat}
    {decode : (x : Json) → x ∈ a.values → Decoding α} {g : Json → Except DecodeError α}
    {r : Except DecodeError α}
    (each : ∀ x member, (decode x member).Returns (pos.child (a.offset + i)) (g x))
    (result : a.get i >>= g = r) :
    (a.node i decode).Returns pos r := by
  subst result
  unfold Arguments.node
  split
  · rename_i x found
    simp only [found]
    exact Returns.descend (each x _)
  · rename_i e failed
    simp only [failed]
    exact returns_throw e

namespace Expression

/-- One level of expression decoding gives what the positional decoder gives, as long as
the operand decoder does so at every item below a position within the limit. -/
theorem decodeStep_returns {v : Json} {operand : (x : Json) → sizeOf x < sizeOf v → Decoding Expression}
    {pos : Position}
    (operands : pos.depth ≤ pos.limit → ∀ x smaller i,
      (operand x smaller).Returns (pos.child i) (decodeAt (pos.child i) x)) :
    (decodeStep v operand).Returns pos (decodeAt pos v) := by
  rw [decodeStep, decodeAt]
  by_cases within : pos.depth ≤ pos.limit
  · rw [dif_pos within]
    refine Returns.bind_ok (returns_checkDepth within) (Returns.bind_ok returns_get ?_)
    split
    · rename_i e failed
      simp only [failed]
      exact returns_throw e
    · rename_i var values header
      simp only [header]
      let a : Arguments := ⟨.expression, var.signature, values, 2, pos⟩
      -- the positional decoder reads an operand by its own `match` on the argument, which
      -- is the bind of `Arguments.returns_node` once the argument is known
      have node (i : Nat) {r : Except DecodeError Expression}
          (result : a.get i >>= decodeAt (pos.child (2 + i)) = r) :=
        Arguments.returns_node (r := r) (a := a) (i := i)
          (fun x member => operands within x (VariantTable.sizeOf_lt_of_readHeader header member) (2 + i))
          result
      cases var.form <;> dsimp only
      case constant => exact (returns_lift _).map
      case column => exact (returns_lift _).map
      case unary op => exact (node 0 (by cases a.get 0 <;> rfl)).map
      case binary op =>
        exact (node 0 (by cases a.get 0 <;> rfl)).bind fun l _ =>
          (node 1 (by cases a.get 1 <;> rfl)).bind fun r _ => returns_pure _
      case ternary op =>
        exact (node 0 (by cases a.get 0 <;> rfl)).bind fun c _ =>
          (node 1 (by cases a.get 1 <;> rfl)).bind fun t _ =>
            (node 2 (by cases a.get 2 <;> rfl)).bind fun f _ => returns_pure _
      case typeCheck check => exact (node 0 (by cases a.get 0 <;> rfl)).map
      case convert target => exact (node 0 (by cases a.get 0 <;> rfl)).map
      case extract part => exact (node 0 (by cases a.get 0 <;> rfl)).map
  · rw [dif_neg within]
    exact Returns.bind_error (returns_checkDepth_of_deep (Nat.lt_of_not_le within))

/-- Decoding an expression inside a traversal gives what the positional decoder gives and
leaves the context where it was. -/
theorem decodeWith_returns (v : Json) (pos : Position) : (decodeWith v).Returns pos (decodeAt pos v) := by
  rw [decodeWith]
  exact decodeStep_returns fun _ x _ i => decodeWith_returns x (pos.child i)
termination_by sizeOf v

end Expression

namespace Stage

variable {expression : Json → Decoding Expression} {pos : Position}

theorem buildWith_returns {a : Arguments}
    (expressions : ∀ x i, (expression x).Returns (pos.child i) (Expression.decodeAt (pos.child i) x))
    (here : a.position = pos) (form : StageForm) :
    (buildWith expression a form).Returns pos (build a form) := by
  subst here
  have node (i : Nat) :
      (a.node i fun x _ => expression x).Returns a.position (a.get i >>= Expression.decodeAt (a.childPosition i)) :=
    Arguments.returns_node (fun x _ => expressions x (a.offset + i)) rfl
  cases form
  case filter =>
    rw [buildWith, build, ← bind_assoc]
    exact (node 0).bind fun e _ => returns_pure _
  case mutate =>
    rw [buildWith, build]
    refine (returns_lift _).bind fun c _ => ?_
    rw [← bind_assoc]
    exact (node 1).bind fun e _ => returns_pure _
  all_goals exact returns_lift _

/-- One level of stage decoding gives what the positional decoder gives, as long as the
expression decoder does so at every item below a position within the limit. -/
theorem decodeStep_returns {v : Json}
    (expressions : pos.depth ≤ pos.limit → ∀ x i,
      (expression x).Returns (pos.child i) (Expression.decodeAt (pos.child i) x)) :
    (decodeStep expression v).Returns pos (decodeAt pos v) := by
  rw [decodeStep, decodeAt]
  by_cases within : pos.depth ≤ pos.limit
  · rw [if_pos within]
    refine Returns.bind_ok (returns_checkDepth within) (Returns.bind_ok returns_get ?_)
    cases stageTable.readHeader pos v with
    | error e => exact Returns.bind_error (returns_lift _)
    | ok header =>
      obtain ⟨var, values⟩ := header
      exact Returns.bind_ok (returns_lift _) (buildWith_returns (expressions within) rfl var.form)
  · rw [if_neg within]
    exact Returns.bind_error (returns_checkDepth_of_deep (Nat.lt_of_not_le within))

theorem decodeWith_returns (v : Json) (pos : Position) : (decodeWith v).Returns pos (decodeAt pos v) :=
  decodeStep_returns fun _ x i => Expression.decodeWith_returns x (pos.child i)

end Stage

namespace Pipeline

variable {stage : Json → Decoding Stage} {pos : Position}

/-- One level of pipeline decoding gives what the positional decoder gives, as long as the
stage decoder does so at every item below a position within the limit. -/
theorem decodeStep_returns {v : Json}
    (stages : pos.depth ≤ pos.limit → ∀ i x,
      (stage x).Returns (pos.child i) (Stage.decodeAt (pos.child i) x)) :
    (decodeStep stage v).Returns pos (decodeAt pos v) := by
  rw [decodeStep, decodeAt]
  by_cases within : pos.depth ≤ pos.limit
  · rw [if_pos within]
    refine Returns.bind_ok (returns_checkDepth within) (Returns.bind_ok returns_get ?_)
    cases openEnvelope .pipeline pipelineKind pos v with
    | error e => exact returns_throw e
    | ok items =>
      match items with
      | [] => exact returns_throw _
      | .string name :: rest => exact (Returns.items (stages within) 2 rest).map
      | .null :: _ | .bool _ :: _ | .number _ :: _ | .array _ :: _ | .object _ :: _ =>
        exact returns_throw _
  · rw [if_neg within]
    exact Returns.bind_error (returns_checkDepth_of_deep (Nat.lt_of_not_le within))

theorem decodeWith_returns (v : Json) (pos : Position) : (decodeWith v).Returns pos (decodeAt pos v) :=
  decodeStep_returns fun _ i x => Stage.decodeWith_returns x (pos.child i)

end Pipeline

namespace Program

variable {pipeline : Json → Decoding Pipeline} {pos : Position}

/-- One level of program decoding gives what the positional decoder gives, as long as the
pipeline decoder does so at every item below a position within the limit. -/
theorem decodeStep_returns {v : Json}
    (pipelines : pos.depth ≤ pos.limit → ∀ i x,
      (pipeline x).Returns (pos.child i) (Pipeline.decodeAt (pos.child i) x)) :
    (decodeStep pipeline v).Returns pos (decodeAt pos v) := by
  rw [decodeStep, decodeAt]
  by_cases within : pos.depth ≤ pos.limit
  · rw [if_pos within]
    refine Returns.bind_ok (returns_checkDepth within) (Returns.bind_ok returns_get ?_)
    cases openEnvelope .program programKind pos v with
    | error e => exact Returns.bind_error (returns_lift _)
    | ok items => exact Returns.bind_ok (returns_lift _) (Returns.items (pipelines within) 1 items).map
  · rw [if_neg within]
    exact Returns.bind_error (returns_checkDepth_of_deep (Nat.lt_of_not_le within))

theorem decodeWith_returns (v : Json) (pos : Position) : (decodeWith v).Returns pos (decodeAt pos v) :=
  decodeStep_returns fun _ i x => Pipeline.decodeWith_returns x (pos.child i)

end Program

/-- Decoding inside a traversal leaves the context as it found it: for each family, every
value and every context, the run ends with the same path, depth and depth limit it
started with, whether it decoded the value or failed anywhere inside it. -/
theorem decodeWith_restores_context (v : Json) (pos : Position) :
    ((Expression.decodeWith v).runAt pos).2 = pos ∧ ((Stage.decodeWith v).runAt pos).2 = pos ∧
      ((Pipeline.decodeWith v).runAt pos).2 = pos ∧ ((Program.decodeWith v).runAt pos).2 = pos :=
  ⟨congrArg Prod.snd (Expression.decodeWith_returns v pos), congrArg Prod.snd (Stage.decodeWith_returns v pos),
    congrArg Prod.snd (Pipeline.decodeWith_returns v pos), congrArg Prod.snd (Program.decodeWith_returns v pos)⟩

namespace Expression

/-- Expression decoding with a budget of decoder entries along every path. -/
def decodeWithFuel (stuck : DecodeError) : Nat → Json → Decoding Expression
  | 0, _ => throw stuck
  | fuel + 1, v => decodeStep v fun x _ => decodeWithFuel stuck fuel x

/-- A budget that reaches one level past the limit is never used up. -/
theorem decodeWithFuel_returns (stuck : DecodeError) :
    ∀ (fuel : Nat) (v : Json) {pos : Position}, pos.depth ≤ pos.limit + 1 →
      pos.limit + 2 ≤ pos.depth + fuel → (decodeWithFuel stuck fuel v).Returns pos (decodeAt pos v)
  | 0, _, _, reach, enough => absurd enough (by omega)
  | fuel + 1, v, pos, _, enough => by
    rw [decodeWithFuel]
    exact decodeStep_returns fun within x _ i =>
      decodeWithFuel_returns stuck fuel x (by simp; omega) (by simp; omega)

end Expression

namespace Stage

/-- Stage decoding with a budget of decoder entries along every path. -/
def decodeWithFuel (stuck : DecodeError) : Nat → Json → Decoding Stage
  | 0, _ => throw stuck
  | fuel + 1, v => decodeStep (Expression.decodeWithFuel stuck fuel) v

theorem decodeWithFuel_returns (stuck : DecodeError) :
    ∀ (fuel : Nat) (v : Json) {pos : Position}, pos.depth ≤ pos.limit + 1 →
      pos.limit + 2 ≤ pos.depth + fuel → (decodeWithFuel stuck fuel v).Returns pos (decodeAt pos v)
  | 0, _, _, reach, enough => absurd enough (by omega)
  | fuel + 1, v, pos, _, enough => by
    rw [decodeWithFuel]
    exact decodeStep_returns fun within x i =>
      Expression.decodeWithFuel_returns stuck fuel x (by simp; omega) (by simp; omega)

end Stage

namespace Pipeline

/-- Pipeline decoding with a budget of decoder entries along every path. -/
def decodeWithFuel (stuck : DecodeError) : Nat → Json → Decoding Pipeline
  | 0, _ => throw stuck
  | fuel + 1, v => decodeStep (Stage.decodeWithFuel stuck fuel) v

theorem decodeWithFuel_returns (stuck : DecodeError) :
    ∀ (fuel : Nat) (v : Json) {pos : Position}, pos.depth ≤ pos.limit + 1 →
      pos.limit + 2 ≤ pos.depth + fuel → (decodeWithFuel stuck fuel v).Returns pos (decodeAt pos v)
  | 0, _, _, reach, enough => absurd enough (by omega)
  | fuel + 1, v, pos, _, enough => by
    rw [decodeWithFuel]
    exact decodeStep_returns fun within i x =>
      Stage.decodeWithFuel_returns stuck fuel x (by simp; omega) (by simp; omega)

end Pipeline

namespace Program

/-- Program decoding with a budget of decoder entries along every path. -/
def decodeWithFuel (stuck : DecodeError) : Nat → Json → Decoding Program
  | 0, _ => throw stuck
  | fuel + 1, v => decodeStep (Pipeline.decodeWithFuel stuck fuel) v

theorem decodeWithFuel_returns (stuck : DecodeError) :
    ∀ (fuel : Nat) (v : Json) {pos : Position}, pos.depth ≤ pos.limit + 1 →
      pos.limit + 2 ≤ pos.depth + fuel → (decodeWithFuel stuck fuel v).Returns pos (decodeAt pos v)
  | 0, _, _, reach, enough => absurd enough (by omega)
  | fuel + 1, v, pos, _, enough => by
    rw [decodeWithFuel]
    exact decodeStep_returns fun within i x =>
      Pipeline.decodeWithFuel_returns stuck fuel x (by simp; omega) (by simp; omega)

end Program

/-- Decoding from the root under limit `m` is decoding with a budget of `m + 2` decoder
entries, however deeply the value nests: no decoder is entered more than one level past
the limit, and one entered there fails on the depth without entering another. The budget
is never used up, since the runs agree whatever an exhausted budget would give. -/
theorem decodeWith_eq_decodeWithFuel (stuck : DecodeError) (m : Nat) (v : Json) :
    (Expression.decodeWithFuel stuck (m + 2) v).runAt (Position.root m) =
        (Expression.decodeWith v).runAt (Position.root m) ∧
      (Stage.decodeWithFuel stuck (m + 2) v).runAt (Position.root m) =
        (Stage.decodeWith v).runAt (Position.root m) ∧
      (Pipeline.decodeWithFuel stuck (m + 2) v).runAt (Position.root m) =
        (Pipeline.decodeWith v).runAt (Position.root m) ∧
      (Program.decodeWithFuel stuck (m + 2) v).runAt (Position.root m) =
        (Program.decodeWith v).runAt (Position.root m) := by
  have reach : (Position.root m).depth ≤ (Position.root m).limit + 1 := Nat.zero_le _
  have enough : (Position.root m).limit + 2 ≤ (Position.root m).depth + (m + 2) := by
    simp [Position.root]
  exact ⟨(Expression.decodeWithFuel_returns stuck _ v reach enough).trans
      (Expression.decodeWith_returns v _).symm,
    (Stage.decodeWithFuel_returns stuck _ v reach enough).trans (Stage.decodeWith_returns v _).symm,
    (Pipeline.decodeWithFuel_returns stuck _ v reach enough).trans (Pipeline.decodeWith_returns v _).symm,
    (Program.decodeWithFuel_returns stuck _ v reach enough).trans (Program.decodeWith_returns v _).symm⟩

end BlockCodec
