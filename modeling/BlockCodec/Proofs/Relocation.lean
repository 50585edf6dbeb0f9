import BlockCodec.Proofs.Traversal
import BlockCodec.Proofs.Reading

namespace Except

variable {ε ε' α β : Type} (f : ε → ε')

@[simp] theorem mapError_ok (a : α) : (Except.ok a : Except ε α).mapError f = .ok a := rfl

@[simp] theorem mapError_error (e : ε) : (Except.error e : Except ε α).mapError f = .error (f e) := rfl

@[simp] theorem mapError_pure (a : α) : (pure a : Except ε α).mapError f = pure a := rfl

@[simp] theorem mapError_throw (e : ε) : (throw e : Except ε α).mapError f = throw (f e) := rfl

@[simp] theorem mapError_bind (x : Except ε α) (k : α → Except ε β) :
    (x >>= k).mapError f = x.mapError f >>= fun a => (k a).mapError f := by
  cases x <;> rfl

@[simp] theorem mapError_map (g : α → β) (x : Except ε α) : (x.map g).mapError f = (x.mapError f).map g := by
  cases x <;> rfl

@[simp] theorem mapError_fmap (g : α → β) (x : Except ε α) : (g <$> x).mapError f = g <$> x.mapError f := by
  cases x <;> rfl

end Except

namespace BlockCodec

namespace Problem

/-- The problem as a decoder reports it `levels` array hops further from the root: a depth
fault names its limit counted from there, and nothing else changes. -/
def deeper (levels : Nat) : Problem → Problem
  | depthLimit limit => depthLimit (limit + levels)
  | p => p

end Problem

namespace DecodeError

/-- A report of a decoder started at the root, as the same decoder makes it when started at
`p`: the path continues `p`'s, and a depth fault counts `p`'s levels in its limit. -/
def relocate (p : Position) (e : DecodeError) : DecodeError :=
  { e with problem := e.problem.deeper p.depth, path := p.path ++ e.path }

end DecodeError

namespace Position

/-- Position `q` read as relative to `p`: its indices follow `p`'s, and its depth and limit
count `p`'s levels too. -/
def under (p q : Position) : Position :=
  ⟨q.trail ++ p.trail, q.depth + p.depth, q.limit + p.depth, by simp [q.depth_eq, p.depth_eq]⟩

variable (p q : Position)

@[simp] theorem depth_under : (p.under q).depth = q.depth + p.depth := rfl

@[simp] theorem limit_under : (p.under q).limit = q.limit + p.depth := rfl

@[simp] theorem path_under : (p.under q).path = p.path ++ q.path := by
  simp [under, path]

theorem under_child (i : Nat) : p.under (q.child i) = (p.under q).child i := by
  simp only [under, child, mk.injEq, List.cons_append, true_and, and_true]
  omega

theorem within_under : (p.under q).depth ≤ (p.under q).limit ↔ q.depth ≤ q.limit := by
  simp only [depth_under, limit_under]
  omega

theorem under_root {p : Position} (within : p.depth ≤ p.limit) : p.under (root (p.limit - p.depth)) = p := by
  cases p
  simp only [under, root, mk.injEq, List.nil_append, true_and] at within ⊢
  omega

theorem depthError_under (family : Family) :
    (p.under q).depthError family = (q.depthError family).relocate p := by
  simp [depthError, DecodeError.ofProblem, DecodeError.relocate, Problem.deeper]

end Position

namespace Arguments

/-- The same arguments, of a node whose position is placed under `p`. -/
def under (p : Position) (a : Arguments) : Arguments := { a with position := p.under a.position }

variable (p : Position) (a : Arguments) (i : Nat)

@[simp] theorem childPosition_under : (a.under p).childPosition i = p.under (a.childPosition i) :=
  (p.under_child a.position (a.offset + i)).symm

/-- A report about an argument moves with its node; no argument is blamed for a depth. -/
theorem locate_under {problem : Problem} (keeps : problem.deeper p.depth = problem) :
    (a.under p).locate i problem = (a.locate i problem).relocate p := by
  simp [locate, pathOf, under, DecodeError.relocate, keeps]

theorem typeError_under (expected : String) (found : Json) :
    (a.under p).typeError i expected found = (a.typeError i expected found).relocate p :=
  a.locate_under p i rfl

theorem invalidValue_under (expected : String) :
    (a.under p).invalidValue i expected = (a.invalidValue i expected).relocate p :=
  a.locate_under p i rfl

@[simp] theorem get_under : (a.under p).get i = (a.get i).mapError (·.relocate p) := by
  cases found : a.values[i]? <;> simp [get, under, found, DecodeError.relocate, Problem.deeper]

@[simp] theorem text_under : (a.under p).text i = (a.text i).mapError (·.relocate p) := by
  unfold text
  rw [get_under]
  cases a.get i with
  | error e => rfl
  | ok v => cases v <;> simp [typeError_under]

theorem stringItems_under (index start : Nat) (items : List Json) :
    (a.under p).stringItems index start items = (a.stringItems index start items).mapError (·.relocate p) := by
  induction items generalizing start with
  | nil => rfl
  | cons item rest ih =>
    cases item
    case string s => simp [stringItems, ih]
    all_goals simp [stringItems, typeError, locate, pathOf, under, DecodeError.relocate, Problem.deeper]

@[simp] theorem textList_under : (a.under p).textList i = (a.textList i).mapError (·.relocate p) := by
  unfold textList
  rw [get_under]
  cases a.get i with
  | error e => rfl
  | ok v => cases v <;> simp [typeError_under, stringItems_under]

@[simp] theorem number_under : (a.under p).number i = (a.number i).mapError (·.relocate p) := by
  unfold number
  rw [get_under]
  cases a.get i with
  | error e => rfl
  | ok v => cases v <;> simp [typeError_under]

@[simp] theorem count_under : (a.under p).count i = (a.count i).mapError (·.relocate p) := by
  unfold count
  rw [get_under]
  cases a.get i with
  | error e => rfl
  | ok v =>
    cases v
    case number n => cases n <;> simp [typeError_under]
    all_goals simp [typeError_under]

@[simp] theorem bool_under : (a.under p).bool i = (a.bool i).mapError (·.relocate p) := by
  unfold bool
  rw [get_under]
  cases a.get i with
  | error e => rfl
  | ok v => cases v <;> simp [typeError_under]

@[simp] theorem literal_under : (a.under p).literal i = (a.literal i).mapError (·.relocate p) := by
  unfold literal
  rw [get_under]
  cases a.get i with
  | error e => rfl
  | ok v =>
    cases read : Literal.ofJson v <;> simp [read, locate, pathOf, under, DecodeError.relocate, Problem.deeper]

theorem isPresent_under : (a.under p).isPresent i = a.isPresent i := rfl

@[simp] theorem optionalText_under : (a.under p).optionalText i = (a.optionalText i).mapError (·.relocate p) := by
  unfold optionalText
  rw [isPresent_under]
  split
  · simp [text_under]
  · rfl

@[simp] theorem optionalBool_under : (a.under p).optionalBool i = (a.optionalBool i).mapError (·.relocate p) := by
  unfold optionalBool
  rw [isPresent_under]
  split
  · simp [bool_under]
  · rfl

end Arguments

section

variable (p q : Position)

/-- A header is read the same wherever its node stands, and its faults move with the node. -/
theorem VariantTable.readHeader_under {α : Type} (t : VariantTable α) (v : Json) :
    t.readHeader (p.under q) v = (t.readHeader q v).mapError (·.relocate p) := by
  unfold readHeader
  repeat' split
  all_goals simp [DecodeError.relocate, Problem.deeper]

theorem openEnvelope_under (family : Family) (tag : String) (v : Json) :
    openEnvelope family tag (p.under q) v = (openEnvelope family tag q v).mapError (·.relocate p) := by
  unfold openEnvelope
  repeat' split
  all_goals simp [DecodeError.relocate, Problem.deeper]

/-- Items decode at a placed array as they do at the array itself, placed, when each item
does. -/
theorem decodeItems_under {β : Type} {decode : Position → Json → Except DecodeError β}
    (each : ∀ j x, decode (p.under (q.child j)) x = (decode (q.child j) x).mapError (·.relocate p))
    (start : Nat) (items : List Json) :
    decodeItems decode (p.under q) start items = (decodeItems decode q start items).mapError (·.relocate p) := by
  induction items generalizing start with
  | nil => rfl
  | cons x rest ih => simp [decodeItems, ← Position.under_child, each, ih]

end

namespace Expression

/-- An expression decodes at a placed position as at the position itself, with its reports
placed: the depth checks agree level by level, and every report is made at a path that
continues the position's. -/
theorem decodeAt_under (p q : Position) (v : Json) :
    decodeAt (p.under q) v = (decodeAt q v).mapError (·.relocate p) := by
  rw [decodeAt, decodeAt]
  by_cases within : q.depth ≤ q.limit
  · rw [dif_pos ((p.within_under q).mpr within), dif_pos within, expressionTable.readHeader_under]
    cases expressionTable.readHeader q v with
    | error e => rfl
    | ok header =>
      obtain ⟨var, values⟩ := header
      -- the operands sit one level below, where the same holds
      have operand (j : Nat) (x : Json) :
          decodeAt ((p.under q).child j) x = (decodeAt (q.child j) x).mapError (·.relocate p) := by
        rw [← Position.under_child]
        exact decodeAt_under p (q.child j) x
      have arguments : (⟨.expression, var.signature, values, 2, p.under q⟩ : Arguments) =
          Arguments.under p ⟨.expression, var.signature, values, 2, q⟩ := rfl
      simp only [Except.mapError_ok, arguments]
      cases var.form
      case constant | column => simp
      case unary | typeCheck | convert | extract =>
        simp only [Arguments.get_under, operand]
        cases Arguments.get _ 0 <;> simp
      case binary op =>
        simp only [Arguments.get_under, operand]
        cases Arguments.get _ 0 <;> cases Arguments.get _ 1 <;> simp
      case ternary op =>
        simp only [Arguments.get_under, operand]
        cases Arguments.get _ 0 <;> cases Arguments.get _ 1 <;> cases Arguments.get _ 2 <;> simp
  · rw [dif_neg (mt (p.within_under q).mp within), dif_neg within, Position.depthError_under]
    rfl
termination_by q.limit + 1 - q.depth
decreasing_by simp only [Position.depth_child, Position.limit_child]; omega

end Expression

namespace Stage

/-- A stage builds from the arguments of a placed node as from the node's own arguments,
with its reports placed. -/
theorem build_under (p : Position) (a : Arguments) (form : StageForm) :
    build (a.under p) form = (build a form).mapError (·.relocate p) := by
  cases form
  case summarize =>
    simp only [build, Arguments.text_under, Except.mapError_bind]
    congr 1
    funext name
    -- the function name is checked against the vocabulary before the column is read
    cases Aggregation.ofName? name <;> simp [Arguments.invalidValue_under]
  -- every other form reads its arguments in order, each reader moving its report with the node
  all_goals simp [build, Expression.decodeAt_under]

theorem decodeAt_under (p q : Position) (v : Json) :
    decodeAt (p.under q) v = (decodeAt q v).mapError (·.relocate p) := by
  unfold decodeAt
  by_cases within : q.depth ≤ q.limit
  · rw [if_pos ((p.within_under q).mpr within), if_pos within, stageTable.readHeader_under]
    cases stageTable.readHeader q v with
    | error e => rfl
    | ok header => exact build_under p ⟨.stage, header.1.signature, header.2, 2, q⟩ header.1.form
  · rw [if_neg (mt (p.within_under q).mp within), if_neg within, Position.depthError_under]
    rfl

end Stage

namespace Pipeline

theorem decodeAt_under (p q : Position) (v : Json) :
    decodeAt (p.under q) v = (decodeAt q v).mapError (·.relocate p) := by
  unfold decodeAt
  by_cases within : q.depth ≤ q.limit
  · rw [if_pos ((p.within_under q).mpr within), if_pos within, openEnvelope_under]
    cases openEnvelope .pipeline pipelineKind q v with
    | error e => rfl
    | ok items =>
      have stages := decodeItems_under p q (fun j x => Stage.decodeAt_under p (q.child j) x) 2
      rcases items with _ | ⟨name, rest⟩
      · simp [DecodeError.relocate, Problem.deeper]
      · cases name <;> simp [stages, DecodeError.relocate, Problem.deeper]
  · rw [if_neg (mt (p.within_under q).mp within), if_neg within, Position.depthError_under]
    rfl

end Pipeline

namespace Program

theorem decodeAt_under (p q : Position) (v : Json) :
    decodeAt (p.under q) v = (decodeAt q v).mapError (·.relocate p) := by
  unfold decodeAt
  by_cases within : q.depth ≤ q.limit
  · rw [if_pos ((p.within_under q).mpr within), if_pos within, openEnvelope_under]
    cases openEnvelope .program programKind q v with
    | error e => rfl
    | ok items => simp [decodeItems_under p q (fun j x => Pipeline.decodeAt_under p (q.child j) x)]
  · rw [if_neg (mt (p.within_under q).mp within), if_neg within, Position.depthError_under]
    rfl

end Program

/-- A moved report keeps everything but its path and the limit a depth fault names: its
pointer is the position's pointer followed by the report's own. -/
theorem DecodeError.relocate_keeps (p : Position) (e : DecodeError) :
    (e.relocate p).family = e.family ∧ (e.relocate p).code = e.code ∧ (e.relocate p).kind = e.kind ∧
      (e.relocate p).name = e.name ∧ (e.relocate p).suggestion = e.suggestion ∧
      (e.relocate p).pointer = pointerText p.path ++ e.pointer ∧
      (e.code ≠ "DEPTH_LIMIT" → (e.relocate p).message = e.message) ∧
      ∀ limit, e.problem = .depthLimit limit → (e.relocate p).problem = .depthLimit (limit + p.depth) := by
  obtain ⟨family, problem, kind, name, path⟩ := e
  have pointer : pointerText (p.path ++ path) = pointerText p.path ++ pointerText path := by
    simp [pointerText, String.join_append]
  cases problem <;> simp [relocate, Problem.deeper, code, Problem.code, suggestion, Problem.suggestion,
    DecodeError.pointer, pointer, message]

/-- Started at any position, `decode` gives what it gives from the root under the limit left
at the position, with every report moved under the position, and leaves the context there;
started past its limit, it reports the depth where it stands. -/
def DecodesRelatively {α : Type} (decode : Json → Decoding α) (family : Family) : Prop :=
  ∀ (v : Json) (pos : Position), (decode v).Returns pos
    (if pos.depth ≤ pos.limit then
      ((decode v).runAt (Position.root (pos.limit - pos.depth))).1.mapError (·.relocate pos)
    else .error (pos.depthError family))

/-- A traversal decoder decodes relatively when the positional decoder it agrees with moves
with its position and fails on the depth past the limit. -/
theorem DecodesRelatively.of_decodeAt {α : Type} {decode : Json → Decoding α}
    {decodeAt : Position → Json → Except DecodeError α} {family : Family}
    (returns : ∀ v pos, (decode v).Returns pos (decodeAt pos v))
    (placed : ∀ p q v, decodeAt (p.under q) v = (decodeAt q v).mapError (·.relocate p))
    (deep : ∀ pos v, pos.limit < pos.depth → decodeAt pos v = .error (pos.depthError family)) :
    DecodesRelatively decode family := by
  intro v pos
  split
  · rename_i within
    have fromRoot : ((decode v).runAt (Position.root (pos.limit - pos.depth))).1 =
        decodeAt (Position.root (pos.limit - pos.depth)) v :=
      congrArg Prod.fst (returns v _)
    rw [fromRoot, ← placed, Position.under_root within]
    exact returns v pos
  · rw [← deep pos v (by omega)]
    exact returns v pos

/-- Decoding inside an ongoing traversal is decoding from the root, shifted. For each family,
every value and every context within its limit, the decoder gives what it gives from the root
under the limit left at the context, each report moved under the context's path, and past the
limit it reports the depth at the context. A moved report keeps its family, code, variant kind
and name and suggestion, its pointer is the context's pointer followed by the root report's,
and only a depth fault's message changes, to name the whole limit. -/
theorem decoding_inside_traversal_is_shifted_root :
    DecodesRelatively Expression.decodeWith .expression ∧ DecodesRelatively Stage.decodeWith .stage ∧
      DecodesRelatively Pipeline.decodeWith .pipeline ∧ DecodesRelatively Program.decodeWith .program ∧
      ∀ (pos : Position) (e : DecodeError),
        (e.relocate pos).family = e.family ∧ (e.relocate pos).code = e.code ∧
          (e.relocate pos).kind = e.kind ∧ (e.relocate pos).name = e.name ∧
          (e.relocate pos).suggestion = e.suggestion ∧
          (e.relocate pos).pointer = pointerText pos.path ++ e.pointer ∧
          (e.code ≠ "DEPTH_LIMIT" → (e.relocate pos).message = e.message) ∧
          ∀ limit, e.problem = .depthLimit limit →
            (e.relocate pos).problem = .depthLimit (limit + pos.depth) :=
  ⟨.of_decodeAt Expression.decodeWith_returns Expression.decodeAt_under
      fun _ _ deep => by rw [Expression.decodeAt, dif_neg (Nat.not_le.mpr deep)],
    .of_decodeAt Stage.decodeWith_returns Stage.decodeAt_under
      fun _ _ deep => by rw [Stage.decodeAt, if_neg (Nat.not_le.mpr deep)],
    .of_decodeAt Pipeline.decodeWith_returns Pipeline.decodeAt_under
      fun _ _ deep => by rw [Pipeline.decodeAt, if_neg (Nat.not_le.mpr deep)],
    .of_decodeAt Program.decodeWith_returns Program.decodeAt_under
      fun _ _ deep => by rw [Program.decodeAt, if_neg (Nat.not_le.mpr deep)],
    DecodeError.relocate_keeps⟩

end BlockCodec
