import BlockCodec.Proofs.Faults

namespace BlockCodec

namespace VariantTable

variable {α : Type} {t : VariantTable α} {pos : Position} {v : Json} {e : DecodeError}

theorem readHeader_eq_error (failed : t.readHeader pos v = .error e) :
    e.path = pos.path ∧ e.family = t.family ∧ e.problem.isNodeFault ∧ ¬t.Registered v := by
  have reported : e.path = pos.path ∧ e.family = t.family ∧ e.problem.isNodeFault := by
    unfold readHeader at failed
    repeat' split at failed
    all_goals cases failed
    all_goals exact ⟨rfl, rfl, rfl⟩
  refine ⟨reported.1, reported.2.1, reported.2.2, ?_⟩
  -- a registered header is read without fault
  rintro ⟨kind, name, args, var, rfl, declared, found, accepts⟩
  obtain ⟨kindIs, nameIs⟩ := key_of_find?_eq_some found
  have read : t.readHeader pos (.array (.string kind :: .string name :: args)) = .ok (var, args) :=
    readHeader_eq_ok.mpr ⟨by rw [kindIs, nameIs], kindIs ▸ declared, kindIs ▸ nameIs ▸ found, accepts⟩
  rw [read] at failed
  cases failed

end VariantTable

theorem openEnvelope_eq_error {family : Family} {tag : String} {pos : Position} {v : Json} {e : DecodeError}
    (failed : openEnvelope family tag pos v = .error e) :
    e.path = pos.path ∧ e.family = family ∧ e.problem.isNodeFault ∧ ¬∃ items, v = .array (.string tag :: items) := by
  have reported : e.path = pos.path ∧ e.family = family ∧ e.problem.isNodeFault := by
    unfold openEnvelope at failed
    repeat' split at failed
    all_goals cases failed
    all_goals exact ⟨rfl, rfl, rfl⟩
  refine ⟨reported.1, reported.2.1, reported.2.2, ?_⟩
  rintro ⟨items, rfl⟩
  rw [openEnvelope_eq_ok.mpr rfl] at failed
  cases failed

/-- Items are decoded in order: the error of a list is the error of one item, and every item
before it decodes. -/
theorem decodeItems_eq_error {β : Type} {decode : Position → Json → Except DecodeError β} {pos : Position}
    {start : Nat} {items : List Json} {e : DecodeError} (failed : decodeItems decode pos start items = .error e) :
    ∃ i x, items[i]? = some x ∧ decode (pos.child (start + i)) x = .error e ∧
      ∀ j < i, ∃ x' y, items[j]? = some x' ∧ decode (pos.child (start + j)) x' = .ok y := by
  induction items generalizing start with
  | nil => cases failed
  | cons item rest ih =>
    simp only [decodeItems, Except.bind_eq_error_iff] at failed
    rcases failed with first | ⟨y, first, later⟩
    · exact ⟨0, item, rfl, first, by simp⟩
    · rcases later with later | ⟨ys, _, done⟩
      · obtain ⟨i, x, found, failed, earlier⟩ := ih later
        refine ⟨i + 1, x, by simpa using found, by rw [← failed]; congr 2; omega, ?_⟩
        intro j before
        cases j with
        | zero => exact ⟨item, y, rfl, by simpa using first⟩
        | succ j =>
          obtain ⟨x', y', found', decoded⟩ := earlier j (by omega)
          exact ⟨x', y', by simpa using found', by rw [← decoded]; congr 2; omega⟩
      · cases done

namespace FirstFault

variable {F : Family} {m d : Nat} {v : Json} {e : DecodeError}

/-- A node within the limit whose header breaks its family's rule is its own first fault. -/
theorem header (fits : d ≤ m) (nodeFault : e.problem.isNodeFault) (family : e.family = F)
    (bad : ¬F.HeaderOk v) : FirstFault (.node F) m d v [] e := by
  subst family
  exact here (Or.inl ⟨nodeFault, rfl, Or.inr ⟨fits, bad⟩⟩)

/-- A node one level past the limit is its own first fault. -/
theorem depth (deep : d = m + 1) (problem : e.problem = .depthLimit m) (family : e.family = F) :
    FirstFault (.node F) m d v [] e := by
  subst family
  exact here (Or.inl ⟨by rw [problem]; rfl, rfl, Or.inl ⟨problem, deep⟩⟩)

end FirstFault

theorem Param.rule_of_node {p : Param} {f : Family} (node : p.type = .node f) : p.rule = .node f := by
  simp [Param.rule, node]

namespace Family

variable {k n : String} {values : List Json} {j : Nat}

theorem expression_childRule_lt (small : j < 2) :
    expression.childRule (.array (.string k :: .string n :: values)) j = none := by
  simp [childRule, VariantTable.argRule?, small]

theorem expression_childRule_arg {var : Variant ExpressionForm} (found : expressionTable.find? k n = some var) :
    expression.childRule (.array (.string k :: .string n :: values)) (2 + j) =
      var.signature.params[j]?.map Param.rule := by
  have large : ¬2 + j < 2 := by omega
  simp only [childRule, VariantTable.argRule?, if_neg large, found, Option.bind_some, Nat.add_sub_cancel_left]

end Family

namespace Expression

variable {pos : Position} {v : Json} {var : Variant ExpressionForm} {values : List Json} {e : DecodeError}

theorem signature_of_header (header : expressionTable.readHeader pos v = .ok (var, values)) :
    var.signature = var.form.signature := by
  obtain ⟨-, -, found, -⟩ := VariantTable.readHeader_eq_ok.mp header
  exact ExpressionForm.signature_of_mem ((VariantTable.find?_eq_some_iff expressionTable_keys_nodup).mp found).1

theorem length_of_header (header : expressionTable.readHeader pos v = .ok (var, values)) :
    values.length = var.form.signature.params.length := by
  obtain ⟨-, -, -, accepts⟩ := VariantTable.readHeader_eq_ok.mp header
  rw [signature_of_header header] at accepts
  exact (ExpressionForm.accepts_signature_iff _ _).mp accepts

/-- A fault below argument `i` of an expression whose earlier arguments follow their rules is
the first fault below the expression. -/
theorem firstFault_of_argument {i : Nat} {r : Rule} (fits : pos.depth ≤ pos.limit)
    (header : expressionTable.readHeader pos v = .ok (var, values))
    (earlier : ∀ j < i, ∀ r w, var.signature.params[j]?.map Param.rule = some r → values[j]? = some w →
      r.Valid pos.limit (pos.depth + 1) w)
    (rule : var.signature.params[i]?.map Param.rule = some r)
    (misread : (⟨.expression, var.signature, values, 2, pos⟩ : Arguments).Misreads i r e) :
    ∃ p, e.path = pos.path ++ p ∧ FirstFault (.node .expression) pos.limit pos.depth v p e := by
  obtain ⟨rfl, declared, found, accepts⟩ := VariantTable.readHeader_eq_ok.mp header
  have registered : Family.expression.HeaderOk
      (.array ([.string var.signature.kind, .string var.signature.name] ++ values)) :=
    ⟨_, _, _, var, rfl, declared, found, accepts⟩
  refine @Arguments.firstFault_of_misreads ⟨.expression, var.signature, values, 2, pos⟩ i e .expression
    [.string var.signature.kind, .string var.signature.name] r rfl fits registered ?_ ?_ ?_ misread
  · intro j small r w rule' _
    simp [Family.expression_childRule_lt small] at rule'
  · intro j before r w rule' item
    change Family.expression.childRule (.array (.string _ :: .string _ :: values)) (2 + j) = some r at rule'
    rw [Family.expression_childRule_arg found] at rule'
    exact earlier j before r w rule' item
  · show Family.expression.childRule (.array (.string _ :: .string _ :: values)) (2 + i) = some r
    rw [Family.expression_childRule_arg found]
    exact rule

/-- The first fault below an operand of an expression, whose earlier operands decode, is the
first fault below the expression. -/
theorem firstFault_of_operand {i : Nat} {x : Json} (fits : pos.depth ≤ pos.limit)
    (header : expressionTable.readHeader pos v = .ok (var, values))
    (operands : ∀ p ∈ var.form.signature.params, p.type = .node .expression)
    (earlier : ∀ j < i, ∃ x' y, values[j]? = some x' ∧ decodeAt (pos.child (2 + j)) x' = .ok y)
    (item : values[i]? = some x)
    (inner : ∃ p, e.path = (pos.child (2 + i)).path ++ p ∧
      FirstFault (.node .expression) pos.limit (pos.depth + 1) x p e) :
    ∃ p, e.path = pos.path ++ p ∧ FirstFault (.node .expression) pos.limit pos.depth v p e := by
  have signature := signature_of_header header
  have operand : ∀ j, j < values.length → var.signature.params[j]?.map Param.rule = some (.node .expression) := by
    intro j present
    rw [length_of_header header] at present
    rw [signature, List.getElem?_eq_getElem present, Option.map_some,
      Param.rule_of_node (operands _ (List.getElem_mem present))]
  have present : i < values.length := by
    by_contra absent
    simp [List.getElem?_eq_none (Nat.le_of_not_lt absent)] at item
  obtain ⟨p, path, fault⟩ := inner
  refine firstFault_of_argument fits header ?_ (operand i present) ⟨x, p, item, path, fault⟩
  intro j before r w rule' item'
  obtain ⟨x', y, found, decoded⟩ := earlier j before
  obtain ⟨rfl, fitsBelow⟩ := decodeAt_eq_ok_iff.mp decoded
  rw [operand j (by omega), Option.some.injEq] at rule'
  rw [found, Option.some.injEq] at item'
  subst rule' item'
  exact ⟨y, rfl, by simpa using fitsBelow⟩

theorem firstFault_of_decodeAt (reach : pos.depth ≤ pos.limit + 1) (failed : decodeAt pos v = .error e) :
    ∃ p, e.path = pos.path ++ p ∧ FirstFault (.node .expression) pos.limit pos.depth v p e := by
  induction pos, v using decodeAt.induct generalizing e with
  | case1 pos v fits err header =>
    rw [decodeAt, dif_pos fits, header] at failed
    cases failed
    obtain ⟨path, family, nodeFault, unregistered⟩ := VariantTable.readHeader_eq_error header
    exact ⟨[], by simp [path], FirstFault.header fits nodeFault family unregistered⟩
  | case2 pos v fits var values header form =>
    rw [decodeAt, dif_pos fits, header] at failed
    simp only [form] at failed
    have arity := length_of_header header
    have signature := signature_of_header header
    simp only [form, ExpressionForm.signature, List.length_singleton] at arity signature
    refine @firstFault_of_argument _ _ _ _ _ 0 (.value .literal) fits header (by simp)
      (by simp [signature, Param.rule, Param.required]) ?_
    exact Arguments.literal_misreads (by simp [arity]) (Except.map_eq_error_iff.mp failed)
  | case3 pos v fits var values header form =>
    rw [decodeAt, dif_pos fits, header] at failed
    simp only [form] at failed
    have arity := length_of_header header
    have signature := signature_of_header header
    simp only [form, ExpressionForm.signature, List.length_singleton] at arity signature
    refine @firstFault_of_argument _ _ _ _ _ 0 (.value .text) fits header (by simp)
      (by simp [signature, Param.rule, Param.required]) ?_
    exact Arguments.text_misreads (by simp [arity]) (Except.map_eq_error_iff.mp failed)
  | case4 pos v fits var values header _ form ih | case7 pos v fits var values header _ form ih
  | case8 pos v fits var values header _ form ih | case9 pos v fits var values header _ form ih =>
    rw [decodeAt, dif_pos fits, header] at failed
    simp only [form] at failed
    have arity := length_of_header header
    simp only [form, ExpressionForm.signature, ExpressionForm.operandParams, List.length_singleton] at arity
    obtain ⟨x0, rfl⟩ := List.length_eq_one_iff.mp arity
    refine @firstFault_of_operand _ _ _ _ _ 0 x0 fits header
      (by simp [form, ExpressionForm.signature, ExpressionForm.operandParams, Param.required]) (by simp) rfl ?_
    exact ih 0 x0 (by simp; omega) (by simpa [Arguments.get] using Except.map_eq_error_iff.mp failed)
  | case5 pos v fits var values header _ form ih =>
    rw [decodeAt, dif_pos fits, header] at failed
    simp only [form, Except.bind_eq_error_iff] at failed
    have arity := length_of_header header
    simp only [form, ExpressionForm.signature, ExpressionForm.pairParams, List.length_cons, List.length_nil] at arity
    obtain ⟨x0, x1, rfl⟩ := List.length_eq_two.mp arity
    have operands : ∀ p ∈ var.form.signature.params, p.type = .node .expression := by
      simp [form, ExpressionForm.signature, ExpressionForm.pairParams, Param.required]
    rcases failed with leftFailed | ⟨l, left, rightFailed | ⟨r, -, done⟩⟩
    · refine @firstFault_of_operand _ _ _ _ _ 0 x0 fits header operands (by simp) rfl ?_
      exact ih 0 x0 (by simp; omega) (by simpa [Arguments.get] using leftFailed)
    · refine @firstFault_of_operand _ _ _ _ _ 1 x1 fits header operands ?_ rfl ?_
      · intro j before
        obtain rfl : j = 0 := by omega
        exact ⟨x0, l, rfl, by simpa [Arguments.get] using left⟩
      · exact ih 1 x1 (by simp; omega) (by simpa [Arguments.get] using rightFailed)
    · cases done
  | case6 pos v fits var values header _ form ih =>
    rw [decodeAt, dif_pos fits, header] at failed
    simp only [form, Except.bind_eq_error_iff] at failed
    have arity := length_of_header header
    simp only [form, ExpressionForm.signature, ExpressionForm.choiceParams, List.length_cons,
      List.length_nil] at arity
    obtain ⟨x0, x1, x2, rfl⟩ := List.length_eq_three.mp arity
    have operands : ∀ p ∈ var.form.signature.params, p.type = .node .expression := by
      simp [form, ExpressionForm.signature, ExpressionForm.choiceParams, Param.required]
    rcases failed with conditionFailed | ⟨c, condition, ifTrueFailed | ⟨t, ifTrue, ifFalseFailed | ⟨f, -, done⟩⟩⟩
    · refine @firstFault_of_operand _ _ _ _ _ 0 x0 fits header operands (by simp) rfl ?_
      exact ih 0 x0 (by simp; omega) (by simpa [Arguments.get] using conditionFailed)
    · refine @firstFault_of_operand _ _ _ _ _ 1 x1 fits header operands ?_ rfl ?_
      · intro j before
        obtain rfl : j = 0 := by omega
        exact ⟨x0, c, rfl, by simpa [Arguments.get] using condition⟩
      · exact ih 1 x1 (by simp; omega) (by simpa [Arguments.get] using ifTrueFailed)
    · refine @firstFault_of_operand _ _ _ _ _ 2 x2 fits header operands ?_ rfl ?_
      · intro j before
        obtain rfl | rfl : j = 0 ∨ j = 1 := by omega
        · exact ⟨x0, c, rfl, by simpa [Arguments.get] using condition⟩
        · exact ⟨x1, t, rfl, by simpa [Arguments.get] using ifTrue⟩
      · exact ih 2 x2 (by simp; omega) (by simpa [Arguments.get] using ifFalseFailed)
    · cases done
  | case10 pos v deep =>
    rw [decodeAt, dif_neg deep] at failed
    cases failed
    exact ⟨[], by simp [Position.depthError, DecodeError.ofProblem], FirstFault.depth (by omega) rfl rfl⟩

end Expression

theorem Except.pure_ne_error {ε α : Type} {a : α} {e : ε} : (pure a : Except ε α) ≠ .error e := by
  simp [pure, Except.pure]

namespace Family

variable {k n : String} {values : List Json} {j : Nat}

theorem stage_childRule_lt (small : j < 2) : stage.childRule (.array (.string k :: .string n :: values)) j = none := by
  simp [childRule, VariantTable.argRule?, small]
  omega

theorem stage_childRule_arg {var : Variant StageForm} (found : stageTable.find? k n = some var) :
    stage.childRule (.array (.string k :: .string n :: values)) (2 + j) =
      if k = transformKind ∧ n = "summarize" ∧ j = 0 then some .aggregation
      else var.signature.params[j]?.map Param.rule := by
  have large : ¬2 + j < 2 := by omega
  have first : 2 + j = 2 ↔ j = 0 := by omega
  simp only [childRule, VariantTable.argRule?, if_neg large, found, Option.bind_some, Nat.add_sub_cancel_left,
    first]

end Family

theorem Arguments.misreads_expression {a : Arguments} {i : Nat} {x : Json} {e : DecodeError}
    (fits : a.position.depth ≤ a.position.limit) (item : a.values[i]? = some x)
    (failed : Expression.decodeAt (a.childPosition i) x = .error e) : a.Misreads i (.node .expression) e := by
  obtain ⟨p, path, fault⟩ := Expression.firstFault_of_decodeAt (by simp [Arguments.childPosition]; omega) failed
  exact ⟨x, p, item, path, fault⟩

/-- A summary's function that is not a string is a fault of the function's name. -/
theorem Arguments.text_misreads_aggregation {a : Arguments} {i : Nat} {e : DecodeError}
    (present : i < a.values.length) (failed : a.text i = .error e) : a.Misreads i .aggregation e := by
  obtain ⟨w, item⟩ := Arguments.exists_item present
  simp only [Arguments.text, Arguments.get, item] at failed
  cases w
  case string s => cases failed
  all_goals
    cases failed
    exact Arguments.misreads_locate item rfl (by simp) (by simp [Rule.Valid])

namespace Stage

variable {pos : Position} {v : Json} {var : Variant StageForm} {values : List Json} {e : DecodeError}

abbrev argRule (var : Variant StageForm) (j : Nat) : Option Rule :=
  if var.signature.kind = transformKind ∧ var.signature.name = "summarize" ∧ j = 0 then some .aggregation
  else var.signature.params[j]?.map Param.rule

/-- The arguments of a stage before index `i` follow their rules. -/
def ArgsFollow (pos : Position) (var : Variant StageForm) (values : List Json) (i : Nat) : Prop :=
  ∀ j < i, ∀ r w, argRule var j = some r → values[j]? = some w → r.Valid pos.limit (pos.depth + 1) w

theorem ArgsFollow.zero : ArgsFollow pos var values 0 :=
  fun j before => absurd before (Nat.not_lt_zero j)

theorem ArgsFollow.succ {i : Nat} {r : Rule} {w : Json} (follow : ArgsFollow pos var values i)
    (rule : argRule var i = some r) (item : values[i]? = some w) (valid : r.Valid pos.limit (pos.depth + 1) w) :
    ArgsFollow pos var values (i + 1) := by
  intro j before r' w' rule' item'
  rcases Nat.lt_succ_iff_lt_or_eq.mp before with earlier | rfl
  · exact follow j earlier r' w' rule' item'
  · rw [rule, Option.some.injEq] at rule'
    rw [item, Option.some.injEq] at item'
    subst rule' item'
    exact valid

/-- A fault below argument `i` of a stage whose earlier arguments follow their rules is the
first fault below the stage. -/
theorem firstFault_of_argument {i : Nat} {r : Rule} (fits : pos.depth ≤ pos.limit)
    (header : stageTable.readHeader pos v = .ok (var, values)) (earlier : ArgsFollow pos var values i)
    (rule : argRule var i = some r)
    (misread : (⟨.stage, var.signature, values, 2, pos⟩ : Arguments).Misreads i r e) :
    ∃ p, e.path = pos.path ++ p ∧ FirstFault (.node .stage) pos.limit pos.depth v p e := by
  obtain ⟨rfl, declared, found, accepts⟩ := VariantTable.readHeader_eq_ok.mp header
  have registered : Family.stage.HeaderOk (.array ([.string var.signature.kind, .string var.signature.name] ++ values)) :=
    ⟨_, _, _, var, rfl, declared, found, accepts⟩
  refine @Arguments.firstFault_of_misreads ⟨.stage, var.signature, values, 2, pos⟩ i e .stage
    [.string var.signature.kind, .string var.signature.name] r rfl fits registered ?_ ?_ ?_ misread
  · intro j small r w rule' _
    simp [Family.stage_childRule_lt small] at rule'
  · intro j before r w rule' item
    change Family.stage.childRule (.array (.string _ :: .string _ :: values)) (2 + j) = some r at rule'
    rw [Family.stage_childRule_arg found] at rule'
    exact earlier j before r w rule' item
  · show Family.stage.childRule (.array (.string _ :: .string _ :: values)) (2 + i) = some r
    rw [Family.stage_childRule_arg found]
    exact rule

section Reads

variable {β : Type} {i : Nat} (fits : pos.depth ≤ pos.limit) (header : stageTable.readHeader pos v = .ok (var, values))
  (follow : ArgsFollow pos var values i) (present : i < values.length)

include fits header follow present

/-- A string argument read on the way: either it holds the first fault, or it follows its rule
and the fault lies further on. -/
theorem text_then {k : String → Except DecodeError β} (rule : argRule var i = some (.value .text))
    (failed : ((⟨.stage, var.signature, values, 2, pos⟩ : Arguments).text i >>= k) = .error e)
    (next : ∀ s, ArgsFollow pos var values (i + 1) → k s = .error e →
      ∃ p, e.path = pos.path ++ p ∧ FirstFault (.node .stage) pos.limit pos.depth v p e) :
    ∃ p, e.path = pos.path ++ p ∧ FirstFault (.node .stage) pos.limit pos.depth v p e := by
  rcases Except.bind_eq_error_iff.mp failed with failed | ⟨s, read, failed⟩
  · exact firstFault_of_argument fits header follow rule (Arguments.text_misreads present failed)
  · exact next s (follow.succ rule (Arguments.text_eq_ok.mp read) ⟨s, rfl⟩) failed

theorem number_then {k : Number → Except DecodeError β} (rule : argRule var i = some (.value .number))
    (failed : ((⟨.stage, var.signature, values, 2, pos⟩ : Arguments).number i >>= k) = .error e)
    (next : ∀ n, ArgsFollow pos var values (i + 1) → k n = .error e →
      ∃ p, e.path = pos.path ++ p ∧ FirstFault (.node .stage) pos.limit pos.depth v p e) :
    ∃ p, e.path = pos.path ++ p ∧ FirstFault (.node .stage) pos.limit pos.depth v p e := by
  rcases Except.bind_eq_error_iff.mp failed with failed | ⟨n, read, failed⟩
  · exact firstFault_of_argument fits header follow rule (Arguments.number_misreads present failed)
  · exact next n (follow.succ rule (Arguments.number_eq_ok.mp read) ⟨n, rfl⟩) failed

theorem textList_then {k : List String → Except DecodeError β} (rule : argRule var i = some (.value .textList))
    (failed : ((⟨.stage, var.signature, values, 2, pos⟩ : Arguments).textList i >>= k) = .error e)
    (next : ∀ xs, ArgsFollow pos var values (i + 1) → k xs = .error e →
      ∃ p, e.path = pos.path ++ p ∧ FirstFault (.node .stage) pos.limit pos.depth v p e) :
    ∃ p, e.path = pos.path ++ p ∧ FirstFault (.node .stage) pos.limit pos.depth v p e := by
  rcases Except.bind_eq_error_iff.mp failed with failed | ⟨xs, read, failed⟩
  · exact firstFault_of_argument fits header follow rule (Arguments.textList_misreads present failed)
  · exact next xs (follow.succ rule (Arguments.textList_eq_ok.mp read) ⟨xs, rfl⟩) failed

/-- A string read as the last argument, when the reads before it succeeded: it holds the fault. -/
theorem text_last {g : String → Stage} (rule : argRule var i = some (.value .text))
    (failed : ((⟨.stage, var.signature, values, 2, pos⟩ : Arguments).text i >>= fun s => pure (g s)) = .error e) :
    ∃ p, e.path = pos.path ++ p ∧ FirstFault (.node .stage) pos.limit pos.depth v p e :=
  firstFault_of_argument fits header follow rule
    (Arguments.text_misreads present (Except.bind_pure_eq_error_iff.mp failed))

/-- An expression read as the last argument: the fault lies below it. -/
theorem expression_last {g : Expression → Stage} (rule : argRule var i = some (.node .expression))
    (failed : ((⟨.stage, var.signature, values, 2, pos⟩ : Arguments).get i >>= fun x =>
      Expression.decodeAt (Arguments.childPosition ⟨.stage, var.signature, values, 2, pos⟩ i) x >>= fun y =>
        pure (g y)) = .error e) :
    ∃ p, e.path = pos.path ++ p ∧ FirstFault (.node .stage) pos.limit pos.depth v p e := by
  rcases Except.bind_eq_error_iff.mp failed with failed | ⟨x, item, failed⟩
  · -- the argument is there, so it is read
    have absent := Arguments.getElem?_eq_none_of_get failed
    rw [List.getElem?_eq_none_iff] at absent
    exact absurd present (Nat.not_lt_of_le absent)
  · exact firstFault_of_argument fits header follow rule
      (Arguments.misreads_expression fits (Arguments.get_eq_ok.mp item) (Except.bind_pure_eq_error_iff.mp failed))

end Reads

theorem firstFault_of_build (fits : pos.depth ≤ pos.limit) (header : stageTable.readHeader pos v = .ok (var, values))
    (failed : build ⟨.stage, var.signature, values, 2, pos⟩ var.form = .error e) :
    ∃ p, e.path = pos.path ++ p ∧ FirstFault (.node .stage) pos.limit pos.depth v p e := by
  obtain ⟨sig, f⟩ := var
  obtain rfl : sig = f.signature := signature_of_header header
  have arity : f.signature.accepts values.length := (header_of_readHeader header).2
  -- each form reads its arguments in order, and the first read that fails holds the fault
  cases f with
  | drop | groupBy | select | unique =>
    have one : values.length = 1 := (StageForm.accepts_iff_of_required rfl).mp arity
    exact firstFault_of_argument fits header .zero rfl
      (Arguments.textList_misreads (by dsimp only; omega) (Except.map_eq_error_iff.mp failed))
  | notify | read | dot =>
    have one : values.length = 1 := (StageForm.accepts_iff_of_required rfl).mp arity
    exact firstFault_of_argument fits header .zero rfl
      (Arguments.text_misreads (by dsimp only; omega) (Except.map_eq_error_iff.mp failed))
  | bar | box =>
    have two : values.length = 2 := (StageForm.accepts_iff_of_required rfl).mp arity
    refine text_then fits header .zero (by omega) rfl failed fun _ follow failed => ?_
    exact text_last fits header follow (by omega) rfl failed
  | histogram =>
    have two : values.length = 2 := (StageForm.accepts_iff_of_required rfl).mp arity
    refine text_then fits header .zero (by omega) rfl failed fun _ follow failed => ?_
    exact firstFault_of_argument fits header follow rfl
      (Arguments.count_misreads (by dsimp only; omega) (Except.bind_pure_eq_error_iff.mp failed))
  | scatter =>
    -- the color may be left out
    have least : 2 ≤ values.length := (StageForm.accepts_iff.mp arity).1
    refine text_then fits header .zero (by omega) rfl failed fun _ follow failed => ?_
    refine text_then fits header follow (by omega) rfl failed fun _ follow failed => ?_
    exact firstFault_of_argument fits header follow rfl
      (Arguments.optionalText_misreads (Except.bind_pure_eq_error_iff.mp failed))
  | join =>
    have four : values.length = 4 := (StageForm.accepts_iff_of_required rfl).mp arity
    refine text_then fits header .zero (by omega) rfl failed fun _ follow failed => ?_
    refine text_then fits header follow (by omega) rfl failed fun _ follow failed => ?_
    refine text_then fits header follow (by omega) rfl failed fun _ follow failed => ?_
    exact text_last fits header follow (by omega) rfl failed
  | anova | kruskalWallis | tTestPaired =>
    have three : values.length = 3 := (StageForm.accepts_iff_of_required rfl).mp arity
    refine number_then fits header .zero (by omega) rfl failed fun _ follow failed => ?_
    refine text_then fits header follow (by omega) rfl failed fun _ follow failed => ?_
    exact text_last fits header follow (by omega) rfl failed
  | tTestOneSample =>
    have three : values.length = 3 := (StageForm.accepts_iff_of_required rfl).mp arity
    refine number_then fits header .zero (by omega) rfl failed fun _ follow failed => ?_
    refine number_then fits header follow (by omega) rfl failed fun _ follow failed => ?_
    exact text_last fits header follow (by omega) rfl failed
  | kolmogorovSmirnov | zTestOneSample =>
    have four : values.length = 4 := (StageForm.accepts_iff_of_required rfl).mp arity
    refine number_then fits header .zero (by omega) rfl failed fun _ follow failed => ?_
    refine number_then fits header follow (by omega) rfl failed fun _ follow failed => ?_
    refine number_then fits header follow (by omega) rfl failed fun _ follow failed => ?_
    exact text_last fits header follow (by omega) rfl failed
  | sort =>
    -- the direction may be left out
    have least : 1 ≤ values.length := (StageForm.accepts_iff.mp arity).1
    refine textList_then fits header .zero (by omega) rfl failed fun _ follow failed => ?_
    exact firstFault_of_argument fits header follow rfl
      (Arguments.optionalBool_misreads (Except.bind_pure_eq_error_iff.mp failed))
  | ungroup => exact absurd failed Except.pure_ne_error
  | filter =>
    have one : values.length = 1 := (StageForm.accepts_iff_of_required rfl).mp arity
    exact expression_last fits header .zero (by omega) rfl failed
  | mutate =>
    have two : values.length = 2 := (StageForm.accepts_iff_of_required rfl).mp arity
    refine text_then fits header .zero (by omega) rfl failed fun _ follow failed => ?_
    exact expression_last fits header follow (by omega) rfl failed
  | summarize =>
    have two : values.length = 2 := (StageForm.accepts_iff_of_required rfl).mp arity
    obtain failed | ⟨name, named, failed⟩ := Except.bind_eq_error_iff.mp failed
    · exact firstFault_of_argument fits header .zero rfl
        (Arguments.text_misreads_aggregation (by dsimp only; omega) failed)
    have item := Arguments.text_eq_ok.mp named
    -- the function's name is checked before the column is read
    cases known : Aggregation.ofName? name with
    | none =>
      rw [known] at failed
      cases failed
      refine firstFault_of_argument fits header .zero rfl (Arguments.misreads_locate item rfl (by simp) ?_)
      rintro ⟨fn, same⟩
      rw [Json.string.injEq] at same
      rw [same, Aggregation.ofName?_name] at known
      cases known
    | some fn =>
      rw [known] at failed
      have named : Rule.Valid pos.limit (pos.depth + 1) .aggregation (.string name) :=
        ⟨fn, by rw [Aggregation.ofName?_eq_some_iff.mp known]⟩
      exact text_last fits header (ArgsFollow.zero.succ rfl item named) (by omega) rfl failed

theorem firstFault_of_decodeAt (reach : pos.depth ≤ pos.limit + 1) (failed : decodeAt pos v = .error e) :
    ∃ p, e.path = pos.path ++ p ∧ FirstFault (.node .stage) pos.limit pos.depth v p e := by
  by_cases fits : pos.depth ≤ pos.limit
  swap
  · rw [decodeAt, if_neg fits] at failed
    cases failed
    exact ⟨[], by simp [Position.depthError, DecodeError.ofProblem], FirstFault.depth (by omega) rfl rfl⟩
  rw [decodeAt, if_pos fits] at failed
  cases header : stageTable.readHeader pos v with
  | error err =>
    simp only [header] at failed
    cases failed
    obtain ⟨path, family, nodeFault, unregistered⟩ := VariantTable.readHeader_eq_error header
    exact ⟨[], by simp [path], FirstFault.header fits nodeFault family unregistered⟩
  | ok read =>
    obtain ⟨var, values⟩ := read
    simp only [header] at failed
    exact firstFault_of_build fits header failed

end Stage

/-- The items of a container from index `pre.length` on are nodes of family `G`, decoded in
order: the first fault below the first item that fails is the first fault below the
container, once its header and the items before them pass. -/
theorem FirstFault.ofItems {F G : Family} {β : Type} {decode : Position → Json → Except DecodeError β}
    {pos : Position} (pre : List Json) {items : List Json} {e : DecodeError}
    (fits : pos.depth ≤ pos.limit) (header : F.HeaderOk (.array (pre ++ items)))
    (leading : ∀ j < pre.length, ∀ r w, F.childRule (.array (pre ++ items)) j = some r → pre[j]? = some w →
      r.Valid pos.limit (pos.depth + 1) w)
    (rule : ∀ j, F.childRule (.array (pre ++ items)) (pre.length + j) = some (.node G))
    (sound : ∀ i x y, decode (pos.child i) x = .ok y → G.Encodes pos.limit (pos.depth + 1) x)
    (located : ∀ i x e, decode (pos.child i) x = .error e →
      ∃ p, e.path = (pos.child i).path ++ p ∧ FirstFault (.node G) pos.limit (pos.depth + 1) x p e)
    (failed : decodeItems decode pos pre.length items = .error e) :
    ∃ p, e.path = pos.path ++ p ∧ FirstFault (.node F) pos.limit pos.depth (.array (pre ++ items)) p e := by
  obtain ⟨i, x, item, itemFailed, earlier⟩ := decodeItems_eq_error failed
  obtain ⟨p, path, fault⟩ := located _ x e itemFailed
  refine ⟨(pre.length + i) :: p, by simp [path], FirstFault.argument pre fits header leading ?_ (rule i) item fault⟩
  intro j before r w rule' found
  obtain ⟨x', y, found', decoded⟩ := earlier j before
  rw [rule j, Option.some.injEq] at rule'
  rw [found', Option.some.injEq] at found
  subst rule' found
  exact sound _ _ _ decoded

namespace Pipeline

variable {pos : Position} {v : Json} {e : DecodeError}

theorem firstFault_of_decodeAt (reach : pos.depth ≤ pos.limit + 1) (failed : decodeAt pos v = .error e) :
    ∃ p, e.path = pos.path ++ p ∧ FirstFault (.node .pipeline) pos.limit pos.depth v p e := by
  by_cases fits : pos.depth ≤ pos.limit
  swap
  · rw [decodeAt, if_neg fits] at failed
    cases failed
    exact ⟨[], by simp [Position.depthError, DecodeError.ofProblem], FirstFault.depth (by omega) rfl rfl⟩
  rw [decodeAt, if_pos fits] at failed
  cases opened : openEnvelope .pipeline pipelineKind pos v with
  | error err =>
    simp only [opened] at failed
    cases failed
    obtain ⟨path, family, nodeFault, unopened⟩ := openEnvelope_eq_error opened
    refine ⟨[], by simp [path], FirstFault.header fits nodeFault family ?_⟩
    rintro ⟨name, rest, rfl⟩
    exact unopened ⟨_, rfl⟩
  | ok items =>
    obtain rfl := openEnvelope_eq_ok.mp opened
    simp only [opened] at failed
    rcases items with _ | ⟨first, rest⟩
    · -- a pipeline without a name
      cases failed
      refine ⟨[], by simp, FirstFault.header fits rfl rfl ?_⟩
      rintro ⟨name, rest, shape⟩
      simp at shape
    cases first
    case string name =>
      simp only at failed
      refine @FirstFault.ofItems .pipeline .stage _ _ _ [.string pipelineKind, .string name] _ _ fits ⟨_, _, rfl⟩
        ?_ ?_ ?_ ?_ (Except.map_eq_error_iff.mp failed)
      · intro j small r w rule found
        obtain rfl | rfl : j = 0 ∨ j = 1 := by simp at small; omega
        · simp [Family.childRule] at rule
        · simp [Family.childRule] at rule found
          subst rule found
          exact ⟨name, rfl⟩
      · intro j
        simp [Family.childRule]
        omega
      · intro i x y decoded
        obtain ⟨encoded, fitsBelow⟩ := Stage.decodeAt_eq_ok_iff.mp decoded
        exact ⟨y, encoded, by simpa using fitsBelow⟩
      · intro i x e decodeFailed
        exact Stage.firstFault_of_decodeAt (by simp; omega) decodeFailed
    -- a name that is not a string
    all_goals
      cases failed
      refine ⟨[1], by simp, FirstFault.cons ⟨?_, ?_⟩ rfl rfl (FirstFault.here (Or.inr ⟨rfl, by simp, by simp [Rule.Valid]⟩))⟩
      · rintro f ⟨⟩
        exact ⟨fits, _, _, rfl⟩
      · intro j small r w rule found
        obtain rfl : j = 0 := by omega
        simp [Rule.childRule, Family.childRule] at rule

end Pipeline

namespace Program

variable {pos : Position} {v : Json} {e : DecodeError}

theorem firstFault_of_decodeAt (reach : pos.depth ≤ pos.limit + 1) (failed : decodeAt pos v = .error e) :
    ∃ p, e.path = pos.path ++ p ∧ FirstFault (.node .program) pos.limit pos.depth v p e := by
  by_cases fits : pos.depth ≤ pos.limit
  swap
  · rw [decodeAt, if_neg fits] at failed
    cases failed
    exact ⟨[], by simp [Position.depthError, DecodeError.ofProblem], FirstFault.depth (by omega) rfl rfl⟩
  rw [decodeAt, if_pos fits] at failed
  cases opened : openEnvelope .program programKind pos v with
  | error err =>
    simp only [opened] at failed
    cases failed
    obtain ⟨path, family, nodeFault, unopened⟩ := openEnvelope_eq_error opened
    exact ⟨[], by simp [path], FirstFault.header fits nodeFault family unopened⟩
  | ok items =>
    obtain rfl := openEnvelope_eq_ok.mp opened
    simp only [opened] at failed
    refine @FirstFault.ofItems .program .pipeline _ _ _ [.string programKind] _ _ fits ⟨_, rfl⟩ ?_ ?_ ?_ ?_
      (Except.map_eq_error_iff.mp failed)
    · intro j small r w rule found
      obtain rfl : j = 0 := by simp at small; omega
      simp [Family.childRule] at rule
    · intro j
      simp [Family.childRule]
    · intro i x y decoded
      obtain ⟨encoded, fitsBelow⟩ := Pipeline.decodeAt_eq_ok_iff.mp decoded
      exact ⟨y, encoded, by simpa using fitsBelow⟩
    · intro i x e decodeFailed
      exact Pipeline.firstFault_of_decodeAt (by simp; omega) decodeFailed

end Program

/-- A decoder reports, for every value and limit, the first fault of the value as a node of
family `F`, at the path of the error. -/
def ReportsFirstFault {α : Type} (decode : Nat → Json → Except DecodeError α) (F : Family) : Prop :=
  ∀ m v e, decode m v = .error e → FirstFault (.node F) m 0 v e.path e

theorem ReportsFirstFault.of_decodeAt {α : Type} {decode : Nat → Json → Except DecodeError α}
    {decodeAt : Position → Json → Except DecodeError α} {F : Family}
    (root : ∀ m v, decode m v = decodeAt (Position.root m) v)
    (located : ∀ {pos v e}, pos.depth ≤ pos.limit + 1 → decodeAt pos v = .error e →
      ∃ p, e.path = pos.path ++ p ∧ FirstFault (.node F) pos.limit pos.depth v p e) :
    ReportsFirstFault decode F := by
  intro m v e failed
  rw [root] at failed
  obtain ⟨p, path, fault⟩ := located (by simp [Position.root]) failed
  rw [Position.path_root, List.nil_append] at path
  rw [path]
  exact fault

/-- Every decoding error names the first fault of the value, at its own path: a node of its
family past the limit or with a broken header, or a value of the wrong type, after which
nothing before it on the way was at fault. -/
theorem decode_error_is_first_fault :
    ReportsFirstFault Expression.decode .expression ∧ ReportsFirstFault Stage.decode .stage ∧
      ReportsFirstFault Pipeline.decode .pipeline ∧ ReportsFirstFault Program.decode .program :=
  ⟨.of_decodeAt (fun _ _ => rfl) Expression.firstFault_of_decodeAt,
    .of_decodeAt (fun _ _ => rfl) Stage.firstFault_of_decodeAt,
    .of_decodeAt (fun _ _ => rfl) Pipeline.firstFault_of_decodeAt,
    .of_decodeAt (fun _ _ => rfl) Program.firstFault_of_decodeAt⟩

end BlockCodec
