import BlockCodec.Proofs.Reading

namespace BlockCodec

@[simp] theorem UnaryOp.mem_all (op : UnaryOp) : op ∈ UnaryOp.all := by cases op <;> simp [UnaryOp.all]
@[simp] theorem BinaryOp.mem_all (op : BinaryOp) : op ∈ BinaryOp.all := by cases op <;> simp [BinaryOp.all]
@[simp] theorem TernaryOp.mem_all (op : TernaryOp) : op ∈ TernaryOp.all := by cases op; simp [TernaryOp.all]
@[simp] theorem TypeCheck.mem_all (c : TypeCheck) : c ∈ TypeCheck.all := by cases c <;> simp [TypeCheck.all]
@[simp] theorem Conversion.mem_all (c : Conversion) : c ∈ Conversion.all := by cases c <;> simp [Conversion.all]
@[simp] theorem DatePart.mem_all (p : DatePart) : p ∈ DatePart.all := by cases p <;> simp [DatePart.all]

namespace ExpressionForm

def signature : ExpressionForm → Signature
  | constant => ⟨nullaryKind, "constant", "Constant value", [Param.required "value" .literal]⟩
  | column => ⟨nullaryKind, "column", "Value of a column", [Param.required "name" .text]⟩
  | unary op => ⟨negateKind, op.name, op.description, operandParams⟩
  | binary op => ⟨arithmeticKind, op.name, op.description, pairParams⟩
  | ternary op => ⟨ternaryKind, op.name, op.description, choiceParams⟩
  | typeCheck check => ⟨typecheckKind, check.name, check.description, operandParams⟩
  | convert target => ⟨convertKind, target.name, target.description, operandParams⟩
  | extract part => ⟨datetimeKind, part.name, part.description, operandParams⟩

theorem signature_of_mem {var : Variant ExpressionForm} (member : var ∈ expressionVariants) :
    var.signature = var.form.signature := by
  simp only [expressionVariants, List.mem_append, List.mem_cons, List.mem_map, List.not_mem_nil,
    or_false] at member
  rcases member with ((((((rfl | rfl) | ⟨_, -, rfl⟩) | ⟨_, -, rfl⟩) | ⟨_, -, rfl⟩) | ⟨_, -, rfl⟩) |
    ⟨_, -, rfl⟩) | ⟨_, -, rfl⟩ <;> rfl

/-- Every parameter of an expression form must be given. -/
theorem accepts_signature_iff (f : ExpressionForm) (count : Nat) :
    f.signature.accepts count = true ↔ count = f.signature.params.length := by
  cases f <;> simp [signature, Signature.accepts, Signature.required, Signature.maxArgs, Param.required,
    operandParams, pairParams, choiceParams] <;> omega

end ExpressionForm

theorem expressionTable_keys_nodup : expressionTable.keys.Nodup := by decide

namespace Expression

def form : Expression → ExpressionForm
  | constant _ => .constant
  | column _ => .column
  | unary op _ => .unary op
  | binary op _ _ => .binary op
  | ternary op _ _ _ => .ternary op
  | typeCheck check _ => .typeCheck check
  | convert target _ => .convert target
  | extract part _ => .extract part

/-- The arguments an expression is persisted with, after its kind and name. -/
def args : Expression → List Json
  | constant l => [l.toJson]
  | column n => [.string n]
  | unary _ x | typeCheck _ x | convert _ x | extract _ x => [x.encode]
  | binary _ l r => [l.encode, r.encode]
  | ternary _ c t f => [c.encode, t.encode, f.encode]

theorem encode_eq (e : Expression) : e.encode = .array (.string e.kind :: .string e.name :: e.args) := by
  cases e <;> rfl

theorem mem_expressionVariants (e : Expression) : ⟨e.form.signature, e.form⟩ ∈ expressionVariants := by
  cases e
  case ternary op _ _ _ =>
    cases op
    simp [form, ExpressionForm.signature, expressionVariants, TernaryOp.all]
  all_goals simp [form, ExpressionForm.signature, expressionVariants]

theorem readHeader_encode (pos : Position) (e : Expression) :
    expressionTable.readHeader pos e.encode = .ok (⟨e.form.signature, e.form⟩, e.args) := by
  have kindIs : e.form.signature.kind = e.kind := by cases e <;> rfl
  have nameIs : e.form.signature.name = e.name := by cases e <;> rfl
  rw [VariantTable.readHeader_eq_ok]
  refine ⟨by rw [encode_eq]; simp only [kindIs, nameIs], ?_, ?_, ?_⟩
  · cases e <;> simp [form, ExpressionForm.signature, expressionTable, expressionKinds]
  · exact (VariantTable.find?_eq_some_iff expressionTable_keys_nodup).mpr
      ⟨mem_expressionVariants e, rfl, rfl⟩
  · cases e <;> rfl

/-- The greatest path length of a node array in the expression's persisted form, from its root. -/
def height (e : Expression) : Nat := e.depth - 1

theorem depth_pos (e : Expression) : 0 < e.depth := by
  cases e <;> simp only [depth] <;> omega

theorem height_le_iff {e : Expression} {n : Nat} : e.height ≤ n ↔ ∀ c ∈ e.children, c.height + 1 ≤ n := by
  cases e with
  | constant | column => simp [height, depth, children]
  | unary _ x | typeCheck _ x | convert _ x | extract _ x =>
    have := depth_pos x
    simp only [height, depth, children, List.mem_singleton, forall_eq]
    omega
  | binary _ l r =>
    have := depth_pos l
    have := depth_pos r
    simp only [height, depth, children, List.mem_cons, List.not_mem_nil, forall_eq_or_imp, or_false, forall_eq]
    omega
  | ternary _ c t f =>
    have := depth_pos c
    have := depth_pos t
    have := depth_pos f
    simp only [height, depth, children, List.mem_cons, List.not_mem_nil, forall_eq_or_imp, or_false, forall_eq]
    omega

theorem child_fits {pos : Position} {e c : Expression} (fits : pos.depth + e.height ≤ pos.limit)
    (member : c ∈ e.children) (i : Nat) : (pos.child i).depth + c.height ≤ (pos.child i).limit := by
  have bound := height_le_iff.mp (le_refl e.height) c member
  simp only [Position.depth_child, Position.limit_child]
  omega

theorem fits_of_children {pos : Position} {e : Expression} (fits : pos.depth ≤ pos.limit)
    (children : ∀ c ∈ e.children, pos.depth + 1 + c.height ≤ pos.limit) : pos.depth + e.height ≤ pos.limit := by
  have bound : e.height ≤ pos.limit - pos.depth :=
    height_le_iff.mpr fun c member => by have := children c member; omega
  omega

theorem decodeAt_encode {pos : Position} {e : Expression} (fits : pos.depth + e.height ≤ pos.limit) :
    decodeAt pos e.encode = .ok e := by
  induction e generalizing pos with
  | constant l =>
    rw [decodeAt, dif_pos (by omega), readHeader_encode]
    simp [form, args, Arguments.literal_eq_ok]
  | column n =>
    rw [decodeAt, dif_pos (by omega), readHeader_encode]
    simp [form, args, Arguments.text_eq_ok]
  | unary _ x ih | typeCheck _ x ih | convert _ x ih | extract _ x ih =>
    have operand := ih (child_fits fits (by simp [children]) 2)
    rw [decodeAt, dif_pos (by omega), readHeader_encode]
    simp [form, args, Arguments.get, operand]
  | binary op l r ihl ihr =>
    have left := ihl (child_fits fits (by simp [children]) 2)
    have right := ihr (child_fits fits (by simp [children]) 3)
    rw [decodeAt, dif_pos (by omega), readHeader_encode]
    simp [form, args, Arguments.get, left, right]
  | ternary op c t f ihc iht ihf =>
    have condition := ihc (child_fits fits (by simp [children]) 2)
    have ifTrue := iht (child_fits fits (by simp [children]) 3)
    have ifFalse := ihf (child_fits fits (by simp [children]) 4)
    rw [decodeAt, dif_pos (by omega), readHeader_encode]
    simp [form, args, Arguments.get, condition, ifTrue, ifFalse]

theorem header_of_readHeader {pos : Position} {v : Json} {var : Variant ExpressionForm} {values : List Json}
    (header : expressionTable.readHeader pos v = .ok (var, values)) :
    v = .array (.string var.form.signature.kind :: .string var.form.signature.name :: values) ∧
      var.form.signature.accepts values.length := by
  obtain ⟨rfl, -, found, accepts⟩ := VariantTable.readHeader_eq_ok.mp header
  have signature :=
    ExpressionForm.signature_of_mem ((VariantTable.find?_eq_some_iff expressionTable_keys_nodup).mp found).1
  rw [← signature]
  exact ⟨rfl, accepts⟩

theorem eq_encode_of_decodeAt {pos : Position} {v : Json} {e : Expression} (decoded : decodeAt pos v = .ok e) :
    v = e.encode ∧ pos.depth + e.height ≤ pos.limit := by
  induction pos, v using decodeAt.induct generalizing e with
  | case1 pos v fits failure header =>
    rw [decodeAt, dif_pos fits, header] at decoded
    cases decoded
  | case2 pos v fits var values header form =>
    obtain ⟨rfl, accepts⟩ := header_of_readHeader header
    rw [decodeAt, dif_pos fits, header] at decoded
    simp only [form, ExpressionForm.accepts_signature_iff] at decoded accepts ⊢
    simp only [Except.map_eq_ok_iff, Arguments.literal_eq_ok] at decoded
    obtain ⟨l, read, rfl⟩ := decoded
    obtain ⟨x, rfl⟩ := List.length_eq_one_iff.mp accepts
    simp only [List.getElem?_cons_zero, Option.some.injEq] at read
    subst read
    exact ⟨rfl, by simp [height, depth]; omega⟩
  | case3 pos v fits var values header form =>
    obtain ⟨rfl, accepts⟩ := header_of_readHeader header
    rw [decodeAt, dif_pos fits, header] at decoded
    simp only [form, ExpressionForm.accepts_signature_iff] at decoded accepts ⊢
    obtain ⟨n, read, rfl⟩ := Except.map_eq_ok_iff.mp decoded
    obtain ⟨x, rfl⟩ := List.length_eq_one_iff.mp accepts
    simp only [Arguments.text_eq_ok, List.getElem?_cons_zero, Option.some.injEq] at read
    subst read
    exact ⟨rfl, by simp [height, depth]; omega⟩
  -- the forms of one operand
  | case4 pos v fits var values header op form ih | case7 pos v fits var values header op form ih
  | case8 pos v fits var values header op form ih | case9 pos v fits var values header op form ih =>
    obtain ⟨rfl, accepts⟩ := header_of_readHeader header
    rw [decodeAt, dif_pos fits, header] at decoded
    simp only [form, ExpressionForm.accepts_signature_iff] at decoded accepts ⊢
    obtain ⟨x, read, rfl⟩ := Except.map_eq_ok_iff.mp decoded
    obtain ⟨x0, rfl⟩ := List.length_eq_one_iff.mp accepts
    obtain ⟨rfl, operandFits⟩ := ih 0 x0 (by simpa [Arguments.get] using read)
    exact ⟨rfl, fits_of_children fits (by simpa [children] using operandFits)⟩
  | case5 pos v fits var values header op form ih =>
    obtain ⟨rfl, accepts⟩ := header_of_readHeader header
    rw [decodeAt, dif_pos fits, header] at decoded
    simp only [form, ExpressionForm.accepts_signature_iff] at decoded accepts ⊢
    obtain ⟨l, left, r, right, rfl⟩ := by simpa only [Except.bind_eq_ok_iff, Except.pure_eq_ok_iff] using decoded
    obtain ⟨x0, x1, rfl⟩ := List.length_eq_two.mp accepts
    obtain ⟨rfl, leftFits⟩ := ih 0 x0 (by simpa [Arguments.get] using left)
    obtain ⟨rfl, rightFits⟩ := ih 1 x1 (by simpa [Arguments.get] using right)
    exact ⟨rfl, fits_of_children fits (by simp [children]; exact ⟨leftFits, rightFits⟩)⟩
  | case6 pos v fits var values header op form ih =>
    obtain ⟨rfl, accepts⟩ := header_of_readHeader header
    rw [decodeAt, dif_pos fits, header] at decoded
    simp only [form, ExpressionForm.accepts_signature_iff] at decoded accepts ⊢
    obtain ⟨c, condition, t, ifTrue, f, ifFalse, rfl⟩ := by
      simpa only [Except.bind_eq_ok_iff, Except.pure_eq_ok_iff] using decoded
    obtain ⟨x0, x1, x2, rfl⟩ := List.length_eq_three.mp accepts
    obtain ⟨rfl, conditionFits⟩ := ih 0 x0 (by simpa [Arguments.get] using condition)
    obtain ⟨rfl, ifTrueFits⟩ := ih 1 x1 (by simpa [Arguments.get] using ifTrue)
    obtain ⟨rfl, ifFalseFits⟩ := ih 2 x2 (by simpa [Arguments.get] using ifFalse)
    exact ⟨rfl, fits_of_children fits (by simp [children]; exact ⟨conditionFits, ifTrueFits, ifFalseFits⟩)⟩
  | case10 pos v deep =>
    rw [decodeAt, dif_neg deep] at decoded
    cases decoded

theorem decodeAt_eq_ok_iff {pos : Position} {v : Json} {e : Expression} :
    decodeAt pos v = .ok e ↔ v = e.encode ∧ pos.depth + e.height ≤ pos.limit :=
  ⟨eq_encode_of_decodeAt, fun ⟨encoded, fits⟩ => encoded ▸ decodeAt_encode fits⟩

theorem decodeAt_of_not_fits {pos : Position} {v : Json} (deep : ¬pos.depth ≤ pos.limit)
    (reach : pos.depth ≤ pos.limit + 1) :
    ∃ err, decodeAt pos v = .error err ∧ err.problem = .depthLimit pos.limit ∧ err.path.length = pos.limit + 1 :=
  ⟨pos.depthError .expression, by rw [decodeAt, dif_neg deep], by simp, by simp; omega⟩

/-- Encoding that reaches past the limit fails at a node one level past it. -/
theorem decodeAt_encode_of_deep {pos : Position} {e : Expression} (reach : pos.depth ≤ pos.limit + 1)
    (deep : pos.limit < pos.depth + e.height) :
    ∃ err, decodeAt pos e.encode = .error err ∧ err.problem = .depthLimit pos.limit ∧
      err.path.length = pos.limit + 1 := by
  induction e generalizing pos with
  | constant l => exact decodeAt_of_not_fits (by simp [height, depth] at deep; omega) reach
  | column n => exact decodeAt_of_not_fits (by simp [height, depth] at deep; omega) reach
  | unary _ x ih | typeCheck _ x ih | convert _ x ih | extract _ x ih =>
    by_cases fits : pos.depth ≤ pos.limit
    swap
    · exact decodeAt_of_not_fits fits reach
    have := depth_pos x
    obtain ⟨err, failed, problem, path⟩ :=
      @ih (pos.child 2) (by simp; omega) (by simp only [height, depth] at deep ⊢; simp; omega)
    refine ⟨err, ?_, problem, by simpa using path⟩
    rw [decodeAt, dif_pos fits, readHeader_encode]
    simp [form, args, Arguments.get, failed]
  | binary op l r ihl ihr =>
    by_cases fits : pos.depth ≤ pos.limit
    swap
    · exact decodeAt_of_not_fits fits reach
    have := depth_pos l
    have := depth_pos r
    rw [decodeAt, dif_pos fits, readHeader_encode]
    by_cases leftDeep : pos.limit < pos.depth + 1 + l.height
    · obtain ⟨err, failed, problem, path⟩ := @ihl (pos.child 2) (by simp; omega) (by simp; omega)
      refine ⟨err, ?_, problem, by simpa using path⟩
      simp [form, args, Arguments.get, failed]
    · have left := @decodeAt_encode (pos.child 2) l (by simp; omega)
      obtain ⟨err, failed, problem, path⟩ :=
        @ihr (pos.child 3) (by simp; omega) (by simp only [height, depth] at deep leftDeep ⊢; simp; omega)
      refine ⟨err, ?_, problem, by simpa using path⟩
      simp [form, args, Arguments.get, left, failed]
  | ternary op c t f ihc iht ihf =>
    by_cases fits : pos.depth ≤ pos.limit
    swap
    · exact decodeAt_of_not_fits fits reach
    have := depth_pos c
    have := depth_pos t
    have := depth_pos f
    rw [decodeAt, dif_pos fits, readHeader_encode]
    by_cases conditionDeep : pos.limit < pos.depth + 1 + c.height
    · obtain ⟨err, failed, problem, path⟩ := @ihc (pos.child 2) (by simp; omega) (by simp; omega)
      refine ⟨err, ?_, problem, by simpa using path⟩
      simp [form, args, Arguments.get, failed]
    have condition := @decodeAt_encode (pos.child 2) c (by simp; omega)
    by_cases ifTrueDeep : pos.limit < pos.depth + 1 + t.height
    · obtain ⟨err, failed, problem, path⟩ := @iht (pos.child 3) (by simp; omega) (by simp; omega)
      refine ⟨err, ?_, problem, by simpa using path⟩
      simp [form, args, Arguments.get, condition, failed]
    have ifTrue := @decodeAt_encode (pos.child 3) t (by simp; omega)
    obtain ⟨err, failed, problem, path⟩ :=
      @ihf (pos.child 4) (by simp; omega)
        (by simp only [height, depth] at deep conditionDeep ifTrueDeep ⊢; simp; omega)
    refine ⟨err, ?_, problem, by simpa using path⟩
    simp [form, args, Arguments.get, condition, ifTrue, failed]

end Expression

end BlockCodec
