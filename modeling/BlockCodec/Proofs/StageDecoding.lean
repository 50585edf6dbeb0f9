import BlockCodec.Proofs.ExpressionDecoding

namespace BlockCodec

theorem Aggregation.ofName?_eq_some_iff {name : String} {fn : Aggregation} :
    Aggregation.ofName? name = some fn ↔ fn.name = name := by
  constructor
  · intro found
    simpa using List.find?_some found
  · rintro rfl
    cases fn <;> rfl

theorem Aggregation.ofName?_name (fn : Aggregation) : Aggregation.ofName? fn.name = some fn :=
  Aggregation.ofName?_eq_some_iff.mpr rfl

namespace StageForm

def signature : StageForm → Signature
  | drop => ⟨transformKind, "drop", "Remove columns", columnsParams⟩
  | filter => ⟨transformKind, "filter", "Keep rows matching a condition",
      [Param.required "condition" (.node .expression)]⟩
  | groupBy => ⟨transformKind, "groupBy", "Group rows by column values", columnsParams⟩
  | join => ⟨transformKind, "join", "Join two named tables on columns",
      [Param.required "leftName" .text, Param.required "leftCol" .text,
        Param.required "rightName" .text, Param.required "rightCol" .text]⟩
  | mutate => ⟨transformKind, "mutate", "Create or replace a column",
      [Param.required "newName" .text, Param.required "expr" (.node .expression)]⟩
  | notify => ⟨transformKind, "notify", "Publish the table under a label", [Param.required "label" .text]⟩
  | read => ⟨transformKind, "read", "Read a table from a file", [Param.required "path" .text]⟩
  | select => ⟨transformKind, "select", "Keep only some columns", columnsParams⟩
  | sort => ⟨transformKind, "sort", "Sort rows by columns",
      [Param.required "columns" .textList, Param.optionalOf "ascending" .bool]⟩
  | summarize => ⟨transformKind, "summarize", "Summarize a column",
      [Param.required "func" .text, Param.required "column" .text]⟩
  | ungroup => ⟨transformKind, "ungroup", "Remove grouping", []⟩
  | unique => ⟨transformKind, "unique", "Keep rows with unique column values", columnsParams⟩
  | bar => ⟨plotKind, "bar", "Bar chart", axesParams⟩
  | box => ⟨plotKind, "box", "Box-and-whisker plot", axesParams⟩
  | dot => ⟨plotKind, "dot", "Dot plot of one column", [Param.required "xAxis" .text]⟩
  | histogram => ⟨plotKind, "histogram", "Histogram with a fixed bin count",
      [Param.required "column" .text, Param.required "bins" .count]⟩
  | scatter => ⟨plotKind, "scatter", "Scatter plot with optional color",
      [Param.required "xAxis" .text, Param.required "yAxis" .text, Param.optionalOf "color" .text]⟩
  | anova => ⟨statsKind, "ANOVA", "One-way analysis of variance", groupedParams⟩
  | kolmogorovSmirnov => ⟨statsKind, "KolmogorovSmirnov", "Kolmogorov-Smirnov test for normality",
      distributionParams⟩
  | kruskalWallis => ⟨statsKind, "KruskalWallis", "Kruskal-Wallis H test", groupedParams⟩
  | tTestOneSample => ⟨statsKind, "TTestOneSample", "One-sample t test",
      [Param.required "mean" .number, Param.required "significance" .number, Param.required "colName" .text]⟩
  | tTestPaired => ⟨statsKind, "TTestPaired", "Paired two-sided t test",
      [Param.required "significance" .number, Param.required "leftCol" .text, Param.required "rightCol" .text]⟩
  | zTestOneSample => ⟨statsKind, "ZTestOneSample", "One-sample z test", distributionParams⟩

def all : List StageForm :=
  [drop, filter, groupBy, join, mutate, notify, read, select, sort, summarize, ungroup, unique,
   bar, box, dot, histogram, scatter,
   anova, kolmogorovSmirnov, kruskalWallis, tTestOneSample, tTestPaired, zTestOneSample]

theorem stageVariants_eq_map : stageVariants = all.map fun f => ⟨f.signature, f⟩ := rfl

theorem mem_all (f : StageForm) : f ∈ all := by
  cases f <;> simp [all]

theorem signature_of_mem {var : Variant StageForm} (member : var ∈ stageVariants) :
    var.signature = var.form.signature := by
  rw [stageVariants_eq_map, List.mem_map] at member
  obtain ⟨f, -, rfl⟩ := member
  rfl

theorem accepts_iff {f : StageForm} {n : Nat} :
    f.signature.accepts n = true ↔ f.signature.required ≤ n ∧ n ≤ f.signature.params.length := by
  unfold Signature.accepts Signature.maxArgs
  simp

/-- A form whose parameters must all be given takes exactly as many arguments. -/
theorem accepts_iff_of_required {f : StageForm} (required : f.signature.required = f.signature.params.length)
    {n : Nat} : f.signature.accepts n = true ↔ n = f.signature.params.length := by
  rw [accepts_iff, required]
  omega

end StageForm

theorem stageTable_keys_nodup : stageTable.keys.Nodup := by decide

namespace Stage

def form : Stage → StageForm
  | transform t =>
    match t with
    | .drop _ => .drop
    | .filter _ => .filter
    | .groupBy _ => .groupBy
    | .join .. => .join
    | .mutate .. => .mutate
    | .notify _ => .notify
    | .read _ => .read
    | .select _ => .select
    | .sort .. => .sort
    | .summarize .. => .summarize
    | .ungroup => .ungroup
    | .unique _ => .unique
  | plot p =>
    match p with
    | .bar .. => .bar
    | .box .. => .box
    | .dot _ => .dot
    | .histogram .. => .histogram
    | .scatter .. => .scatter
  | stats t =>
    match t with
    | .anova .. => .anova
    | .kolmogorovSmirnov .. => .kolmogorovSmirnov
    | .kruskalWallis .. => .kruskalWallis
    | .tTestOneSample .. => .tTestOneSample
    | .tTestPaired .. => .tTestPaired
    | .zTestOneSample .. => .zTestOneSample

theorem signature_kind (s : Stage) : s.form.signature.kind = s.kind := by
  rcases s with t | t | t <;> cases t <;> rfl

theorem signature_name (s : Stage) : s.form.signature.name = s.name := by
  rcases s with t | t | t <;> cases t <;> rfl

theorem accepts_args (s : Stage) : s.form.signature.accepts s.args.length = true := by
  -- only a sort's direction and a scatter's color may be left out
  rcases s with t | t | t <;> cases t
  case transform.sort asc => cases asc <;> rfl
  case plot.scatter color => cases color <;> rfl
  all_goals rfl

theorem readHeader_encode (pos : Position) (s : Stage) :
    stageTable.readHeader pos s.encode = .ok (⟨s.form.signature, s.form⟩, s.args) := by
  rw [VariantTable.readHeader_eq_ok]
  refine ⟨by simp only [encode, signature_kind, signature_name], ?_, ?_, accepts_args s⟩
  · rw [signature_kind]
    cases s <;> simp [kind, stageTable, stageKinds]
  · have member : (⟨s.form.signature, s.form⟩ : Variant StageForm) ∈ stageVariants := by
      rw [StageForm.stageVariants_eq_map]
      exact List.mem_map_of_mem (StageForm.mem_all s.form)
    exact (VariantTable.find?_eq_some_iff stageTable_keys_nodup).mpr ⟨member, rfl, rfl⟩

theorem signature_of_header {pos : Position} {v : Json} {var : Variant StageForm} {values : List Json}
    (header : stageTable.readHeader pos v = .ok (var, values)) : var.signature = var.form.signature := by
  obtain ⟨-, -, found, -⟩ := VariantTable.readHeader_eq_ok.mp header
  exact StageForm.signature_of_mem ((VariantTable.find?_eq_some_iff stageTable_keys_nodup).mp found).1

theorem header_of_readHeader {pos : Position} {v : Json} {var : Variant StageForm} {values : List Json}
    (header : stageTable.readHeader pos v = .ok (var, values)) :
    v = .array (.string var.form.signature.kind :: .string var.form.signature.name :: values) ∧
      var.form.signature.accepts values.length := by
  obtain ⟨rfl, -, -, accepts⟩ := VariantTable.readHeader_eq_ok.mp header
  rw [← signature_of_header header]
  exact ⟨rfl, accepts⟩

/-- The greatest path length of a node array in the stage's persisted form: one below the
stage for the expression of a filter or a mutation, else none below it. -/
def height : Stage → Nat
  | transform (.filter e) | transform (.mutate _ e) => e.depth
  | _ => 0

theorem height_expression {pos : Position} {i : Nat} {e : Expression} :
    (pos.child i).depth + e.height ≤ (pos.child i).limit ↔ pos.depth + e.depth ≤ pos.limit := by
  have := Expression.depth_pos e
  simp only [Position.depth_child, Position.limit_child, Expression.height]
  omega

theorem build_args {family : Family} {sig : Signature} {offset : Nat} {pos : Position} {s : Stage}
    (fits : pos.depth + s.height ≤ pos.limit) : build ⟨family, sig, s.args, offset, pos⟩ s.form = .ok s := by
  rcases s with t | p | t
  · cases t with
    | drop cs | groupBy cs | select cs | unique cs =>
      simp [form, build, args, Transform.args, Arguments.textList_eq_ok]
    | filter e =>
      have condition : Expression.decodeAt (pos.child offset) e.encode = .ok e :=
        Expression.decodeAt_encode (height_expression.mpr fits)
      simp [form, build, args, Transform.args, Arguments.get, Arguments.childPosition, condition]
    | join lt lc rt rc => simp [form, build, args, Transform.args, Arguments.text_eq_ok]
    | mutate c e =>
      have value : Expression.decodeAt (pos.child (offset + 1)) e.encode = .ok e :=
        Expression.decodeAt_encode (height_expression.mpr fits)
      simp [form, build, args, Transform.args, Arguments.text_eq_ok, Arguments.get, Arguments.childPosition, value]
    | notify l | read l => simp [form, build, args, Transform.args, Arguments.text_eq_ok]
    | sort cs asc =>
      cases asc <;> simp [form, build, args, Transform.args, Arguments.textList_eq_ok, Arguments.optionalBool_eq_ok]
    | summarize fn c =>
      simp [form, build, args, Transform.args, Arguments.text_eq_ok, Aggregation.ofName?_name]
    | ungroup => rfl
  · cases p with
    | bar x y | box x y | dot x => simp [form, build, args, Plot.args, Arguments.text_eq_ok]
    | histogram c bins => simp [form, build, args, Plot.args, Arguments.text_eq_ok, Arguments.count_eq_ok]
    | scatter x y color =>
      cases color <;> simp [form, build, args, Plot.args, Arguments.text_eq_ok, Arguments.optionalText_eq_ok]
  · -- a test reads its numbers, then its columns
    cases t <;> simp [form, build, args, StatTest.args, Arguments.number_eq_ok, Arguments.text_eq_ok]

/-- What a stage is built from: exactly the arguments it is persisted with, and for a filter or
a mutation an expression that fits below the stage. -/
theorem build_eq_ok {a : Arguments} {f : StageForm} {s : Stage} (fits : a.position.depth ≤ a.position.limit)
    (arity : f.signature.accepts a.values.length) (built : build a f = .ok s) :
    s.form = f ∧ a.values = s.args ∧ a.position.depth + s.height ≤ a.position.limit := by
  cases f with
  | drop | groupBy | select | unique =>
    obtain ⟨cs, read, rfl⟩ := Except.map_eq_ok_iff.mp built
    obtain ⟨x, one⟩ := List.length_eq_one_iff.mp ((StageForm.accepts_iff_of_required rfl).mp arity)
    rw [Arguments.textList_eq_ok, one, List.getElem?_cons_zero, Option.some.injEq] at read
    exact ⟨rfl, by rw [one, read]; rfl, fits⟩
  | notify | read | dot =>
    obtain ⟨n, read, rfl⟩ := Except.map_eq_ok_iff.mp built
    obtain ⟨x, one⟩ := List.length_eq_one_iff.mp ((StageForm.accepts_iff_of_required rfl).mp arity)
    rw [Arguments.text_eq_ok, one, List.getElem?_cons_zero, Option.some.injEq] at read
    exact ⟨rfl, by rw [one, read]; rfl, fits⟩
  | bar | box =>
    obtain ⟨x, readX, y, readY, rfl⟩ := by simpa only [build, Except.bind_eq_ok_iff, Except.pure_eq_ok_iff] using built
    obtain ⟨x0, x1, two⟩ := List.length_eq_two.mp ((StageForm.accepts_iff_of_required rfl).mp arity)
    simp only [Arguments.text_eq_ok, two, List.getElem?_cons_zero, List.getElem?_cons_succ, Option.some.injEq]
      at readX readY
    subst readX readY
    exact ⟨rfl, two, fits⟩
  | histogram =>
    obtain ⟨c, readC, bins, readBins, rfl⟩ := by
      simpa only [build, Except.bind_eq_ok_iff, Except.pure_eq_ok_iff] using built
    obtain ⟨x0, x1, two⟩ := List.length_eq_two.mp ((StageForm.accepts_iff_of_required rfl).mp arity)
    simp only [Arguments.text_eq_ok, Arguments.count_eq_ok, two, List.getElem?_cons_zero, List.getElem?_cons_succ,
      Option.some.injEq] at readC readBins
    subst readC readBins
    exact ⟨rfl, two, fits⟩
  | join =>
    obtain ⟨lt, readLt, lc, readLc, rt, readRt, rc, readRc, rfl⟩ := by
      simpa only [build, Except.bind_eq_ok_iff, Except.pure_eq_ok_iff] using built
    obtain ⟨x0, x1, x2, x3, four⟩ := List.length_eq_four.mp ((StageForm.accepts_iff_of_required rfl).mp arity)
    simp only [Arguments.text_eq_ok, four, List.getElem?_cons_zero, List.getElem?_cons_succ, Option.some.injEq]
      at readLt readLc readRt readRc
    subst readLt readLc readRt readRc
    exact ⟨rfl, four, fits⟩
  | anova | kruskalWallis | tTestPaired =>
    obtain ⟨sig, readSig, c0, read0, c1, read1, rfl⟩ := by
      simpa only [build, Except.bind_eq_ok_iff, Except.pure_eq_ok_iff] using built
    obtain ⟨x0, x1, x2, three⟩ := List.length_eq_three.mp ((StageForm.accepts_iff_of_required rfl).mp arity)
    simp only [Arguments.number_eq_ok, Arguments.text_eq_ok, three, List.getElem?_cons_zero,
      List.getElem?_cons_succ, Option.some.injEq] at readSig read0 read1
    subst readSig read0 read1
    exact ⟨rfl, three, fits⟩
  | tTestOneSample =>
    obtain ⟨m, readM, sig, readSig, c, readC, rfl⟩ := by
      simpa only [build, Except.bind_eq_ok_iff, Except.pure_eq_ok_iff] using built
    obtain ⟨x0, x1, x2, three⟩ := List.length_eq_three.mp ((StageForm.accepts_iff_of_required rfl).mp arity)
    simp only [Arguments.number_eq_ok, Arguments.text_eq_ok, three, List.getElem?_cons_zero,
      List.getElem?_cons_succ, Option.some.injEq] at readM readSig readC
    subst readM readSig readC
    exact ⟨rfl, three, fits⟩
  | kolmogorovSmirnov | zTestOneSample =>
    obtain ⟨m, readM, d, readD, sig, readSig, c, readC, rfl⟩ := by
      simpa only [build, Except.bind_eq_ok_iff, Except.pure_eq_ok_iff] using built
    obtain ⟨x0, x1, x2, x3, four⟩ := List.length_eq_four.mp ((StageForm.accepts_iff_of_required rfl).mp arity)
    simp only [Arguments.number_eq_ok, Arguments.text_eq_ok, four, List.getElem?_cons_zero,
      List.getElem?_cons_succ, Option.some.injEq] at readM readD readSig readC
    subst readM readD readSig readC
    exact ⟨rfl, four, fits⟩
  | scatter =>
    obtain ⟨x, readX, y, readY, color, readColor, rfl⟩ := by
      simpa only [build, Except.bind_eq_ok_iff, Except.pure_eq_ok_iff] using built
    have most : a.values.length ≤ 3 := (StageForm.accepts_iff.mp arity).2
    -- the color is the third argument when it is given, and there is none after it
    refine ⟨rfl, List.ext_getElem? fun i => ?_, fits⟩
    rcases i with _ | _ | _ | i
    · simpa [args, Plot.args] using Arguments.text_eq_ok.mp readX
    · simpa [args, Plot.args] using Arguments.text_eq_ok.mp readY
    · simpa [args, Plot.args] using Arguments.optionalText_eq_ok.mp readColor
    · simp [args, Plot.args]
      omega
  | sort =>
    obtain ⟨cs, readCs, asc, readAsc, rfl⟩ := by
      simpa only [build, Except.bind_eq_ok_iff, Except.pure_eq_ok_iff] using built
    have most : a.values.length ≤ 2 := (StageForm.accepts_iff.mp arity).2
    -- the direction is the second argument when it is given, and there is none after it
    refine ⟨rfl, List.ext_getElem? fun i => ?_, fits⟩
    rcases i with _ | _ | i
    · simpa [args, Transform.args] using Arguments.textList_eq_ok.mp readCs
    · simpa [args, Transform.args] using Arguments.optionalBool_eq_ok.mp readAsc
    · simp [args, Transform.args]
      omega
  | summarize =>
    obtain ⟨name, readName, built⟩ := Except.bind_eq_ok_iff.mp built
    -- the first argument must name a summary function
    cases known : Aggregation.ofName? name with
    | none => simp [known] at built
    | some fn =>
      obtain ⟨c, readC, rfl⟩ := by simpa [known] using built
      obtain rfl := Aggregation.ofName?_eq_some_iff.mp known
      obtain ⟨x0, x1, two⟩ := List.length_eq_two.mp ((StageForm.accepts_iff_of_required rfl).mp arity)
      simp only [Arguments.text_eq_ok, two, List.getElem?_cons_zero, List.getElem?_cons_succ, Option.some.injEq]
        at readName readC
      subst readName readC
      exact ⟨rfl, two, fits⟩
  | ungroup =>
    obtain rfl := Except.pure_eq_ok_iff.mp built
    exact ⟨rfl, List.eq_nil_of_length_eq_zero ((StageForm.accepts_iff_of_required rfl).mp arity), fits⟩
  | filter =>
    obtain ⟨x, item, e, decoded, rfl⟩ := by
      simpa only [build, Except.bind_eq_ok_iff, Except.pure_eq_ok_iff] using built
    obtain ⟨rfl, below⟩ := Expression.decodeAt_eq_ok_iff.mp decoded
    obtain ⟨x0, one⟩ := List.length_eq_one_iff.mp ((StageForm.accepts_iff_of_required rfl).mp arity)
    rw [Arguments.get_eq_ok, one, List.getElem?_cons_zero, Option.some.injEq] at item
    subst item
    exact ⟨rfl, one, height_expression.mp below⟩
  | mutate =>
    obtain ⟨c, readC, x, item, e, decoded, rfl⟩ := by
      simpa only [build, Except.bind_eq_ok_iff, Except.pure_eq_ok_iff] using built
    obtain ⟨rfl, below⟩ := Expression.decodeAt_eq_ok_iff.mp decoded
    obtain ⟨x0, x1, two⟩ := List.length_eq_two.mp ((StageForm.accepts_iff_of_required rfl).mp arity)
    simp only [Arguments.text_eq_ok, Arguments.get_eq_ok, two, List.getElem?_cons_zero, List.getElem?_cons_succ,
      Option.some.injEq] at readC item
    subst readC item
    exact ⟨rfl, two, height_expression.mp below⟩

theorem eq_encode_of_decodeAt {pos : Position} {v : Json} {s : Stage} (decoded : decodeAt pos v = .ok s) :
    v = s.encode ∧ pos.depth + s.height ≤ pos.limit := by
  unfold decodeAt at decoded
  split_ifs at decoded with fits
  split at decoded
  · cases decoded
  rename_i var values header
  obtain ⟨rfl, accepts⟩ := header_of_readHeader header
  obtain ⟨form, rfl, fitsBelow⟩ := build_eq_ok fits accepts decoded
  rw [← form]
  exact ⟨by rw [encode, signature_kind, signature_name], fitsBelow⟩

theorem decodeAt_encode {pos : Position} {s : Stage} (fits : pos.depth + s.height ≤ pos.limit) :
    decodeAt pos s.encode = .ok s := by
  rw [decodeAt, if_pos (by omega), readHeader_encode]
  exact build_args fits

/-- Encoding that reaches past the limit fails at a node one level past it: the stage
itself, or the expression of a filter or a mutation. -/
theorem decodeAt_encode_of_deep {pos : Position} {s : Stage} (reach : pos.depth ≤ pos.limit + 1)
    (deep : pos.limit < pos.depth + s.height) :
    ∃ err, decodeAt pos s.encode = .error err ∧ err.problem = .depthLimit pos.limit ∧
      err.path.length = pos.limit + 1 := by
  by_cases fits : pos.depth ≤ pos.limit
  swap
  · exact ⟨pos.depthError .stage, by rw [decodeAt, if_neg fits], by simp, by simp; omega⟩
  rcases s with t | p | t
  · cases t with
    | filter e =>
      have := Expression.depth_pos e
      obtain ⟨err, failed, problem, path⟩ := @Expression.decodeAt_encode_of_deep (pos.child 2) e
        (by simp; omega) (by simp only [height, Expression.height] at deep ⊢; simp; omega)
      refine ⟨err, ?_, problem, by simpa using path⟩
      rw [decodeAt, if_pos fits, readHeader_encode]
      simp [form, build, args, Transform.args, Arguments.get, Arguments.childPosition, failed]
    | mutate c e =>
      have := Expression.depth_pos e
      obtain ⟨err, failed, problem, path⟩ := @Expression.decodeAt_encode_of_deep (pos.child 3) e
        (by simp; omega) (by simp only [height, Expression.height] at deep ⊢; simp; omega)
      refine ⟨err, ?_, problem, by simpa using path⟩
      rw [decodeAt, if_pos fits, readHeader_encode]
      simp [form, build, args, Transform.args, Arguments.text, Arguments.get, Arguments.childPosition, failed]
    | _ => simp [height] at deep; omega
  · simp [height] at deep; omega
  · simp [height] at deep; omega

theorem decodeAt_eq_ok_iff {pos : Position} {v : Json} {s : Stage} :
    decodeAt pos v = .ok s ↔ v = s.encode ∧ pos.depth + s.height ≤ pos.limit :=
  ⟨eq_encode_of_decodeAt, fun ⟨encoded, fits⟩ => encoded ▸ decodeAt_encode fits⟩

end Stage

end BlockCodec
