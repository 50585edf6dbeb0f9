import BlockCodec.Proofs.StageDecoding

namespace BlockCodec

theorem foldr_max_le_iff {α : Type} {xs : List α} {f : α → Nat} {n : Nat} :
    (xs.map f).foldr max 0 ≤ n ↔ ∀ x ∈ xs, f x ≤ n := by
  induction xs with
  | nil => simp
  | cons x rest ih => simp [ih]

namespace Pipeline

/-- The greatest path length of a node array in the pipeline's persisted form: its stages
lie one level below it. -/
def height (p : Pipeline) : Nat := (p.stages.map fun s => s.height + 1).foldr max 0

theorem height_le_iff {p : Pipeline} {n : Nat} : p.height ≤ n ↔ ∀ s ∈ p.stages, s.height + 1 ≤ n :=
  foldr_max_le_iff

theorem stage_spec {pos : Position} {stages : List Stage} :
    ∀ i x, ∀ s ∈ stages, Stage.decodeAt (pos.child i) x = .ok s ↔ x = s.encode ∧ pos.depth + 1 + s.height ≤ pos.limit := by
  intro i x s _
  simp [Stage.decodeAt_eq_ok_iff]

theorem decodeAt_eq_ok_iff {pos : Position} {v : Json} {p : Pipeline} :
    decodeAt pos v = .ok p ↔ v = p.encode ∧ pos.depth + p.height ≤ pos.limit := by
  constructor
  · intro decoded
    unfold decodeAt at decoded
    split_ifs at decoded with fits
    split at decoded
    · cases decoded
    · cases decoded
    · rename_i name rest opened
      obtain ⟨stages, read, rfl⟩ := Except.map_eq_ok_iff.mp decoded
      obtain ⟨rfl, stagesFit⟩ := (decodeItems_eq_ok_iff stage_spec).mp read
      refine ⟨openEnvelope_eq_ok.mp opened, ?_⟩
      have bound : (Pipeline.mk name stages).height ≤ pos.limit - pos.depth :=
        height_le_iff.mpr fun s member => by have := stagesFit s member; omega
      omega
    · cases decoded
  · rintro ⟨rfl, fits⟩
    have stagesFit := height_le_iff.mp (le_refl p.height)
    have opened : openEnvelope .pipeline pipelineKind pos p.encode = .ok (.string p.name :: p.stages.map Stage.encode) :=
      openEnvelope_eq_ok.mpr rfl
    rw [decodeAt, if_pos (by omega), opened]
    simp only [Except.map_eq_ok_iff]
    exact ⟨p.stages, (decodeItems_eq_ok_iff stage_spec).mpr ⟨rfl, fun s member => by
      have := stagesFit s member; omega⟩, rfl⟩

/-- Encoding that reaches past the limit fails at a node one level past it: the pipeline, or
the first stage that reaches past it. -/
theorem decodeAt_encode_of_deep {pos : Position} {p : Pipeline} (reach : pos.depth ≤ pos.limit + 1)
    (deep : pos.limit < pos.depth + p.height) :
    ∃ err, decodeAt pos p.encode = .error err ∧ err.problem = .depthLimit pos.limit ∧
      err.path.length = pos.limit + 1 := by
  by_cases fits : pos.depth ≤ pos.limit
  swap
  · exact ⟨pos.depthError .pipeline, by rw [decodeAt, if_neg fits], by simp, by simp; omega⟩
  have succeeds : ∀ i, ∀ s ∈ p.stages, pos.depth + 1 + s.height ≤ pos.limit →
      Stage.decodeAt (pos.child i) s.encode = .ok s :=
    fun i s _ stageFits => Stage.decodeAt_encode (by simp; omega)
  have fails : ∀ i, ∀ s ∈ p.stages, ¬pos.depth + 1 + s.height ≤ pos.limit →
      ∃ err, Stage.decodeAt (pos.child i) s.encode = .error err ∧
        (err.problem = .depthLimit pos.limit ∧ err.path.length = pos.limit + 1) := by
    intro i s _ stageDeep
    obtain ⟨err, failed, problem, path⟩ := @Stage.decodeAt_encode_of_deep (pos.child i) s
      (by simp; omega) (by simp; omega)
    exact ⟨err, failed, by simpa using problem, by simpa using path⟩
  have someDeep : ∃ s ∈ p.stages, ¬pos.depth + 1 + s.height ≤ pos.limit := by
    by_contra allFit
    simp only [not_exists, not_and, not_not] at allFit
    have bound : p.height ≤ pos.limit - pos.depth :=
      height_le_iff.mpr fun s member => by have := allFit s member; omega
    omega
  obtain ⟨err, failed, problem, path⟩ : ∃ err,
      decodeItems Stage.decodeAt pos 2 (p.stages.map Stage.encode) = .error err ∧
        (err.problem = .depthLimit pos.limit ∧ err.path.length = pos.limit + 1) :=
    decodeItems_encode_of_deep succeeds fails someDeep
  have opened : openEnvelope .pipeline pipelineKind pos p.encode = .ok (.string p.name :: p.stages.map Stage.encode) :=
    openEnvelope_eq_ok.mpr rfl
  refine ⟨err, ?_, problem, path⟩
  rw [decodeAt, if_pos fits, opened]
  simp [failed]

end Pipeline

namespace Program

/-- The greatest path length of a node array in the program's persisted form: its pipelines
lie one level below it. -/
def height (p : Program) : Nat := (p.pipelines.map fun q => q.height + 1).foldr max 0

theorem height_le_iff {p : Program} {n : Nat} : p.height ≤ n ↔ ∀ q ∈ p.pipelines, q.height + 1 ≤ n :=
  foldr_max_le_iff

theorem pipeline_spec {pos : Position} {pipelines : List Pipeline} :
    ∀ i x, ∀ q ∈ pipelines, Pipeline.decodeAt (pos.child i) x = .ok q ↔
      x = q.encode ∧ pos.depth + 1 + q.height ≤ pos.limit := by
  intro i x q _
  simp [Pipeline.decodeAt_eq_ok_iff]

theorem decodeAt_eq_ok_iff {pos : Position} {v : Json} {p : Program} :
    decodeAt pos v = .ok p ↔ v = p.encode ∧ pos.depth + p.height ≤ pos.limit := by
  constructor
  · intro decoded
    unfold decodeAt at decoded
    split_ifs at decoded with fits
    split at decoded
    · cases decoded
    · rename_i items opened
      obtain ⟨pipelines, read, rfl⟩ := Except.map_eq_ok_iff.mp decoded
      obtain ⟨rfl, pipelinesFit⟩ := (decodeItems_eq_ok_iff pipeline_spec).mp read
      refine ⟨openEnvelope_eq_ok.mp opened, ?_⟩
      have bound : (Program.mk pipelines).height ≤ pos.limit - pos.depth :=
        height_le_iff.mpr fun q member => by have := pipelinesFit q member; omega
      omega
  · rintro ⟨rfl, fits⟩
    have pipelinesFit := height_le_iff.mp (le_refl p.height)
    have opened : openEnvelope .program programKind pos p.encode = .ok (p.pipelines.map Pipeline.encode) :=
      openEnvelope_eq_ok.mpr rfl
    rw [decodeAt, if_pos (by omega), opened]
    simp only [Except.map_eq_ok_iff]
    exact ⟨p.pipelines, (decodeItems_eq_ok_iff pipeline_spec).mpr ⟨rfl, fun q member => by
      have := pipelinesFit q member; omega⟩, rfl⟩

/-- Encoding that reaches past the limit fails at a node one level past it: the program, or
inside the first pipeline that reaches past it. -/
theorem decodeAt_encode_of_deep {pos : Position} {p : Program} (reach : pos.depth ≤ pos.limit + 1)
    (deep : pos.limit < pos.depth + p.height) :
    ∃ err, decodeAt pos p.encode = .error err ∧ err.problem = .depthLimit pos.limit ∧
      err.path.length = pos.limit + 1 := by
  by_cases fits : pos.depth ≤ pos.limit
  swap
  · exact ⟨pos.depthError .program, by rw [decodeAt, if_neg fits], by simp, by simp; omega⟩
  have succeeds : ∀ i, ∀ q ∈ p.pipelines, pos.depth + 1 + q.height ≤ pos.limit →
      Pipeline.decodeAt (pos.child i) q.encode = .ok q :=
    fun i q _ pipelineFits => Pipeline.decodeAt_eq_ok_iff.mpr ⟨rfl, by simp; omega⟩
  have fails : ∀ i, ∀ q ∈ p.pipelines, ¬pos.depth + 1 + q.height ≤ pos.limit →
      ∃ err, Pipeline.decodeAt (pos.child i) q.encode = .error err ∧
        (err.problem = .depthLimit pos.limit ∧ err.path.length = pos.limit + 1) := by
    intro i q _ pipelineDeep
    obtain ⟨err, failed, problem, path⟩ := @Pipeline.decodeAt_encode_of_deep (pos.child i) q
      (by simp; omega) (by simp; omega)
    exact ⟨err, failed, by simpa using problem, by simpa using path⟩
  have someDeep : ∃ q ∈ p.pipelines, ¬pos.depth + 1 + q.height ≤ pos.limit := by
    by_contra allFit
    simp only [not_exists, not_and, not_not] at allFit
    have bound : p.height ≤ pos.limit - pos.depth :=
      height_le_iff.mpr fun q member => by have := allFit q member; omega
    omega
  obtain ⟨err, failed, problem, path⟩ : ∃ err,
      decodeItems Pipeline.decodeAt pos 1 (p.pipelines.map Pipeline.encode) = .error err ∧
        (err.problem = .depthLimit pos.limit ∧ err.path.length = pos.limit + 1) :=
    decodeItems_encode_of_deep succeeds fails someDeep
  have opened : openEnvelope .program programKind pos p.encode = .ok (p.pipelines.map Pipeline.encode) :=
    openEnvelope_eq_ok.mpr rfl
  refine ⟨err, ?_, problem, path⟩
  rw [decodeAt, if_pos fits, opened]
  simp [failed]

end Program

end BlockCodec
