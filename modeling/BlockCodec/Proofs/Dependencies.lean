import BlockCodec.Container.Pipeline

namespace BlockCodec

open List

theorem appendNew_append (acc xs ys : List String) :
    appendNew acc (xs ++ ys) = appendNew (appendNew acc xs) ys := by
  induction xs generalizing acc with
  | nil => rfl
  | cons x rest ih => exact ih _

theorem appendNew_cons_of_mem {acc rest : List String} {x : String} (seen : x ∈ acc) :
    appendNew acc (x :: rest) = appendNew acc rest := by
  simp [appendNew, seen]

theorem appendNew_cons_of_not_mem {acc rest : List String} {x : String} (fresh : x ∉ acc) :
    appendNew acc (x :: rest) = appendNew (acc ++ [x]) rest := by
  simp [appendNew, fresh]

/-- The fold keeps what it started with and appends the items not in it, each at its first
occurrence. -/
theorem appendNew_eq (acc xs : List String) :
    appendNew acc xs = acc ++ (xs.filter (· ∉ acc)).eraseDups := by
  induction xs generalizing acc with
  | nil => simp [appendNew]
  | cons x rest ih =>
    by_cases seen : x ∈ acc
    · rw [appendNew_cons_of_mem seen, ih, filter_cons_of_neg (by simpa using seen)]
    · rw [appendNew_cons_of_not_mem seen, ih, filter_cons_of_pos (by simpa using seen), eraseDups_cons,
        filter_filter, append_assoc, singleton_append]
      -- after `x`, the items left are those neither in `acc` nor equal to `x`
      have unseen : ∀ y, decide (y ∉ acc ++ [x]) = (!y == x && decide (y ∉ acc)) := by
        intro y
        by_cases same : y = x <;> simp [same, seen]
      simp only [unseen]

theorem mem_appendNew {acc xs : List String} {y : String} : y ∈ appendNew acc xs ↔ y ∈ acc ∨ y ∈ xs := by
  induction xs generalizing acc with
  | nil => simp [appendNew]
  | cons x rest ih =>
    by_cases seen : x ∈ acc
    · rw [appendNew_cons_of_mem seen, ih, mem_cons]
      by_cases same : y = x
      · simp [same, seen]
      · simp [same]
    · rw [appendNew_cons_of_not_mem seen, ih, mem_append, mem_singleton, mem_cons, or_assoc]

theorem nodup_appendNew {acc : List String} (distinct : acc.Nodup) (xs : List String) :
    (appendNew acc xs).Nodup := by
  induction xs generalizing acc with
  | nil => exact distinct
  | cons x rest ih =>
    by_cases seen : x ∈ acc
    · rw [appendNew_cons_of_mem seen]
      exact ih distinct
    · rw [appendNew_cons_of_not_mem seen]
      apply ih
      rw [nodup_append]
      exact ⟨distinct, pairwise_singleton _ x, fun a member b new => by
        rw [mem_singleton.mp new]
        exact fun same => seen (same ▸ member)⟩

/-- The fold keeps items in order of first use. The invariant: the items collected are those of
the part `pre` of the uses read so far, ordered by their first position in all the uses. -/
theorem appendNew_firstUse {pre acc xs : List String} (collected : ∀ y, y ∈ acc ↔ y ∈ pre)
    (ordered : acc.Pairwise fun a b => (pre ++ xs).idxOf a < (pre ++ xs).idxOf b) :
    (appendNew acc xs).Pairwise fun a b => (pre ++ xs).idxOf a < (pre ++ xs).idxOf b := by
  induction xs generalizing pre acc with
  | nil => exact ordered
  | cons x rest ih =>
    have regroup : pre ++ x :: rest = (pre ++ [x]) ++ rest := by simp
    rw [regroup] at ordered ⊢
    by_cases seen : x ∈ acc
    · rw [appendNew_cons_of_mem seen]
      refine ih (fun y => ?_) ordered
      rw [collected, mem_append, mem_singleton]
      constructor
      · exact .inl
      · rintro (old | rfl)
        · exact old
        · exact (collected _).mp seen
    · rw [appendNew_cons_of_not_mem seen]
      refine ih (fun y => by rw [mem_append, mem_append, collected]) ?_
      rw [pairwise_append]
      refine ⟨ordered, pairwise_singleton _ x, fun a member b new => ?_⟩
      -- an item met before `x` has its first use inside `pre`, and `x` has its first at the end of it
      rw [mem_singleton.mp new]
      have earlier : a ∈ pre := (collected a).mp member
      have later : x ∉ pre := fun old => seen ((collected x).mpr old)
      have first : (pre ++ [x]).idxOf x = pre.length := by
        rw [idxOf_append, if_neg later, idxOf_cons_self, Nat.zero_add]
      have atEarlier : (pre ++ [x] ++ rest).idxOf a = pre.idxOf a := by
        rw [idxOf_append, if_pos (mem_append_left _ earlier), idxOf_append, if_pos earlier]
      have atLater : (pre ++ [x] ++ rest).idxOf x = pre.length := by
        rw [idxOf_append, if_pos (mem_append_right _ (mem_singleton_self x)), first]
      rw [atEarlier, atLater]
      exact idxOf_lt_length_of_mem earlier

namespace Pipeline

/-- Adding a stage adds, after the pipeline's dependencies, the tables the stage reads that are
not among them, each once and in the order the stage reads them. -/
theorem dependencies_withStage (p : Pipeline) (s : Stage) :
    (p.withStage s).dependencies = p.dependencies ++ (s.dependencies.filter (· ∉ p.dependencies)).eraseDups := by
  simp only [dependencies, withStage, flatMap_append, flatMap_singleton, appendNew_append]
  exact appendNew_eq _ _

theorem mem_dependencies {p : Pipeline} {table : String} :
    table ∈ p.dependencies ↔ ∃ s ∈ p.stages, ∃ left leftColumn right rightColumn,
      s = .transform (.join left leftColumn right rightColumn) ∧ (table = left ∨ table = right) := by
  rw [dependencies, mem_appendNew, mem_flatMap]
  simp only [not_mem_nil, false_or]
  constructor
  · rintro ⟨s, member, reads⟩
    refine ⟨s, member, ?_⟩
    match s, reads with
    | .transform (.join left leftColumn right rightColumn), reads =>
      exact ⟨left, leftColumn, right, rightColumn, rfl, by simpa [Stage.dependencies, Transform.dependencies] using reads⟩
  · rintro ⟨s, member, left, leftColumn, right, rightColumn, rfl, named⟩
    exact ⟨_, member, by simpa [Stage.dependencies, Transform.dependencies] using named⟩

theorem nodup_dependencies (p : Pipeline) : p.dependencies.Nodup := nodup_appendNew nodup_nil _

theorem dependencies_firstUse (p : Pipeline) :
    p.dependencies.Pairwise fun a b =>
      (p.stages.flatMap Stage.dependencies).idxOf a < (p.stages.flatMap Stage.dependencies).idxOf b :=
  @appendNew_firstUse [] [] _ (fun _ => Iff.rfl) Pairwise.nil

end Pipeline

/-- A pipeline's dependencies grow stage by stage: adding a stage adds its new tables, once each
and in the order it reads them. So every pipeline lists, without repeats, exactly the tables its
joins read, in order of their first use. -/
theorem dependencies_grow_by_first_use :
    (∀ (p : Pipeline) (s : Stage), (p.withStage s).dependencies =
        p.dependencies ++ (s.dependencies.filter (· ∉ p.dependencies)).eraseDups) ∧
    ∀ p : Pipeline, p.dependencies.Nodup ∧
      (∀ table, table ∈ p.dependencies ↔ ∃ s ∈ p.stages, ∃ left leftColumn right rightColumn,
        s = .transform (.join left leftColumn right rightColumn) ∧ (table = left ∨ table = right)) ∧
      p.dependencies.Pairwise fun a b =>
        (p.stages.flatMap Stage.dependencies).idxOf a < (p.stages.flatMap Stage.dependencies).idxOf b :=
  ⟨Pipeline.dependencies_withStage, fun p =>
    ⟨p.nodup_dependencies, fun _ => Pipeline.mem_dependencies, p.dependencies_firstUse⟩⟩

end BlockCodec
