import BlockCodec.Proofs.Reading

namespace BlockCodec

namespace VariantTable

variable {α : Type} {t t' : VariantTable α} {v : Variant α}

/-- The registrations of a history that were accepted, in order. -/
def acceptedOf : List (Variant α) → List (Option RegistryError) → List (Variant α)
  | v :: vs, none :: outcomes => v :: acceptedOf vs outcomes
  | _ :: vs, some _ :: outcomes => acceptedOf vs outcomes
  | _, _ => []

/-- Every registered variant has a declared kind, and no two share a kind and a name. -/
structure WellFormed (t : VariantTable α) : Prop where
  declared : ∀ v ∈ t.entries, v.signature.kind ∈ t.kinds
  distinct : t.keys.Nodup

theorem wellFormed_empty (family : Family) (kinds : List String) :
    (empty family kinds : VariantTable α).WellFormed :=
  ⟨by simp [empty], by simp [empty, keys]⟩

theorem mem_keys_iff {kind name : String} :
    (kind, name) ∈ t.keys ↔ ∃ w ∈ t.entries, w.signature.kind = kind ∧ w.signature.name = name := by
  simp [keys]

theorem contains_iff_mem_keys {kind name : String} : t.contains kind name = true ↔ (kind, name) ∈ t.keys := by
  simp [contains, find?, keys, List.find?_isSome, and_comm]

theorem register_eq (t : VariantTable α) (v : Variant α) :
    t.register v =
      if v.signature.kind ∉ t.kinds then .error (.undeclaredKind t.family v.signature.kind)
      else if (v.signature.kind, v.signature.name) ∈ t.keys then
        .error (.duplicate t.family v.signature.kind v.signature.name)
      else .ok { t with entries := t.entries ++ [v] } := by
  simp only [register, Bool.not_eq_true', List.contains_eq_mem, decide_eq_false_iff_not, ← contains_iff_mem_keys]

theorem register_eq_ok_iff :
    t.register v = .ok t' ↔ v.signature.kind ∈ t.kinds ∧ (v.signature.kind, v.signature.name) ∉ t.keys ∧
      t' = { t with entries := t.entries ++ [v] } := by
  rw [register_eq]
  split_ifs <;> simp_all [eq_comm]

theorem register_eq_undeclared_iff :
    t.register v = .error (.undeclaredKind t.family v.signature.kind) ↔ v.signature.kind ∉ t.kinds := by
  rw [register_eq]
  split_ifs <;> simp_all

theorem WellFormed.register_eq_duplicate_iff (wf : t.WellFormed) :
    t.register v = .error (.duplicate t.family v.signature.kind v.signature.name) ↔
      (v.signature.kind, v.signature.name) ∈ t.keys := by
  rw [register_eq]
  by_cases declared : v.signature.kind ∈ t.kinds
  · by_cases taken : (v.signature.kind, v.signature.name) ∈ t.keys <;> simp [declared, taken]
  · simp only [declared, not_false_eq_true, if_true, Except.error.injEq, reduceCtorEq, false_iff]
    intro taken
    obtain ⟨w, member, same⟩ := mem_keys_iff.mp taken
    exact declared (same.1 ▸ wf.declared w member)

theorem WellFormed.register (wf : t.WellFormed) (accepted : t.register v = .ok t') : t'.WellFormed := by
  obtain ⟨declared, fresh, rfl⟩ := register_eq_ok_iff.mp accepted
  constructor
  · intro w member
    rcases List.mem_append.mp member with old | new
    · exact wf.declared w old
    · rw [List.mem_singleton.mp new]
      exact declared
  · have unseen : ∀ w ∈ t.entries, w.signature.kind = v.signature.kind → w.signature.name ≠ v.signature.name := by
      intro w member sameKind sameName
      exact fresh (mem_keys_iff.mpr ⟨w, member, sameKind, sameName⟩)
    simpa [keys, List.nodup_append] using ⟨wf.distinct, unseen⟩

theorem registerEach_cons_of_ok {rest : List (Variant α)} (accepted : t.register v = .ok t') :
    t.registerEach (v :: rest) = ((t'.registerEach rest).1, none :: (t'.registerEach rest).2) := by
  simp only [registerEach, accepted]

theorem registerEach_cons_of_error {rest : List (Variant α)} {e : RegistryError} (refused : t.register v = .error e) :
    t.registerEach (v :: rest) = ((t.registerEach rest).1, some e :: (t.registerEach rest).2) := by
  simp only [registerEach, refused]

theorem registerEach_append (t : VariantTable α) (vs ws : List (Variant α)) :
    t.registerEach (vs ++ ws) =
      (((t.registerEach vs).1.registerEach ws).1,
        (t.registerEach vs).2 ++ ((t.registerEach vs).1.registerEach ws).2) := by
  induction vs generalizing t with
  | nil => rfl
  | cons v vs ih =>
    cases outcome : t.register v with
    | ok t' => simp only [List.cons_append, registerEach_cons_of_ok outcome, ih]
    | error e => simp only [List.cons_append, registerEach_cons_of_error outcome, ih]

/-- A run of registrations keeps the table's kinds declared and keys distinct, keeps its family
and kinds, gives one outcome per registration, and adds exactly the accepted registrations in
order. -/
theorem registerEach_spec (vs : List (Variant α)) (wf : t.WellFormed) :
    (t.registerEach vs).1.WellFormed ∧ (t.registerEach vs).1.family = t.family ∧
      (t.registerEach vs).1.kinds = t.kinds ∧ (t.registerEach vs).2.length = vs.length ∧
      (t.registerEach vs).1.entries = t.entries ++ acceptedOf vs (t.registerEach vs).2 := by
  induction vs generalizing t with
  | nil => simp [registerEach, acceptedOf, wf]
  | cons v vs ih =>
    cases outcome : t.register v with
    | ok t' =>
      obtain ⟨-, -, rfl⟩ := register_eq_ok_iff.mp outcome
      obtain ⟨wf', family, kinds, length, entries⟩ := ih (wf.register outcome)
      simp only [registerEach_cons_of_ok outcome, acceptedOf, List.length_cons]
      exact ⟨wf', family, kinds, by omega, by simpa using entries⟩
    | error e =>
      obtain ⟨wf', family, kinds, length, entries⟩ := ih wf
      simp only [registerEach_cons_of_error outcome, acceptedOf, List.length_cons]
      exact ⟨wf', family, kinds, by omega, entries⟩

theorem length_acceptedOf {vs : List (Variant α)} {outcomes : List (Option RegistryError)}
    (lengths : outcomes.length = vs.length) : (acceptedOf vs outcomes).length = outcomes.count none := by
  induction vs generalizing outcomes with
  | nil => cases outcomes <;> simp_all [acceptedOf]
  | cons v vs ih =>
    cases outcomes with
    | nil => simp at lengths
    | cons o outcomes => cases o <;> simp_all [acceptedOf]

/-- A chain of registrations that stops at the first refusal succeeds exactly when no
registration of the run is refused, with the table of the run. -/
theorem registerAll_eq_ok_iff {vs : List (Variant α)} :
    t.registerAll vs = .ok t' ↔ (∀ o ∈ (t.registerEach vs).2, o = none) ∧ (t.registerEach vs).1 = t' := by
  induction vs generalizing t with
  | nil => simp [registerAll, registerEach]
  | cons v vs ih =>
    cases outcome : t.register v with
    | ok t'' => simp [registerAll, outcome, registerEach_cons_of_ok outcome, ih]
    | error e => simp [registerAll, outcome, registerEach_cons_of_error outcome]

/-- After any history of registrations into an empty table: the next registration is refused
for an undeclared kind exactly when its kind is undeclared, refused as a duplicate exactly when
an accepted registration took its kind and name, and accepted otherwise; a refusal leaves the
table as it was; the table holds as many variants as registrations were accepted, contains a
kind and name exactly when an accepted registration had them, and finds under them the variant
of that registration, now and after any later registrations; and a chain stopping at the first
refusal builds the same table when nothing is refused. -/
theorem registration_invariant (family : Family) (kinds : List String) (vs : List (Variant α)) :
    let t := ((empty family kinds : VariantTable α).registerEach vs).1
    let outcomes := ((empty family kinds : VariantTable α).registerEach vs).2
    let accepted := acceptedOf vs outcomes
    let registered (kind name : String) : Prop :=
      ∃ w ∈ accepted, w.signature.kind = kind ∧ w.signature.name = name
    (∀ v : Variant α,
      (t.register v = .error (.undeclaredKind family v.signature.kind) ↔ v.signature.kind ∉ kinds) ∧
      (t.register v = .error (.duplicate family v.signature.kind v.signature.name) ↔
        registered v.signature.kind v.signature.name) ∧
      (t.register v = .ok ⟨family, kinds, t.entries ++ [v]⟩ ↔
        v.signature.kind ∈ kinds ∧ ¬registered v.signature.kind v.signature.name) ∧
      (∀ e, t.register v = .error e → ((empty family kinds).registerEach (vs ++ [v])).1 = t)) ∧
    t.size = outcomes.count none ∧
    (∀ kind name, t.contains kind name = true ↔ registered kind name) ∧
    (∀ w ∈ accepted, ∀ ws, ((empty family kinds : VariantTable α).registerEach (vs ++ ws)).1.find?
      w.signature.kind w.signature.name = some w) ∧
    (∀ t', (empty family kinds).registerAll vs = .ok t' ↔ (∀ o ∈ outcomes, o = none) ∧ t = t') := by
  intro t outcomes accepted registered
  have facts : t.WellFormed ∧ t.family = family ∧ t.kinds = kinds ∧ outcomes.length = vs.length ∧
      t.entries = accepted :=
    registerEach_spec vs (wellFormed_empty family kinds)
  obtain ⟨wf, sameFamily, sameKinds, lengths, entries⟩ := facts
  have taken : ∀ kind name, (kind, name) ∈ t.keys ↔ registered kind name := by
    intro kind name
    rw [mem_keys_iff, entries]
  refine ⟨fun v => ⟨?_, ?_, ?_, ?_⟩, ?_, ?_, ?_, fun t' => registerAll_eq_ok_iff⟩
  · rw [← sameFamily, ← sameKinds]
    exact register_eq_undeclared_iff
  · rw [← sameFamily, wf.register_eq_duplicate_iff, taken]
  · rw [register_eq_ok_iff, taken, sameKinds, sameFamily]
    simp
  · intro e refused
    rw [registerEach_append, registerEach_cons_of_error refused]
    rfl
  · rw [size, entries]
    exact length_acceptedOf lengths
  · intro kind name
    rw [contains_iff_mem_keys, taken]
  · -- later registrations only append, so the variant found stays the one found now
    intro w member ws
    obtain ⟨wf', -, -, -, entries'⟩ := registerEach_spec ws wf
    rw [registerEach_append]
    apply (find?_eq_some_iff wf'.distinct).mpr
    refine ⟨?_, rfl, rfl⟩
    rw [entries', entries]
    exact List.mem_append_left _ member

end VariantTable

end BlockCodec
