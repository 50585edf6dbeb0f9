import BlockCodec.Proofs.Registration
import BlockCodec.Codec.Generic
import Mathlib.Data.String.Basic

namespace BlockCodec

namespace VariantTable

variable {α : Type} {t t' : VariantTable α}

def signatures (t : VariantTable α) : List Signature := t.entries.map (·.signature)

/-- The order of the listing: by the place of the kind among the declared kinds, then by name. -/
def ListedBefore (t : VariantTable α) (a b : Signature) : Prop :=
  t.kindIndex a.kind < t.kindIndex b.kind ∨ (t.kindIndex a.kind = t.kindIndex b.kind ∧ a.name < b.name)

def listingLe (t : VariantTable α) (a b : Signature) : Bool :=
  t.kindIndex a.kind < t.kindIndex b.kind ||
    (t.kindIndex a.kind == t.kindIndex b.kind && decide (a.name ≤ b.name))

theorem variants_eq (t : VariantTable α) : t.variants = t.signatures.mergeSort t.listingLe := rfl

theorem listingLe_iff {a b : Signature} :
    t.listingLe a b = true ↔ t.kindIndex a.kind < t.kindIndex b.kind ∨
      (t.kindIndex a.kind = t.kindIndex b.kind ∧ a.name ≤ b.name) := by
  simp [listingLe]

theorem variants_perm (t : VariantTable α) : t.variants.Perm t.signatures := List.mergeSort_perm _ _

theorem pairwise_listingLe_variants (t : VariantTable α) : t.variants.Pairwise fun a b => t.listingLe a b := by
  apply List.pairwise_mergeSort
  · intro a b c first second
    rw [listingLe_iff] at first second ⊢
    rcases first with earlier | ⟨same, named⟩ <;> rcases second with later | ⟨same', named'⟩
    · exact .inl (Nat.lt_trans earlier later)
    · exact .inl (same' ▸ earlier)
    · exact .inl (same ▸ later)
    · exact .inr ⟨same.trans same', String.le_trans named named'⟩
  · intro a b
    rw [Bool.or_eq_true, listingLe_iff, listingLe_iff]
    rcases Nat.lt_trichotomy (t.kindIndex a.kind) (t.kindIndex b.kind) with earlier | same | later
    · exact .inl (.inl earlier)
    · rcases String.le_total a.name b.name with named | named
      · exact .inl (.inr ⟨same, named⟩)
      · exact .inr (.inr ⟨same.symm, named⟩)
    · exact .inr (.inl later)

theorem kind_eq_of_kindIndex_eq {a b : String} (declaredA : a ∈ t.kinds) (declaredB : b ∈ t.kinds)
    (same : t.kindIndex a = t.kindIndex b) : a = b := by
  have atA := List.getElem_idxOf (List.idxOf_lt_length_of_mem declaredA)
  have atB := List.getElem_idxOf (List.idxOf_lt_length_of_mem declaredB)
  unfold kindIndex at same
  simp only [same] at atA
  exact atA.symm.trans atB

theorem ListedBefore.asymm {a b : Signature} (before : t.ListedBefore a b) : ¬t.ListedBefore b a := by
  rintro (earlier | ⟨same, named⟩) <;> rcases before with earlier' | ⟨same', named'⟩
  · omega
  · omega
  · omega
  · exact String.lt_asymm named named'

theorem WellFormed.declared_of_mem_signatures (wf : t.WellFormed) {s : Signature} (member : s ∈ t.signatures) :
    s.kind ∈ t.kinds := by
  obtain ⟨v, registered, rfl⟩ := List.mem_map.mp member
  exact wf.declared v registered

theorem WellFormed.keys_nodup_signatures (wf : t.WellFormed) :
    (t.signatures.map fun s => (s.kind, s.name)).Nodup := by
  simpa [signatures, keys, Function.comp_def] using wf.distinct

theorem WellFormed.nodup_signatures (wf : t.WellFormed) : t.signatures.Nodup :=
  wf.keys_nodup_signatures.of_map _

/-- On a well-formed table the listing is strictly ordered: kinds by their place among the
declared kinds, names within a kind. -/
theorem WellFormed.listedBefore_variants (wf : t.WellFormed) : t.variants.Pairwise t.ListedBefore := by
  have distinct : (t.variants.map fun s => (s.kind, s.name)).Nodup :=
    ((variants_perm t).map _).nodup_iff.mpr wf.keys_nodup_signatures
  refine ((pairwise_listingLe_variants t).and (List.nodup_iff_pairwise_ne.mp ?_)).imp_of_mem ?_
  · exact (variants_perm t).nodup_iff.mpr wf.nodup_signatures
  · intro a b memberA memberB ⟨ordered, different⟩
    rcases listingLe_iff.mp ordered with earlier | ⟨same, named⟩
    · exact .inl earlier
    · -- one place means one kind, and one kind with one name means one signature
      have declaredA := wf.declared_of_mem_signatures ((variants_perm t).subset memberA)
      have declaredB := wf.declared_of_mem_signatures ((variants_perm t).subset memberB)
      have sameKind := kind_eq_of_kindIndex_eq declaredA declaredB same
      refine .inr ⟨same, lt_of_le_of_ne named fun sameName => ?_⟩
      exact different (List.inj_on_of_nodup_map distinct memberA memberB (by rw [sameKind, sameName]))

/-- Two well-formed tables with the same declared kinds and the same registered signatures list
them the same way, whatever the order of registration. -/
theorem WellFormed.variants_eq_of_perm (wf : t.WellFormed) (wf' : t'.WellFormed) (sameKinds : t.kinds = t'.kinds)
    (same : t.signatures.Perm t'.signatures) : t.variants = t'.variants := by
  have sameOrder : t'.ListedBefore = t.ListedBefore := by
    unfold ListedBefore kindIndex
    rw [sameKinds]
  refine List.Perm.eq_of_pairwise ?_ wf.listedBefore_variants (sameOrder ▸ wf'.listedBefore_variants) ?_
  · intro a b _ _ before after
    exact absurd after before.asymm
  · exact ((variants_perm t).trans same).trans (variants_perm t').symm

theorem member?_ofMembers_second {a b : String} {x y : Json} (before : a < b) :
    (Json.ofMembers [(a, x), (b, y)]).member? b = some y := by
  have notBefore : ¬b < a := String.lt_asymm before
  have different : a ≠ b := String.ne_of_lt before
  simp [Json.ofMembers, Json.insertMember, Json.member?, notBefore, different, Ne.symm different]

theorem catalog_kinds (t : VariantTable α) :
    t.catalog.member? "kinds" = some (.array (t.kinds.map fun k =>
      Json.ofMembers [("kind", .string k), ("variants", .array ((t.variants.filter (·.kind == k)).map signatureEntry))])) :=
  member?_ofMembers_second (by decide)

theorem WellFormed.names_ordered (wf : t.WellFormed) (kind : String) :
    (t.variants.filter (·.kind == kind)).Pairwise (·.name < ·.name) := by
  refine (List.pairwise_filter.mpr (wf.listedBefore_variants.imp fun before kindA kindB => ?_))
  simp only [beq_iff_eq] at kindA kindB
  rcases before with earlier | ⟨-, named⟩
  · rw [kindA, kindB] at earlier
    exact absurd earlier (Nat.lt_irrefl _)
  · exact named

theorem count_filter_kind (l : List Signature) (s : Signature) (k : String) :
    (l.filter (·.kind == k)).count s = if s.kind = k then l.count s else 0 := by
  split
  · exact List.count_filter (by simpa)
  · rename_i other
    exact List.count_eq_zero.mpr fun member => other (by simpa using (List.mem_filter.mp member).2)

theorem count_flatMap_filter_kind (kinds : List String) (l : List Signature) (s : Signature) :
    (kinds.flatMap fun k => l.filter (·.kind == k)).count s = kinds.count s.kind * l.count s := by
  induction kinds with
  | nil => simp
  | cons k rest ih =>
    rw [List.flatMap_cons, List.count_append, ih, count_filter_kind, List.count_cons]
    by_cases same : s.kind = k
    · simp [same, Nat.add_mul, Nat.add_comm]
    · simp [same, Ne.symm same]

theorem length_filter_kind_cons (s : Signature) (rest : List Signature) (k : String) :
    ((s :: rest).filter (·.kind == k)).length = (if s.kind = k then 1 else 0) + (rest.filter (·.kind == k)).length := by
  by_cases same : s.kind = k
  · simp [same, Nat.add_comm]
  · simp [same]

theorem length_flatMap_filter_cons (kinds : List String) (s : Signature) (rest : List Signature) :
    (kinds.flatMap fun k => (s :: rest).filter (·.kind == k)).length =
      kinds.count s.kind + (kinds.flatMap fun k => rest.filter (·.kind == k)).length := by
  induction kinds with
  | nil => simp
  | cons k others ih =>
    rw [List.flatMap_cons, List.flatMap_cons, List.length_append, List.length_append, ih,
      length_filter_kind_cons, List.count_cons]
    by_cases same : s.kind = k
    · simp only [same, if_true, beq_self_eq_true]
      omega
    · simp only [same, if_false, beq_iff_eq, Ne.symm same]
      omega

/-- When every kind is declared, the groups list at least one entry per signature, and exactly
one per signature when no kind is declared twice. -/
theorem length_flatMap_filter_iff (kinds : List String) (l : List Signature) (declared : ∀ s ∈ l, s.kind ∈ kinds) :
    l.length ≤ (kinds.flatMap fun k => l.filter (·.kind == k)).length ∧
      ((kinds.flatMap fun k => l.filter (·.kind == k)).length = l.length ↔ ∀ s ∈ l, kinds.count s.kind = 1) := by
  induction l with
  | nil => simp
  | cons s rest ih =>
    obtain ⟨atLeast, exact⟩ := ih fun r member => declared r (List.mem_cons_of_mem s member)
    have once : 1 ≤ kinds.count s.kind := List.count_pos_iff.mpr (declared s List.mem_cons_self)
    rw [length_flatMap_filter_cons, List.length_cons, List.forall_mem_cons, ← exact]
    constructor
    · omega
    · constructor
      · intro sum
        constructor <;> omega
      · rintro ⟨single, rest⟩
        omega

/-- The catalog lists each registered signature once for each declaration of its kind. -/
theorem WellFormed.count_grouped_by_kind (wf : t.WellFormed) (s : Signature) :
    (t.kinds.flatMap fun k => t.variants.filter (·.kind == k)).count s =
      if s ∈ t.signatures then t.kinds.count s.kind else 0 := by
  rw [count_flatMap_filter_kind, (variants_perm t).count_eq]
  split
  · rw [List.count_eq_one_of_mem wf.nodup_signatures ‹_›, Nat.mul_one]
  · have absent : t.signatures.count s = 0 := List.count_eq_zero_of_not_mem ‹_›
    rw [absent, Nat.mul_zero]

/-- The catalog lists as many variants as the table holds exactly when no kind of a registered
signature is declared twice. -/
theorem WellFormed.length_grouped_by_kind_iff (wf : t.WellFormed) :
    (t.kinds.flatMap fun k => t.variants.filter (·.kind == k)).length = t.size ↔
      ∀ s ∈ t.signatures, t.kinds.count s.kind = 1 := by
  have declared : ∀ s ∈ t.variants, s.kind ∈ t.kinds := fun s member =>
    wf.declared_of_mem_signatures ((variants_perm t).subset member)
  have size : t.size = t.variants.length := by
    rw [(variants_perm t).length_eq, signatures, List.length_map]
    rfl
  rw [size, (length_flatMap_filter_iff t.kinds t.variants declared).2]
  simp only [(variants_perm t).mem_iff]

end VariantTable

/-- The listing of any table built by registrations holds each registered signature once, ordered
by the place of its kind among the declared kinds and then by name, and so does not depend on the
order of registration. The catalog lists, for each entry of the declared kinds in order, exactly
the variants registered under that kind, in name order: each variant is listed as many times as its
kind is declared, and the catalog lists as many variants as the table holds exactly when no kind of
a registered variant is declared twice. -/
theorem listing_and_catalog_by_declared_kind {α : Type} (family : Family) (kinds : List String)
    (vs : List (Variant α)) :
    let t := ((VariantTable.empty family kinds : VariantTable α).registerEach vs).1
    t.variants.Perm t.signatures ∧ t.variants.Pairwise t.ListedBefore ∧
      (∀ ws : List (Variant α), ((VariantTable.empty family kinds).registerEach ws).1.signatures.Perm t.signatures →
        ((VariantTable.empty family kinds).registerEach ws).1.variants = t.variants) ∧
      ∃ groups : List (List Signature), groups.length = kinds.length ∧
        t.catalog.member? "kinds" = some (.array (List.zipWith (fun k g =>
          Json.ofMembers [("kind", .string k), ("variants", .array (g.map VariantTable.signatureEntry))]) kinds groups)) ∧
        (∀ (i : Nat) (k : String) (g : List Signature), kinds[i]? = some k → groups[i]? = some g →
          g.Perm (t.signatures.filter (·.kind == k)) ∧ g.Pairwise (·.name < ·.name)) ∧
        (∀ s, groups.flatten.count s = if s ∈ t.signatures then kinds.count s.kind else 0) ∧
        (groups.flatten.length = t.size ↔ ∀ s ∈ t.signatures, kinds.count s.kind = 1) := by
  intro t
  obtain ⟨wf, -, sameKinds, -, -⟩ := VariantTable.registerEach_spec vs (VariantTable.wellFormed_empty family kinds)
  change t.kinds = kinds at sameKinds
  let groups := kinds.map fun k => t.variants.filter (·.kind == k)
  have flat : groups.flatten = kinds.flatMap fun k => t.variants.filter (·.kind == k) := by
    simp [groups, List.flatMap]
  refine ⟨VariantTable.variants_perm t, wf.listedBefore_variants, fun ws same => ?_, groups, by simp [groups], ?_,
    ?_, fun s => ?_, ?_⟩
  · obtain ⟨wf', -, sameKinds', -, -⟩ :=
      VariantTable.registerEach_spec ws (VariantTable.wellFormed_empty family kinds)
    exact wf'.variants_eq_of_perm wf (sameKinds'.trans sameKinds.symm) same
  · rw [VariantTable.catalog_kinds, sameKinds, List.zipWith_map_right, List.zipWith_self]
  · intro i k g declared grouped
    simp only [groups, List.getElem?_map, declared, Option.map_some, Option.some.injEq] at grouped
    subst grouped
    exact ⟨(VariantTable.variants_perm t).filter _, wf.names_ordered k⟩
  · rw [flat, ← sameKinds]
    exact wf.count_grouped_by_kind s
  · rw [flat, ← sameKinds]
    exact wf.length_grouped_by_kind_iff

/-- A kind declared twice is listed twice in the catalog, with the same variant under both: one
registered variant, two catalog entries. -/
theorem catalog_lists_variant_of_twice_declared_kind_twice :
    let t := ((VariantTable.empty .expression ["@a", "@a"]).registerEach
      [genericVariant .expression "@a" "x" "" []]).1
    let entry := Json.ofMembers [("kind", .string "@a"),
      ("variants", .array [VariantTable.signatureEntry ⟨"@a", "x", "", []⟩])]
    t.size = 1 ∧ t.catalog.member? "kinds" = some (.array [entry, entry]) := by
  refine ⟨rfl, ?_⟩
  rw [VariantTable.catalog_kinds]
  simp [VariantTable.variants, VariantTable.registerEach, VariantTable.register, VariantTable.contains,
    VariantTable.find?, VariantTable.empty, genericVariant]

end BlockCodec
