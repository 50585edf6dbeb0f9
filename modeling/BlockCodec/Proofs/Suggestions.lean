import BlockCodec.Proofs.Listing

namespace BlockCodec

/-- The score of a name against a query, both lowercased, as suggestions rank them. -/
def nameScore (query name : String) : Nat := similarity (Text.lowercase query) (Text.lowercase name)

/-- A name ranks before another in the suggestions: a higher score, or the same score and a
smaller name. -/
def RanksBefore (query a b : String) : Prop :=
  nameScore query b < nameScore query a ∨ (nameScore query a = nameScore query b ∧ a < b)

theorem isInfixOf_iff (small big : List Char) : isInfixOf small big = true ↔ small <:+: big := by
  induction big with
  | nil => simp [isInfixOf, List.isEmpty_iff]
  | cons c rest ih => simp [isInfixOf, ih, List.infix_cons_iff]

theorem similarityTier_of_starts {query candidate : List Char} (starts : query <+: candidate) :
    similarityTier query candidate = 100 := by
  simp [similarityTier, starts]

theorem similarityTier_of_contains {query candidate : List Char} (notStarts : ¬query <+: candidate)
    (contains : query <:+: candidate) : similarityTier query candidate = 50 := by
  simp [similarityTier, notStarts, (isInfixOf_iff _ _).mpr contains]

theorem similarityTier_le_of_absent {query candidate : List Char} (absent : ¬query <:+: candidate) :
    similarityTier query candidate ≤ 30 := by
  have notStarts : ¬query <+: candidate := fun starts => absent starts.isInfix
  unfold similarityTier
  rw [if_neg (by simpa using notStarts), if_neg (by rwa [isInfixOf_iff])]
  split <;> omega

/-- The distinct characters of the query that the candidate shares. -/
def sharedCount (query candidate : String) : Nat :=
  (query.toList.eraseDups.filter fun x => candidate.toList.eraseDups.contains x).length

/-- The length bonus: five less the difference of the byte lengths, when below five. -/
def lengthBonus (query candidate : String) : Nat :=
  let a := query.utf8ByteSize
  let b := candidate.utf8ByteSize
  let diff := if a ≤ b then b - a else a - b
  if diff < 5 then 5 - diff else 0

theorem similarity_eq (query candidate : String) :
    similarity query candidate =
      if similarityTier query.toList candidate.toList = 0 ∧
          sharedCount query candidate * 2 < max query.toList.eraseDups.length candidate.toList.eraseDups.length
      then 0
      else similarityTier query.toList candidate.toList + sharedCount query candidate * 2 + lengthBonus query candidate :=
  rfl

theorem similarity_of_tier_pos {query candidate : String} (tier : 0 < similarityTier query.toList candidate.toList) :
    similarity query candidate =
      similarityTier query.toList candidate.toList + sharedCount query candidate * 2 + lengthBonus query candidate := by
  rw [similarity_eq, if_neg (by omega)]

theorem sharedCount_le (query candidate : String) : sharedCount query candidate ≤ query.toList.eraseDups.length :=
  List.length_filter_le _ _

theorem sharedCount_of_contains {query candidate : String} (contains : query.toList <:+: candidate.toList) :
    sharedCount query candidate = query.toList.eraseDups.length := by
  unfold sharedCount
  rw [List.filter_eq_self.mpr]
  intro x member
  simp only [List.contains_eq_mem, decide_eq_true_eq, List.mem_eraseDups] at member ⊢
  exact contains.subset member

theorem lengthBonus_le (query candidate : String) : lengthBonus query candidate ≤ 5 := by
  unfold lengthBonus
  simp only
  split <;> split <;> omega

theorem lengthBonus_self (query : String) : lengthBonus query query = 5 := by
  simp [lengthBonus]

theorem utf8ByteSize_lt_of_starts {query candidate : String} (starts : query.toList <+: candidate.toList)
    (different : candidate ≠ query) : query.utf8ByteSize < candidate.utf8ByteSize := by
  obtain ⟨rest, joined⟩ := starts
  have split : candidate = query ++ String.ofList rest := by
    apply String.toList_inj.mp
    rw [String.toList_append, String.toList_ofList, joined]
  have nonempty : rest ≠ [] := by
    rintro rfl
    exact different (by rw [split, String.ofList_nil, String.append_empty])
  have positive : (String.ofList rest).utf8ByteSize ≠ 0 := by
    rw [Ne, String.utf8ByteSize_eq_zero_iff, String.ofList_eq_empty_iff]
    exact nonempty
  rw [split, String.utf8ByteSize_append]
  omega

theorem lengthBonus_lt_of_starts {query candidate : String} (starts : query.toList <+: candidate.toList)
    (different : candidate ≠ query) : lengthBonus query candidate < 5 := by
  have longer := utf8ByteSize_lt_of_starts starts different
  unfold lengthBonus
  simp only
  split <;> split <;> omega

theorem similarity_self (query : String) :
    similarity query query = 100 + query.toList.eraseDups.length * 2 + 5 := by
  rw [similarity_of_tier_pos (by rw [similarityTier_of_starts List.prefix_rfl]; decide),
    similarityTier_of_starts List.prefix_rfl, sharedCount_of_contains List.infix_rfl, lengthBonus_self]

theorem similarity_of_starts {query candidate : String} (starts : query.toList <+: candidate.toList) :
    100 + query.toList.eraseDups.length * 2 ≤ similarity query candidate ∧
      similarity query candidate ≤ 100 + query.toList.eraseDups.length * 2 + lengthBonus query candidate := by
  rw [similarity_of_tier_pos (by rw [similarityTier_of_starts starts]; decide), similarityTier_of_starts starts,
    sharedCount_of_contains starts.isInfix]
  omega

theorem similarity_of_contains {query candidate : String} (notStarts : ¬query.toList <+: candidate.toList)
    (contains : query.toList <:+: candidate.toList) :
    50 + query.toList.eraseDups.length * 2 ≤ similarity query candidate ∧
      similarity query candidate ≤ 55 + query.toList.eraseDups.length * 2 := by
  have bonus := lengthBonus_le query candidate
  rw [similarity_of_tier_pos (by rw [similarityTier_of_contains notStarts contains]; decide),
    similarityTier_of_contains notStarts contains, sharedCount_of_contains contains]
  omega

/-- Without the query inside it, a candidate scores at most 35 more than twice the query's
distinct characters: tier 30 at most, and shared characters only of the query. -/
theorem similarity_le_of_absent {query candidate : String} (absent : ¬query.toList <:+: candidate.toList) :
    similarity query candidate ≤ 35 + query.toList.eraseDups.length * 2 := by
  have tier := similarityTier_le_of_absent absent
  have shared := sharedCount_le query candidate
  have bonus := lengthBonus_le query candidate
  rw [similarity_eq]
  split <;> omega

/-- A name equal to the query, after lowercasing, beats every other name that starts with it. -/
theorem nameScore_lt_of_equal {name x y : String} (equal : Text.lowercase x = Text.lowercase name)
    (starts : (Text.lowercase name).toList <+: (Text.lowercase y).toList)
    (different : Text.lowercase y ≠ Text.lowercase name) : nameScore name y < nameScore name x := by
  -- the equal name gets the full length bonus, a longer one at most four
  unfold nameScore
  rw [equal, similarity_self]
  have longer := similarity_of_starts starts
  have bonus := lengthBonus_lt_of_starts starts different
  omega

/-- A name starting with the query beats every name that only contains it. -/
theorem nameScore_lt_of_starts {name x y : String} (starts : (Text.lowercase name).toList <+: (Text.lowercase x).toList)
    (notStarts : ¬(Text.lowercase name).toList <+: (Text.lowercase y).toList)
    (contains : (Text.lowercase name).toList <:+: (Text.lowercase y).toList) : nameScore name y < nameScore name x := by
  unfold nameScore
  have first := (similarity_of_starts starts).1
  have second := (similarity_of_contains notStarts contains).2
  omega

/-- A name containing the query beats every name that does not. -/
theorem nameScore_lt_of_contains {name x y : String}
    (contains : (Text.lowercase name).toList <:+: (Text.lowercase x).toList)
    (absent : ¬(Text.lowercase name).toList <:+: (Text.lowercase y).toList) : nameScore name y < nameScore name x := by
  unfold nameScore
  have inside : 50 + (Text.lowercase name).toList.eraseDups.length * 2 ≤
      similarity (Text.lowercase name) (Text.lowercase x) := by
    by_cases starts : (Text.lowercase name).toList <+: (Text.lowercase x).toList
    · exact Nat.le_trans (by omega) (similarity_of_starts starts).1
    · exact (similarity_of_contains starts contains).1
  have outside := similarity_le_of_absent absent
  omega

def scoredNames (query : String) (names : List String) : List (String × Nat) :=
  names.filterMap fun n => if 0 < nameScore query n then some (n, nameScore query n) else none

def rankLe (a b : String × Nat) : Bool := b.2 < a.2 || (a.2 == b.2 && decide (a.1 ≤ b.1))

theorem similarNames_eq (query : String) (names : List String) :
    similarNames query names = (((scoredNames query names).mergeSort rankLe).take 3).map (·.1) := rfl

theorem mem_scoredNames {query : String} {names : List String} {p : String × Nat} :
    p ∈ scoredNames query names ↔ p.1 ∈ names ∧ 0 < nameScore query p.1 ∧ p.2 = nameScore query p.1 := by
  obtain ⟨n, s⟩ := p
  simp only [scoredNames, List.mem_filterMap, Option.ite_none_right_eq_some, Option.some.injEq, Prod.mk.injEq]
  constructor
  -- the score is named, not substituted: substituting it makes Lean unfold `nameScore`
  · rintro ⟨m, member, positive, rfl, scored⟩
    exact ⟨member, positive, scored.symm⟩
  · rintro ⟨member, positive, scored⟩
    exact ⟨n, member, positive, rfl, scored.symm⟩

theorem map_fst_scoredNames (query : String) (names : List String) :
    (scoredNames query names).map (·.1) = names.filter fun n => 0 < nameScore query n := by
  induction names with
  | nil => rfl
  | cons n rest ih =>
    by_cases positive : 0 < nameScore query n
    · simp [scoredNames, positive, ← ih]
    · simp [scoredNames, positive, ← ih]

theorem pairwise_rankLe (l : List (String × Nat)) : (l.mergeSort rankLe).Pairwise fun a b => rankLe a b := by
  apply List.pairwise_mergeSort
  · intro a b c first second
    simp only [rankLe, Bool.or_eq_true, Bool.and_eq_true, beq_iff_eq, decide_eq_true_eq] at first second ⊢
    rcases first with higher | ⟨same, named⟩ <;> rcases second with higher' | ⟨same', named'⟩
    · exact .inl (Nat.lt_trans higher' higher)
    · exact .inl (same' ▸ higher)
    · exact .inl (same ▸ higher')
    · exact .inr ⟨same.trans same', String.le_trans named named'⟩
  · intro a b
    simp only [rankLe, Bool.or_eq_true, Bool.and_eq_true, beq_iff_eq, decide_eq_true_eq]
    rcases Nat.lt_trichotomy a.2 b.2 with lower | same | higher
    · exact .inr (.inl lower)
    · rcases String.le_total a.1 b.1 with named | named
      · exact .inl (.inr ⟨same, named⟩)
      · exact .inr (.inr ⟨same.symm, named⟩)
    · exact .inl (.inl higher)

section Ranking

variable {query : String} {names : List String}

def ranking (query : String) (names : List String) : List (String × Nat) :=
  (scoredNames query names).mergeSort rankLe

theorem similarNames_eq_ranking (query : String) (names : List String) :
    similarNames query names = ((ranking query names).take 3).map (·.1) := rfl

theorem ranking_perm (query : String) (names : List String) :
    (ranking query names).Perm (scoredNames query names) := List.mergeSort_perm _ _

theorem mem_ranking {p : String × Nat} :
    p ∈ ranking query names ↔ p.1 ∈ names ∧ 0 < nameScore query p.1 ∧ p.2 = nameScore query p.1 :=
  (ranking_perm query names).mem_iff.trans mem_scoredNames

-- Stated for a pair so that no proof has Lean unfold `nameScore` to compare it with a projection.
theorem mem_ranking_pair {x : String} {s : Nat} :
    (x, s) ∈ ranking query names ↔ x ∈ names ∧ 0 < nameScore query x ∧ s = nameScore query x :=
  mem_ranking

theorem nodup_ranking_names (distinct : names.Nodup) : ((ranking query names).map (·.1)).Nodup := by
  rw [((ranking_perm query names).map _).nodup_iff, map_fst_scoredNames]
  exact distinct.filter _

theorem ranksBefore_ranking (distinct : names.Nodup) :
    (ranking query names).Pairwise fun a b => RanksBefore query a.1 b.1 := by
  have distinctNames : ((ranking query names).map (·.1)).Nodup := nodup_ranking_names distinct
  have different := List.pairwise_map.mp (List.nodup_iff_pairwise_ne.mp distinctNames)
  refine ((pairwise_rankLe _).and different).imp_of_mem ?_
  rintro a b memberA memberB ⟨ordered, differentNames⟩
  obtain ⟨-, -, scoreA⟩ := mem_ranking.mp memberA
  obtain ⟨-, -, scoreB⟩ := mem_ranking.mp memberB
  simp only [rankLe, Bool.or_eq_true, Bool.and_eq_true, beq_iff_eq, decide_eq_true_eq] at ordered
  unfold RanksBefore
  rw [← scoreA, ← scoreB]
  rcases ordered with higher | ⟨same, named⟩
  · exact .inl higher
  · exact .inr ⟨same, lt_of_le_of_ne named differentNames⟩

/-- The suggestions for a query among distinct names: at most three distinct names, each a name
that scores, best first with ties in name order, and no name left out ranks before one kept. -/
theorem similarNames_spec (distinct : names.Nodup) :
    (similarNames query names).length ≤ 3 ∧ (similarNames query names).Nodup ∧
      (∀ x ∈ similarNames query names, x ∈ names ∧ 0 < nameScore query x) ∧
      (similarNames query names).Pairwise (RanksBefore query) ∧
      ∀ x ∈ names, 0 < nameScore query x → x ∉ similarNames query names →
        ∀ y ∈ similarNames query names, RanksBefore query y x := by
  have ranked : (ranking query names).Pairwise fun a b => RanksBefore query a.1 b.1 :=
    ranksBefore_ranking distinct
  have distinctNames : ((ranking query names).map (·.1)).Nodup := nodup_ranking_names distinct
  have split := List.take_append_drop 3 (ranking query names)
  rw [similarNames_eq_ranking]
  refine ⟨by simp, distinctNames.sublist ((List.take_sublist 3 _).map _), ?_, ?_, ?_⟩
  · intro x member
    obtain ⟨p, kept, rfl⟩ := List.mem_map.mp member
    obtain ⟨named, positive, -⟩ := mem_ranking.mp (List.mem_of_mem_take kept)
    exact ⟨named, positive⟩
  · exact List.pairwise_map.mpr (ranked.sublist (List.take_sublist 3 _))
  · -- a scoring name not kept lies after the cut, and everything before the cut ranks before it
    intro x named positive left y kept
    obtain ⟨p, keptP, rfl⟩ := List.mem_map.mp kept
    have ranks : (x, nameScore query x) ∈ ranking query names := mem_ranking_pair.mpr ⟨named, positive, rfl⟩
    have dropped : (x, nameScore query x) ∈ (ranking query names).drop 3 := by
      rw [← split] at ranks
      rcases List.mem_append.mp ranks with cut | rest
      · exact absurd (List.mem_map_of_mem cut : x ∈ ((ranking query names).take 3).map (·.1)) left
      · exact rest
    have whole : ((ranking query names).take 3 ++ (ranking query names).drop 3).Pairwise
        fun a b => RanksBefore query a.1 b.1 := by
      rw [split]
      exact ranked
    exact (List.pairwise_append.mp whole).2.2 p keptP (x, nameScore query x) dropped

end Ranking

namespace VariantTable

variable {α : Type} {t : VariantTable α}

theorem mem_namesUnder {kind name : String} : name ∈ t.namesUnder kind ↔ t.contains kind name = true := by
  rw [contains_iff_mem_keys, mem_keys_iff]
  simp only [namesUnder, List.mem_map, List.mem_filter, beq_iff_eq]
  constructor
  · rintro ⟨v, ⟨member, sameKind⟩, sameName⟩
    exact ⟨v, member, sameKind, sameName⟩
  · rintro ⟨v, member, sameKind, sameName⟩
    exact ⟨v, ⟨member, sameKind⟩, sameName⟩

theorem WellFormed.nodup_namesUnder (wf : t.WellFormed) (kind : String) : (t.namesUnder kind).Nodup := by
  have entries : t.entries.Nodup := wf.distinct.of_map _
  refine (entries.filter _).map_on ?_
  intro v memberV w memberW sameName
  have sameKind : v.signature.kind = w.signature.kind := by
    simp only [List.mem_filter, beq_iff_eq] at memberV memberW
    rw [memberV.2, memberW.2]
  exact List.inj_on_of_nodup_map wf.distinct (List.mem_of_mem_filter memberV) (List.mem_of_mem_filter memberW)
    (by rw [sameKind, sameName])

/-- The suggestions for a name among the names registered under a kind: at most three distinct
registered names, each scoring, best first, and no registered name left out ranks before one kept. -/
theorem WellFormed.similarNames_namesUnder (wf : t.WellFormed) (kind name : String) :
    (similarNames name (t.namesUnder kind)).length ≤ 3 ∧ (similarNames name (t.namesUnder kind)).Nodup ∧
      (∀ x ∈ similarNames name (t.namesUnder kind), t.contains kind x = true ∧ 0 < nameScore name x) ∧
      (similarNames name (t.namesUnder kind)).Pairwise (RanksBefore name) ∧
      ∀ x, t.contains kind x = true → 0 < nameScore name x → x ∉ similarNames name (t.namesUnder kind) →
        ∀ y ∈ similarNames name (t.namesUnder kind), RanksBefore name y x := by
  obtain ⟨length, distinct, scoring, ordered, best⟩ := @similarNames_spec name _ (wf.nodup_namesUnder kind)
  refine ⟨length, distinct, fun x kept => ?_, ordered, fun x registered positive left =>
    best x (mem_namesUnder.mpr registered) positive left⟩
  obtain ⟨named, positive⟩ := scoring x kept
  exact ⟨mem_namesUnder.mp named, positive⟩

/-- A declared kind and a string name under which nothing is registered: the header is refused as
an unknown variant, with the suggestions for the name among the names of that kind. -/
theorem readHeader_unknownVariant {pos : Position} {kind name : String} {args : List Json}
    (declared : kind ∈ t.kinds) (unknown : t.contains kind name = false) :
    t.readHeader pos (.array (.string kind :: .string name :: args)) =
      .error ⟨t.family, .unknownVariant kind name (similarNames name (t.namesUnder kind)), some kind, some name,
        pos.path⟩ := by
  have missing : t.find? kind name = none := by
    simpa [contains] using unknown
  simp [readHeader, declared, missing]

end VariantTable

theorem decodeGenericAt_unknownVariant {t : VariantTable (List Reading)} {pos : Position} {kind name : String}
    {args : List Json} (within : pos.depth ≤ pos.limit) (declared : kind ∈ t.kinds)
    (unknown : t.contains kind name = false) :
    decodeGenericAt t pos (.array (.string kind :: .string name :: args)) =
      .error ⟨t.family, .unknownVariant kind name (similarNames name (t.namesUnder kind)), some kind, some name,
        pos.path⟩ := by
  rw [decodeGenericAt, dif_pos within, VariantTable.readHeader_unknownVariant declared unknown]

theorem Expression.decodeAt_unknownVariant {pos : Position} {kind name : String} {args : List Json}
    (within : pos.depth ≤ pos.limit) (declared : kind ∈ expressionTable.kinds)
    (unknown : expressionTable.contains kind name = false) :
    Expression.decodeAt pos (.array (.string kind :: .string name :: args)) =
      .error ⟨.expression, .unknownVariant kind name (similarNames name (expressionTable.namesUnder kind)), some kind,
        some name, pos.path⟩ := by
  rw [Expression.decodeAt, dif_pos within, VariantTable.readHeader_unknownVariant declared unknown]
  rfl

theorem Stage.decodeAt_unknownVariant {pos : Position} {kind name : String} {args : List Json}
    (within : pos.depth ≤ pos.limit) (declared : kind ∈ stageTable.kinds)
    (unknown : stageTable.contains kind name = false) :
    Stage.decodeAt pos (.array (.string kind :: .string name :: args)) =
      .error ⟨.stage, .unknownVariant kind name (similarNames name (stageTable.namesUnder kind)), some kind,
        some name, pos.path⟩ := by
  rw [Stage.decodeAt, if_pos within, VariantTable.readHeader_unknownVariant declared unknown]
  rfl

theorem suggestion_unknownVariant (family : Family) (kind name : String) (similar : List String)
    (found : Option String) (path : List Nat) :
    (⟨family, .unknownVariant kind name similar, some kind, found, path⟩ : DecodeError).suggestion =
      if similar = [] then none else some ("Similar: " ++ ", ".intercalate similar) := by
  cases similar <;> rfl

/-- Decoding a name registered under no variant of a declared kind reports it with the
suggestions for it among the names of that kind, and carries a suggestion exactly when there are
some. The suggestions are at most three distinct names registered under the kind, each scoring,
best first with ties in name order, and no name left out ranks before one kept. The tiers of the
score, on lowercased names, are strict: a name equal to the query beats every other name starting
with it, those beat every name that merely contains it, and those every name that does not. -/
theorem suggestions_rank_best_tier_first :
    (∀ (t : VariantTable (List Reading)) (pos : Position) (kind name : String) (args : List Json),
      pos.depth ≤ pos.limit → kind ∈ t.kinds → t.contains kind name = false →
      ∃ e, decodeGenericAt t pos (.array (.string kind :: .string name :: args)) = .error e ∧
        e.problem = .unknownVariant kind name (similarNames name (t.namesUnder kind)) ∧ e.path = pos.path ∧
        e.suggestion = if similarNames name (t.namesUnder kind) = [] then none
          else some ("Similar: " ++ ", ".intercalate (similarNames name (t.namesUnder kind)))) ∧
    (∀ (pos : Position) (kind name : String) (args : List Json),
      pos.depth ≤ pos.limit → kind ∈ expressionTable.kinds → expressionTable.contains kind name = false →
      ∃ e, Expression.decodeAt pos (.array (.string kind :: .string name :: args)) = .error e ∧
        e.problem = .unknownVariant kind name (similarNames name (expressionTable.namesUnder kind)) ∧
        e.path = pos.path ∧
        e.suggestion = if similarNames name (expressionTable.namesUnder kind) = [] then none
          else some ("Similar: " ++ ", ".intercalate (similarNames name (expressionTable.namesUnder kind)))) ∧
    (∀ (pos : Position) (kind name : String) (args : List Json),
      pos.depth ≤ pos.limit → kind ∈ stageTable.kinds → stageTable.contains kind name = false →
      ∃ e, Stage.decodeAt pos (.array (.string kind :: .string name :: args)) = .error e ∧
        e.problem = .unknownVariant kind name (similarNames name (stageTable.namesUnder kind)) ∧
        e.path = pos.path ∧
        e.suggestion = if similarNames name (stageTable.namesUnder kind) = [] then none
          else some ("Similar: " ++ ", ".intercalate (similarNames name (stageTable.namesUnder kind)))) ∧
    (∀ {α : Type} (t : VariantTable α), t.WellFormed → ∀ kind name : String,
      (similarNames name (t.namesUnder kind)).length ≤ 3 ∧ (similarNames name (t.namesUnder kind)).Nodup ∧
      (∀ x ∈ similarNames name (t.namesUnder kind), t.contains kind x = true ∧ 0 < nameScore name x) ∧
      (similarNames name (t.namesUnder kind)).Pairwise (RanksBefore name) ∧
      ∀ x, t.contains kind x = true → 0 < nameScore name x → x ∉ similarNames name (t.namesUnder kind) →
        ∀ y ∈ similarNames name (t.namesUnder kind), RanksBefore name y x) ∧
    (∀ name x y : String,
      Text.lowercase x = Text.lowercase name → (Text.lowercase name).toList <+: (Text.lowercase y).toList →
        Text.lowercase y ≠ Text.lowercase name → nameScore name y < nameScore name x) ∧
    (∀ name x y : String,
      (Text.lowercase name).toList <+: (Text.lowercase x).toList →
        ¬(Text.lowercase name).toList <+: (Text.lowercase y).toList →
        (Text.lowercase name).toList <:+: (Text.lowercase y).toList → nameScore name y < nameScore name x) ∧
    (∀ name x y : String,
      (Text.lowercase name).toList <:+: (Text.lowercase x).toList →
        ¬(Text.lowercase name).toList <:+: (Text.lowercase y).toList → nameScore name y < nameScore name x) := by
  refine ⟨fun t pos kind name args within declared unknown => ?_, fun pos kind name args within declared unknown => ?_,
    fun pos kind name args within declared unknown => ?_, fun t wf => wf.similarNames_namesUnder,
    fun _ _ _ => nameScore_lt_of_equal, fun _ _ _ => nameScore_lt_of_starts, fun _ _ _ => nameScore_lt_of_contains⟩
  -- every decoder reads the header through the same table lookup
  · exact ⟨_, decodeGenericAt_unknownVariant within declared unknown, rfl, rfl,
      suggestion_unknownVariant _ _ _ _ _ _⟩
  · exact ⟨_, Expression.decodeAt_unknownVariant within declared unknown, rfl, rfl,
      suggestion_unknownVariant _ _ _ _ _ _⟩
  · exact ⟨_, Stage.decodeAt_unknownVariant within declared unknown, rfl, rfl,
      suggestion_unknownVariant _ _ _ _ _ _⟩

/-- Under one kind with the variants `leaf` and `lead`, decoding the unknown name `lea` reports it
with its suggestions, as the expression and stage decoders do for `neg` and `sorted`; for the
query `neg` the name `neg` beats `negate`. -/
theorem suggestions_for_lea_and_neg :
    let t := ((VariantTable.empty .expression ["@leaf"] : VariantTable (List Reading)).registerEach
      [genericVariant .expression "@leaf" "leaf" "" [], genericVariant .expression "@leaf" "lead" "" []]).1
    (Position.root 256).depth ≤ (Position.root 256).limit ∧ "@leaf" ∈ t.kinds ∧ t.contains "@leaf" "lea" = false ∧
      (∃ e, decodeGenericAt t (Position.root 256) (.array [.string "@leaf", .string "lea"]) = .error e ∧
        e.problem = .unknownVariant "@leaf" "lea" (similarNames "lea" (t.namesUnder "@leaf")) ∧
        e.path = (Position.root 256).path ∧
        e.suggestion = if similarNames "lea" (t.namesUnder "@leaf") = [] then none
          else some ("Similar: " ++ ", ".intercalate (similarNames "lea" (t.namesUnder "@leaf")))) ∧
      negateKind ∈ expressionTable.kinds ∧ expressionTable.contains negateKind "neg" = false ∧
      (∃ e, Expression.decode 256 (.array [.string negateKind, .string "neg"]) = .error e ∧
        e.problem = .unknownVariant negateKind "neg" (similarNames "neg" (expressionTable.namesUnder negateKind)) ∧
        e.path = (Position.root 256).path ∧
        e.suggestion = if similarNames "neg" (expressionTable.namesUnder negateKind) = [] then none
          else some ("Similar: " ++ ", ".intercalate (similarNames "neg" (expressionTable.namesUnder negateKind)))) ∧
      transformKind ∈ stageTable.kinds ∧ stageTable.contains transformKind "sorted" = false ∧
      (∃ e, Stage.decode 256 (.array [.string transformKind, .string "sorted"]) = .error e ∧
        e.problem = .unknownVariant transformKind "sorted" (similarNames "sorted" (stageTable.namesUnder transformKind)) ∧
        e.path = (Position.root 256).path ∧
        e.suggestion = if similarNames "sorted" (stageTable.namesUnder transformKind) = [] then none
          else some ("Similar: " ++ ", ".intercalate (similarNames "sorted" (stageTable.namesUnder transformKind)))) ∧
      nameScore "neg" "negate" < nameScore "neg" "neg" := by
  intro t
  have within : (Position.root 256).depth ≤ (Position.root 256).limit := by decide
  have declared : "@leaf" ∈ t.kinds := by decide
  have unknown : t.contains "@leaf" "lea" = false := by decide
  have negation : negateKind ∈ expressionTable.kinds := by decide
  have unknownNegation : expressionTable.contains negateKind "neg" = false := by decide
  have transforms : transformKind ∈ stageTable.kinds := by decide
  have unknownTransform : stageTable.contains transformKind "sorted" = false := by decide
  exact ⟨within, declared, unknown, suggestions_rank_best_tier_first.1 t _ _ _ [] within declared unknown,
    negation, unknownNegation, suggestions_rank_best_tier_first.2.1 _ _ _ [] within negation unknownNegation,
    transforms, unknownTransform, suggestions_rank_best_tier_first.2.2.1 _ _ _ [] within transforms unknownTransform,
    suggestions_rank_best_tier_first.2.2.2.2.1 "neg" "neg" "negate" rfl ⟨['a', 't', 'e'], by decide⟩ (by decide)⟩

end BlockCodec
