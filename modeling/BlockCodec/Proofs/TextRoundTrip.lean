import BlockCodec.Proofs.TextEquality

namespace BlockCodec

theorem Json.mem_insertMember {key : String} {value : Json} {members : List (String × Json)}
    {m : String × Json} (member : m ∈ insertMember key value members) : m ∈ members ∨ m = (key, value) := by
  induction members with
  | nil => simpa [insertMember] using member
  | cons n rest ih =>
    obtain ⟨k, v⟩ := n
    simp only [insertMember] at member
    split_ifs at member <;> grind

theorem Json.nesting_lt_of_mem {x : Json} {items : List Json} (member : x ∈ items) :
    x.nesting < (array items).nesting := by
  have := itemsNesting_le_iff.mp le_rfl x member
  simp only [nesting]
  omega

namespace JsonReader

def ValueWithinRoom (fuel : Nat) : Prop :=
  ∀ {k c r}, 0 < k → readValue fuel (some k) c = .ok r → readValue fuel none c = .ok r ∧ r.1.nesting < k

def ItemsWithinRoom (fuel : Nat) : Prop :=
  ∀ {k first acc c r}, 0 < k → (∀ x ∈ acc, x.nesting < k) → readItems fuel (some k) first acc c = .ok r →
    readItems fuel none first acc c = .ok r ∧ ∀ x ∈ r.1, x.nesting < k

def MembersWithinRoom (fuel : Nat) : Prop :=
  ∀ {k first acc c r}, 0 < k → (∀ m ∈ acc, m.2.nesting < k) → readMembers fuel (some k) first acc c = .ok r →
    readMembers fuel none first acc c = .ok r ∧ ∀ m ∈ r.1, m.2.nesting < k

def MemberWithinRoom (fuel : Nat) : Prop :=
  ∀ {k acc c r}, 0 < k → (∀ m ∈ acc, m.2.nesting < k) → readMember fuel (some k) acc c = .ok r →
    readMember fuel none acc c = .ok r ∧ ∀ m ∈ r.1, m.2.nesting < k

variable {f : Nat}

theorem valueWithinRoom_succ (items : ItemsWithinRoom f) (members : MembersWithinRoom f) :
    ValueWithinRoom (f + 1) := by
  intro k c r pos h
  rw [readValue] at h ⊢
  generalize skipBlank c.rest c.offset = d at h ⊢
  split at h
  · cases h
  -- a scalar is read alike with any room, and nests no container
  case h_2 | h_3 | h_4 =>
    obtain ⟨_, -, rfl⟩ := Except.map_eq_ok_iff.mp h
    exact ⟨h, by simp [Json.nesting]; omega⟩
  case h_5 | h_6 =>
    obtain ⟨⟨_, _⟩, -, rfl⟩ := Except.map_eq_ok_iff.mp h
    exact ⟨h, by simp [Json.nesting]; omega⟩
  case h_7 =>
    dsimp only at h ⊢
    split_ifs at h with small
    obtain ⟨⟨xs, c'⟩, read, result⟩ := Except.map_eq_ok_iff.mp h
    obtain rfl : (Json.array xs, c') = r := result
    -- the items are read with one container less of room
    obtain ⟨read', inner⟩ := items (by omega) (by simp) read
    have deepest : Json.itemsNesting xs ≤ k - 2 :=
      Json.itemsNesting_le_iff.mpr fun x member => by have := inner x (by simpa using member); omega
    refine ⟨by rw [read']; rfl, ?_⟩
    simp only [Json.nesting]
    omega
  case h_8 =>
    dsimp only at h ⊢
    split_ifs at h with small
    obtain ⟨⟨ms, c'⟩, read, result⟩ := Except.map_eq_ok_iff.mp h
    obtain rfl : (Json.object ms, c') = r := result
    obtain ⟨read', inner⟩ := members (by omega) (by simp) read
    have deepest : Json.membersNesting ms ≤ k - 2 :=
      Json.membersNesting_le_iff.mpr fun m member => by have := inner m member; omega
    refine ⟨by rw [read']; rfl, ?_⟩
    simp only [Json.nesting]
    omega
  case h_9 =>
    split_ifs at h ⊢
    obtain ⟨⟨_, _⟩, -, rfl⟩ := Except.map_eq_ok_iff.mp h
    exact ⟨h, by simp [Json.nesting]; omega⟩

theorem itemsWithinRoom_succ (value : ValueWithinRoom f) (items : ItemsWithinRoom f) :
    ItemsWithinRoom (f + 1) := by
  intro k first acc c r pos fits h
  rw [readItems] at h ⊢
  generalize skipBlank c.rest c.offset = d at h ⊢
  split at h
  · cases h
  · cases h
    exact ⟨rfl, by simpa using fits⟩
  -- an item, first or after a comma: read with the same room, then the items after it
  · split_ifs at h ⊢
    · split at h
      · rename_i v c' read
        obtain ⟨read', fitsV⟩ := value pos read
        rw [read']
        exact items pos (List.forall_mem_cons.mpr ⟨fitsV, fits⟩) h
      · cases h
    · dsimp only at h ⊢
      generalize skipBlank _ (d.offset + 1) = e at h ⊢
      split at h
      · cases h
      · cases h
      · split at h
        · rename_i v c' read
          obtain ⟨read', fitsV⟩ := value pos read
          rw [read']
          exact items pos (List.forall_mem_cons.mpr ⟨fitsV, fits⟩) h
        · cases h
  · split_ifs at h ⊢
    split at h
    · rename_i v c' read
      obtain ⟨read', fitsV⟩ := value pos read
      rw [read']
      exact items pos (List.forall_mem_cons.mpr ⟨fitsV, fits⟩) h
    · cases h

theorem membersWithinRoom_succ (member : MemberWithinRoom f) : MembersWithinRoom (f + 1) := by
  intro k first acc c r pos fits h
  rw [readMembers] at h ⊢
  generalize skipBlank c.rest c.offset = d at h ⊢
  split at h
  · cases h
  · cases h
    exact ⟨rfl, fits⟩
  · split_ifs at h ⊢
    dsimp only at h ⊢
    generalize skipBlank _ (d.offset + 1) = e at h ⊢
    split at h
    · cases h
    · cases h
    · exact member pos fits h
    · cases h
  · split_ifs at h ⊢
    exact member pos fits h
  · split_ifs at h

theorem memberWithinRoom_succ (value : ValueWithinRoom f) (members : MembersWithinRoom f) :
    MemberWithinRoom (f + 1) := by
  intro k acc c r pos fits h
  rw [readMember] at h ⊢
  split at h
  · cases h
  · dsimp only at h ⊢
    generalize skipBlank _ _ = e at h ⊢
    split at h
    · cases h
    · split at h
      · rename_i key _ _ _ v c' read
        obtain ⟨read', fitsV⟩ := value pos read
        rw [read']
        -- the member read replaces any earlier one with its key
        refine members pos (fun m mem => ?_) h
        rcases Json.mem_insertMember mem with earlier | rfl
        · exact fits m earlier
        · exact fitsV
      · cases h
    · cases h

/-- Every reader, with any fuel, reads within room. -/
theorem reads_within_room (fuel : Nat) :
    ValueWithinRoom fuel ∧ ItemsWithinRoom fuel ∧ MembersWithinRoom fuel ∧ MemberWithinRoom fuel := by
  induction fuel with
  | zero =>
    refine ⟨fun _ h => ?_, fun _ _ h => ?_, fun _ _ h => ?_, fun _ _ h => ?_⟩ <;> cases h
  | succ f ih =>
    obtain ⟨value, items, members, member⟩ := ih
    exact ⟨valueWithinRoom_succ items members, itemsWithinRoom_succ value items, membersWithinRoom_succ member,
      memberWithinRoom_succ value members⟩

end JsonReader

namespace Json

theorem readPrefix_of_room {k : Nat} (pos : 0 < k) {text : String} {r : Json × Option ReadError}
    (h : readPrefix (some k) text = .ok r) : readPrefix none text = .ok r ∧ r.1.nesting < k := by
  unfold readPrefix JsonReader.readLeading at h ⊢
  dsimp only at h ⊢
  split at h
  · cases h
  · rename_i v c read
    obtain ⟨read', fits⟩ := (JsonReader.reads_within_room _).1 pos read
    rw [read']
    cases h
    exact ⟨rfl, fits⟩

theorem read_of_room {k : Nat} (pos : 0 < k) {text : String} {v : Json} (h : read (some k) text = .ok v) :
    read none text = .ok v ∧ v.nesting < k := by
  unfold read at h ⊢
  split at h
  · rename_i w prefixed
    obtain ⟨prefixed', fits⟩ := readPrefix_of_room pos prefixed
    rw [prefixed']
    cases h
    exact ⟨rfl, fits⟩
  · cases h
  · cases h

/-- Reading the text of a canonical value with room `k` gives the value back exactly when fewer
than `k` containers nest in it, and gives nothing else. -/
theorem read_render_eq_ok_iff (style : TextStyle) {v w : Json} (canonical : v.Canonical) {k : Nat} (pos : 0 < k) :
    read (some k) (render style v) = .ok w ↔ w = v ∧ v.nesting < k := by
  constructor
  · intro h
    obtain ⟨unlimited, fits⟩ := read_of_room pos h
    rw [read_render style canonical none (by simp)] at unlimited
    cases unlimited
    exact ⟨rfl, fits⟩
  · rintro ⟨rfl, fits⟩
    exact read_render style canonical (some k) (by simpa using fits)

theorem parse_compact_eq_ok_iff {v w : Json} (canonical : v.Canonical) :
    parse v.compact = .ok w ↔ w = v ∧ v.nesting < nestingRoom :=
  read_render_eq_ok_iff .compact canonical (by decide)

end Json

theorem Expression.depth_le_nesting (e : Expression) : e.depth ≤ e.encode.nesting := by
  induction e <;> simp [depth, encode, Json.nesting, Json.itemsNesting] <;> omega

theorem Expression.height_lt_nesting (e : Expression) : e.height < e.encode.nesting := by
  have := e.depth_le_nesting
  have := e.depth_pos
  simp only [height]
  omega

theorem Stage.height_lt_nesting (s : Stage) : s.height < s.encode.nesting := by
  unfold height
  split
  -- a filter or a mutation holds its expression one level down
  case h_1 e | h_2 _ e =>
    have := e.depth_le_nesting
    simp [encode, args, Transform.args, Json.nesting, Json.itemsNesting]
    omega
  case h_3 => simp [encode, Json.nesting]

/-- A container whose items each nest deeper than their height nests deeper than one more than
the greatest height among them. -/
theorem Json.foldr_height_lt_nesting {β : Type} {items : List β} {encode : β → Json} {height : β → Nat}
    (head : List Json) (below : ∀ x ∈ items, height x < (encode x).nesting) :
    (items.map fun x => height x + 1).foldr max 0 < (array (head ++ items.map encode)).nesting := by
  have inside : ∀ x ∈ items, height x + 1 ≤ (array (head ++ items.map encode)).nesting - 1 := by
    intro x member
    have := below x member
    have := nesting_lt_of_mem (show encode x ∈ head ++ items.map encode by simp; exact .inr ⟨x, member, rfl⟩)
    omega
  have := foldr_max_le_iff.mpr inside
  have : 0 < (array (head ++ items.map encode)).nesting := by simp [nesting]
  omega

theorem Pipeline.height_lt_nesting (p : Pipeline) : p.height < p.encode.nesting :=
  Json.foldr_height_lt_nesting [.string pipelineKind, .string p.name] fun s _ => s.height_lt_nesting

theorem Program.height_lt_nesting (p : Program) : p.height < p.encode.nesting :=
  Json.foldr_height_lt_nesting [.string programKind] fun q _ => q.height_lt_nesting

section NodeText

variable {α : Type} {family : Family} {decodeAt : Position → Json → Except DecodeError α}
  {encode : α → Json} {height : α → Nat}

/-- The text of a node decodes, with the default limit, to the node exactly when its persisted
form nests fewer containers than the reader's room: that room is below the decoders' limit. -/
theorem decodeText_compact_eq_ok_iff
    (decodes : ∀ {pos : Position} {v : Json} {x : α}, decodeAt pos v = .ok x ↔ v = encode x ∧ pos.depth + height x ≤ pos.limit)
    (canonical : ∀ x, (encode x).Canonical) (below : ∀ x, height x < (encode x).nesting) (x : α) :
    decodeText family (decodeAt (Position.root defaultDepthLimit)) (encode x).compact = .ok x ↔
      (encode x).nesting < Json.nestingRoom := by
  rw [decodeText_eq_ok_iff]
  constructor
  · rintro ⟨v, parsed, -⟩
    exact ((Json.parse_compact_eq_ok_iff (canonical x)).mp parsed).2
  · intro room
    have := below x
    refine ⟨encode x, (Json.parse_compact_eq_ok_iff (canonical x)).mpr ⟨rfl, room⟩, decodes.mpr ⟨rfl, ?_⟩⟩
    simp only [Position.root, defaultDepthLimit, Json.nestingRoom] at room ⊢
    omega

/-- The text of a node whose persisted form nests as deep as the reader's room or deeper is
refused as JSON text, at the root. -/
theorem decodeText_compact_eq_invalidJson (decode : Json → Except DecodeError α)
    (canonical : ∀ x, (encode x).Canonical) {x : α} (deep : Json.nestingRoom ≤ (encode x).nesting) :
    ∃ details, decodeText family decode (encode x).compact =
      .error (DecodeError.ofProblem family (.invalidJson details) []) := by
  unfold decodeText
  split
  · rename_i e _
    exact ⟨e.message, rfl⟩
  · rename_i v parsed
    have := ((Json.parse_compact_eq_ok_iff (canonical x)).mp parsed).2
    omega

end NodeText

/-- The text of a node reads back to the node exactly when its persisted form nests fewer
containers than the text reader lets be open; otherwise it is refused as JSON text at the root. -/
def ReadsBackFromText {α : Type} (family : Family) (decode : Json → Except DecodeError α) (encode : α → Json)
    (toText : α → String) (x : α) : Prop :=
  (decodeText family decode (toText x) = .ok x ↔ (encode x).nesting < Json.nestingRoom) ∧
    (Json.nestingRoom ≤ (encode x).nesting →
      ∃ details, decodeText family decode (toText x) = .error (DecodeError.ofProblem family (.invalidJson details) []))

theorem readsBackFromText_of {α : Type} {family : Family} {decodeAt : Position → Json → Except DecodeError α}
    {encode : α → Json} {height : α → Nat}
    (decodes : ∀ {pos : Position} {v : Json} {x : α}, decodeAt pos v = .ok x ↔ v = encode x ∧ pos.depth + height x ≤ pos.limit)
    (canonical : ∀ x, (encode x).Canonical) (below : ∀ x, height x < (encode x).nesting) (x : α) :
    ReadsBackFromText family (decodeAt (Position.root defaultDepthLimit)) encode (fun x => (encode x).compact) x :=
  ⟨decodeText_compact_eq_ok_iff decodes canonical below x, decodeText_compact_eq_invalidJson _ canonical⟩

theorem node_text_reads_back_within_nesting_room (e : Expression) (s : Stage) (p : Pipeline) (q : Program) :
    ReadsBackFromText .expression (Expression.decode defaultDepthLimit) Expression.encode Expression.toText e ∧
      ReadsBackFromText .stage (Stage.decode defaultDepthLimit) Stage.encode Stage.toText s ∧
      ReadsBackFromText .pipeline (Pipeline.decode defaultDepthLimit) Pipeline.encode Pipeline.toText p ∧
      ReadsBackFromText .program (Program.decode defaultDepthLimit) Program.encode Program.toText q :=
  ⟨readsBackFromText_of Expression.decodeAt_eq_ok_iff Expression.canonical_encode Expression.height_lt_nesting e,
    readsBackFromText_of Stage.decodeAt_eq_ok_iff Stage.canonical_encode Stage.height_lt_nesting s,
    readsBackFromText_of Pipeline.decodeAt_eq_ok_iff Pipeline.canonical_encode Pipeline.height_lt_nesting p,
    readsBackFromText_of Program.decodeAt_eq_ok_iff Program.canonical_encode Program.height_lt_nesting q⟩

/-- Negations stacked on an expression: each adds a node array around its persisted form. -/
theorem Expression.encode_nesting_negations (n : Nat) (e : Expression) :
    ((unary .negate)^[n] e).encode.nesting = n + e.encode.nesting ∧ ((unary .negate)^[n] e).depth = n + e.depth := by
  induction n with
  | zero => simp
  | succ n ih =>
    rw [Function.iterate_succ_apply']
    simp [encode, depth, Json.nesting, Json.itemsNesting, ih]
    omega

/-- The text of 127 negations around a column does not read back, though the expression lies
far inside the decoders' limit: its persisted form nests 128 arrays. -/
theorem deep_negation_text_not_read_back :
    ((Expression.unary .negate)^[127] (.column "x")).height ≤ defaultDepthLimit ∧
      decodeText .expression (Expression.decode defaultDepthLimit) ((Expression.unary .negate)^[127] (.column "x")).toText ≠
        .ok ((Expression.unary .negate)^[127] (.column "x")) := by
  obtain ⟨nests, deep⟩ := Expression.encode_nesting_negations 127 (.column "x")
  refine ⟨?_, fun read => ?_⟩
  · rw [Expression.height, deep]
    decide
  · have room := (decodeText_compact_eq_ok_iff Expression.decodeAt_eq_ok_iff Expression.canonical_encode
      Expression.height_lt_nesting _).mp read
    rw [nests] at room
    exact absurd room (by decide)

end BlockCodec
