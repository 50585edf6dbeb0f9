import BlockCodec.Proofs.NumberText
import BlockCodec.Proofs.StringText
import Mathlib.Data.String.Basic

namespace BlockCodec

namespace Json

/-- A value whose objects, at every level, hold their members in strictly increasing key
order, as the reader builds them. -/
inductive Canonical : Json → Prop
  | null : Canonical null
  | bool (b : Bool) : Canonical (bool b)
  | number (n : Number) : Canonical (number n)
  | string (s : String) : Canonical (string s)
  | array {items : List Json} (each : ∀ x ∈ items, Canonical x) : Canonical (array items)
  | object {members : List (String × Json)} (sorted : members.Pairwise fun a b => a.1 < b.1)
      (each : ∀ m ∈ members, Canonical m.2) : Canonical (object members)

attribute [simp] Canonical.null Canonical.bool Canonical.number Canonical.string

@[simp] theorem canonical_array {items : List Json} : (array items).Canonical ↔ ∀ x ∈ items, x.Canonical := by
  constructor
  · intro canonical
    cases canonical
    assumption
  · exact .array

mutual

/-- The characters of a value's compact text, by the structure of the value. -/
def chars (style : TextStyle) : Json → List Char
  | null => "null".toList
  | bool b => (if b then "true" else "false").toList
  | number n => n.render.toList
  | string s => (quote style s).toList
  | array items => '[' :: itemsChars style true items ++ [']']
  | object members => '{' :: membersChars style true members ++ ['}']

/-- The characters of array items, each after a comma unless it comes `first`. -/
def itemsChars (style : TextStyle) (first : Bool) : List Json → List Char
  | [] => []
  | x :: rest => (if first then [] else [',']) ++ chars style x ++ itemsChars style false rest

/-- The characters of object members, each after a comma unless it comes `first`. -/
def membersChars (style : TextStyle) (first : Bool) : List (String × Json) → List Char
  | [] => []
  | (k, v) :: rest =>
    (if first then [] else [',']) ++ (quote style k).toList ++ ':' :: chars style v ++
      membersChars style false rest

end

mutual

/-- How many containers are open at once at the deepest point of a value: what a reader
with limited room counts. -/
def nesting : Json → Nat
  | array items => itemsNesting items + 1
  | object members => membersNesting members + 1
  | _ => 0

def itemsNesting : List Json → Nat
  | [] => 0
  | x :: rest => max x.nesting (itemsNesting rest)

def membersNesting : List (String × Json) → Nat
  | [] => 0
  | (_, v) :: rest => max v.nesting (membersNesting rest)

end

theorem itemsNesting_le_iff {items : List Json} {n : Nat} :
    itemsNesting items ≤ n ↔ ∀ x ∈ items, x.nesting ≤ n := by
  induction items with
  | nil => simp [itemsNesting]
  | cons x rest ih => simp [itemsNesting, ih]

theorem membersNesting_le_iff {members : List (String × Json)} {n : Nat} :
    membersNesting members ≤ n ↔ ∀ m ∈ members, m.2.nesting ≤ n := by
  induction members with
  | nil => simp [membersNesting]
  | cons m rest ih =>
    obtain ⟨k, v⟩ := m
    simp [membersNesting, ih]

mutual

theorem toList_renderTo (style : TextStyle) (out : String) :
    (j : Json) → (renderTo style out j).toList = out.toList ++ chars style j
  | null => by simp [renderTo, chars]
  | bool b => by cases b <;> simp [renderTo, chars]
  | number n => by simp [renderTo, chars]
  | string s => by simp [renderTo, chars]
  | array items => by
    rw [renderTo, String.toList_append, toList_renderItemsTo, String.toList_append, chars]
    simp
  | object members => by
    rw [renderTo, String.toList_append, toList_renderMembersTo, String.toList_append, chars]
    simp

theorem toList_renderItemsTo (style : TextStyle) (out : String) :
    (items : List Json) → (renderItemsTo style out items).toList = out.toList ++ itemsChars style true items
  | [] => by simp [renderItemsTo, itemsChars]
  | [j] => by simp [renderItemsTo, itemsChars, toList_renderTo]
  | j :: k :: rest => by
    simp only [renderItemsTo]
    rw [toList_renderItemsTo _ _ (k :: rest), String.toList_append, toList_renderTo]
    simp [itemsChars]

theorem toList_renderMembersTo (style : TextStyle) (out : String) :
    (members : List (String × Json)) →
      (renderMembersTo style out members).toList = out.toList ++ membersChars style true members
  | [] => by simp [renderMembersTo, membersChars]
  | [(k, v)] => by simp [renderMembersTo, membersChars, toList_renderTo]
  | (k, v) :: m :: rest => by
    simp only [renderMembersTo]
    rw [toList_renderMembersTo _ _ (m :: rest), String.toList_append, toList_renderTo]
    obtain ⟨k', v'⟩ := m
    simp [membersChars]

end

/-- The printed text is the structural one. -/
@[simp] theorem toList_render (style : TextStyle) (j : Json) : (render style j).toList = chars style j := by
  simp [render, toList_renderTo]

theorem insertMember_of_lt {key : String} {value : Json} {members : List (String × Json)}
    (below : ∀ m ∈ members, m.1 < key) : insertMember key value members = members ++ [(key, value)] := by
  induction members with
  | nil => rfl
  | cons m rest ih =>
    obtain ⟨k, v⟩ := m
    have lt : k < key := below (k, v) List.mem_cons_self
    rw [insertMember, if_neg (lt_asymm lt), if_neg lt.ne', ih fun m mem => below m (List.mem_cons_of_mem _ mem)]
    rfl

end Json

namespace JsonReader

/-- A value's text starts with a character that is no blank, no comma and no closing bracket. -/
theorem chars_head (style : TextStyle) (v : Json) :
    ∃ h t, Json.chars style v = h :: t ∧ isBlank h = false ∧ h ≠ ']' ∧ h ≠ ',' ∧ h ≠ '}' := by
  have digit_head (h : Char) (digit : isDigit h = true) :
      isBlank h = false ∧ h ≠ ']' ∧ h ≠ ',' ∧ h ≠ '}' := by
    rw [isDigit_eq, isAsciiDigit_iff] at digit
    simp only [isBlank, Bool.or_eq_false_iff, beq_eq_false_iff_ne, ne_eq]
    refine ⟨⟨⟨⟨?_, ?_⟩, ?_⟩, ?_⟩, ?_, ?_, ?_⟩ <;> intro same <;> rw [same] at digit <;> simp at digit
  cases v with
  | null => exact ⟨'n', _, rfl, by decide, by decide, by decide, by decide⟩
  | bool b => cases b <;> exact ⟨_, _, rfl, by decide, by decide, by decide, by decide⟩
  | number n =>
    obtain ⟨negative, body, text, ⟨h, t, rfl, digit⟩, -⟩ := n.render_reads
    cases negative with
    | true => exact ⟨'-', h :: t, by simp [Json.chars, text], by decide, by decide, by decide, by decide⟩
    | false => exact ⟨h, t, by simp [Json.chars, text], digit_head h digit⟩
  | string s =>
    exact ⟨'"', s.toList.flatMap (escapeChar style) ++ ['"'], by simp [Json.chars, toList_quote], by decide,
      by decide, by decide, by decide⟩
  | array items => exact ⟨'[', _, rfl, by decide, by decide, by decide, by decide⟩
  | object members => exact ⟨'\x7b', _, rfl, by decide, by decide, by decide, by decide⟩

theorem skipBlank_of_head {h : Char} (not_blank : isBlank h = false) (t : List Char) (offset : Nat) :
    skipBlank (h :: t) offset = ⟨h :: t, offset⟩ := by
  simp [skipBlank, not_blank]

theorem numberEnd_cons {c : Char} (r : List Char) (stop : c = ',' ∨ c = ']' ∨ c = '}') : NumberEnd (c :: r) := by
  rcases stop with rfl | rfl | rfl <;> simp [NumberEnd] <;> decide

theorem numberEnd_itemsChars (style : TextStyle) (items : List Json) (rest : List Char) :
    NumberEnd (Json.itemsChars style false items ++ ']' :: rest) := by
  cases items with
  | nil => exact numberEnd_cons _ (by simp)
  | cons x xs =>
    simp only [Json.itemsChars, List.append_assoc]
    exact numberEnd_cons _ (by simp)

theorem numberEnd_membersChars (style : TextStyle) (members : List (String × Json)) (rest : List Char) :
    NumberEnd (Json.membersChars style false members ++ '}' :: rest) := by
  cases members with
  | nil => exact numberEnd_cons _ (by simp)
  | cons m ms =>
    obtain ⟨k, v⟩ := m
    simp only [Json.membersChars, List.append_assoc]
    exact numberEnd_cons _ (by simp)

section Steps

variable {fuel : Nat} {room : Option Nat} {offset : Nat}

/-- The first item of an array, at a character that starts a value. -/
theorem readItems_first {acc : List Json} {h : Char} {t : List Char} {v : Json} {c : Cursor}
    (blank : isBlank h = false) (not_close : h ≠ ']') (not_comma : h ≠ ',')
    (value : readValue fuel room ⟨h :: t, offset⟩ = .ok (v, c)) :
    readItems (fuel + 1) room true acc ⟨h :: t, offset⟩ = readItems fuel room false (v :: acc) c := by
  rw [readItems, skipBlank_of_head blank]
  split
  next same => exact absurd same (List.cons_ne_nil _ _)
  next r same => exact absurd (List.cons.inj same).1 not_close
  next r same => exact absurd (List.cons.inj same).1 not_comma
  next => rw [if_pos rfl, value]

theorem readItems_comma {acc : List Json} {h : Char} {t : List Char} {v : Json} {c : Cursor}
    (blank : isBlank h = false) (not_close : h ≠ ']')
    (value : readValue fuel room ⟨h :: t, offset + 1⟩ = .ok (v, c)) :
    readItems (fuel + 1) room false acc ⟨',' :: h :: t, offset⟩ = readItems fuel room false (v :: acc) c := by
  rw [readItems, skipBlank_of_head (by decide)]
  split
  next same => exact absurd same (List.cons_ne_nil _ _)
  next r same => exact absurd (List.cons.inj same).1 (by decide)
  next r same =>
    obtain ⟨-, rfl⟩ := List.cons.inj same
    rw [if_neg Bool.false_ne_true]
    dsimp only
    rw [skipBlank_of_head blank]
    split
    next r' same' => exact absurd (List.cons.inj same').1 not_close
    next same' => exact absurd same' (List.cons_ne_nil _ _)
    next => rw [value]
  next _ _ _ _ no_comma same => exact absurd (List.cons.inj same).1.symm no_comma

/-- The first member of an object, at the quote of its key. -/
theorem readMembers_first {acc : List (String × Json)} {r : List Char} :
    readMembers (fuel + 1) room true acc ⟨'"' :: r, offset⟩ = readMember fuel room acc ⟨r, offset + 1⟩ := by
  rw [readMembers, skipBlank_of_head (by decide)]
  split
  next same => exact absurd same (List.cons_ne_nil _ _)
  next r' same => exact absurd (List.cons.inj same).1 (by decide)
  next r' same => exact absurd (List.cons.inj same).1 (by decide)
  next r' same =>
    obtain ⟨-, rfl⟩ := List.cons.inj same
    rw [if_pos rfl]
  next _ _ _ _ _ no_quote same => exact absurd (List.cons.inj same).1.symm no_quote

theorem readMembers_comma {acc : List (String × Json)} {r : List Char} :
    readMembers (fuel + 1) room false acc ⟨',' :: '"' :: r, offset⟩ = readMember fuel room acc ⟨r, offset + 2⟩ := by
  rw [readMembers, skipBlank_of_head (by decide)]
  split
  next same => exact absurd same (List.cons_ne_nil _ _)
  next r' same => exact absurd (List.cons.inj same).1 (by decide)
  next r' same =>
    obtain ⟨-, rfl⟩ := List.cons.inj same
    rw [if_neg Bool.false_ne_true]
    dsimp only
    rw [skipBlank_of_head (by decide)]
    split
    next r'' same' => exact absurd (List.cons.inj same').1 (by decide)
    next same' => exact absurd same' (List.cons_ne_nil _ _)
    next r'' same' =>
      obtain ⟨-, rfl⟩ := List.cons.inj same'
      rfl
    next _ _ _ _ no_quote same' => exact absurd (List.cons.inj same').1.symm no_quote
  next r' same => exact absurd (List.cons.inj same).1 (by decide)
  next _ _ _ _ no_comma _ same => exact absurd (List.cons.inj same).1.symm no_comma

/-- A member's key, its colon and its value, then the members after it. -/
theorem readMember_colon {acc : List (String × Json)} {c c' : Cursor} {k : String} {r : List Char} {o : Nat}
    {v : Json} (key : readString (fuel + 1) c = .ok (k, ⟨':' :: r, o⟩))
    (value : readValue fuel room ⟨r, o + 1⟩ = .ok (v, c')) :
    readMember (fuel + 1) room acc c = readMembers fuel room false (Json.insertMember k v acc) c' := by
  rw [readMember, key]
  dsimp only
  rw [skipBlank_of_head (by decide)]
  split
  next same => exact absurd same (List.cons_ne_nil _ _)
  next r' same =>
    obtain ⟨-, rfl⟩ := List.cons.inj same
    rw [value]
  next _ _ no_colon same => exact absurd (List.cons.inj same).1.symm no_colon

end Steps

mutual

/-- A canonical value is read back from its text, with what follows untouched, given more
fuel than the text has characters, a rest that cannot continue a number, and room for its
containers when the room is limited. -/
theorem readValue_chars (style : TextStyle) : (v : Json) → v.Canonical → ∀ room : Option Nat,
    (∀ k ∈ room, v.nesting < k) → ∀ fuel : Nat, (Json.chars style v).length < fuel →
      ∀ {rest : List Char}, NumberEnd rest → ∀ offset : Nat,
        ∃ offset', readValue fuel room ⟨Json.chars style v ++ rest, offset⟩ = .ok (v, ⟨rest, offset'⟩)
  | .null, _, room, _, fuel, enough, rest, _, offset => by
    obtain ⟨f, rfl⟩ : ∃ f, fuel = f + 1 := ⟨fuel - 1, by omega⟩
    refine ⟨offset + 4, ?_⟩
    simp [Json.chars, readValue, readWord, skipBlank, isBlank, Except.map]
  | .bool b, _, room, _, fuel, enough, rest, _, offset => by
    obtain ⟨f, rfl⟩ : ∃ f, fuel = f + 1 := ⟨fuel - 1, by omega⟩
    cases b
    · refine ⟨offset + 5, ?_⟩
      simp [Json.chars, readValue, readWord, skipBlank, isBlank, Except.map]
    · refine ⟨offset + 4, ?_⟩
      simp [Json.chars, readValue, readWord, skipBlank, isBlank, Except.map]
  | .number n, _, room, _, fuel, enough, rest, ends, offset => by
    obtain ⟨f, rfl⟩ : ∃ f, fuel = f + 1 := ⟨fuel - 1, by omega⟩
    exact n.readValue_render f room ends offset
  | .string s, _, room, _, fuel, enough, rest, _, offset => by
    obtain ⟨f, rfl⟩ : ∃ f, fuel = f + 1 := ⟨fuel - 1, by omega⟩
    have long : s.length < f := by
      have escaped := length_le_flatMap_escapeChar style s.toList
      simp only [Json.chars, toList_quote, List.length_cons, List.length_append,
        String.length_toList] at enough escaped
      omega
    obtain ⟨offset', read⟩ := readString_quote style s f long rest (offset + 1)
    refine ⟨offset', ?_⟩
    simp [Json.chars, toList_quote, readValue, skipBlank, isBlank, read, Except.map]
  | .array items, canonical, room, fits, fuel, enough, rest, _, offset => by
    cases canonical with
    | array each =>
      obtain ⟨f, rfl⟩ : ∃ f, fuel = f + 1 := ⟨fuel - 1, by omega⟩
      have length : (Json.itemsChars style true items).length + 1 < f := by
        simp only [Json.chars, List.length_cons, List.length_append] at enough
        omega
      -- a limited room leaves one container less for the items
      cases room with
      | none =>
        obtain ⟨offset', read⟩ := readItems_chars style items each none (by simp) true [] f
          length rest (offset + 1)
        refine ⟨offset', ?_⟩
        simp [Json.chars, readValue, skipBlank, isBlank, read, Except.map]
      | some k =>
        have below : Json.itemsNesting items + 1 < k := by simpa [Json.nesting] using fits
        have inner : ∀ x ∈ items, ∀ j ∈ some (k - 1), x.nesting < j := by
          intro x member j same
          have := Json.itemsNesting_le_iff.mp le_rfl x member
          simp only [Option.mem_def, Option.some.injEq] at same
          omega
        obtain ⟨offset', read⟩ := readItems_chars style items each (some (k - 1)) inner true [] f length rest (offset + 1)
        refine ⟨offset', ?_⟩
        simp [Json.chars, readValue, skipBlank, isBlank, read, Except.map, show ¬k ≤ 1 by omega]
  | .object members, canonical, room, fits, fuel, enough, rest, _, offset => by
    cases canonical with
    | object sorted each =>
      obtain ⟨f, rfl⟩ : ∃ f, fuel = f + 1 := ⟨fuel - 1, by omega⟩
      have length : (Json.membersChars style true members).length + 1 < f := by
        simp only [Json.chars, List.length_cons, List.length_append] at enough
        omega
      cases room with
      | none =>
        obtain ⟨offset', read⟩ := readMembers_chars style members each none (by simp) true []
          sorted f length rest (offset + 1)
        refine ⟨offset', ?_⟩
        simp [Json.chars, readValue, skipBlank, isBlank, read, Except.map]
      | some k =>
        have below : Json.membersNesting members + 1 < k := by simpa [Json.nesting] using fits
        have inner : ∀ m ∈ members, ∀ j ∈ some (k - 1), m.2.nesting < j := by
          intro m member j same
          have := Json.membersNesting_le_iff.mp le_rfl m member
          simp only [Option.mem_def, Option.some.injEq] at same
          omega
        obtain ⟨offset', read⟩ := readMembers_chars style members each (some (k - 1)) inner true [] sorted f length rest
          (offset + 1)
        refine ⟨offset', ?_⟩
        simp [Json.chars, readValue, skipBlank, isBlank, read, Except.map, show ¬k ≤ 1 by omega]

theorem readItems_chars (style : TextStyle) : (items : List Json) → (∀ x ∈ items, x.Canonical) →
    ∀ room : Option Nat, (∀ x ∈ items, ∀ k ∈ room, x.nesting < k) →
    ∀ (first : Bool) (acc : List Json) (fuel : Nat), (Json.itemsChars style first items).length + 1 < fuel →
      ∀ (rest : List Char) (offset : Nat), ∃ offset',
        readItems fuel room first acc ⟨Json.itemsChars style first items ++ ']' :: rest, offset⟩ =
          .ok (acc.reverse ++ items, ⟨rest, offset'⟩)
  | [], _, room, _, first, acc, fuel, enough, rest, offset => by
    obtain ⟨f, rfl⟩ : ∃ f, fuel = f + 1 := ⟨fuel - 1, by omega⟩
    exact ⟨offset + 1, by simp [Json.itemsChars, readItems, skipBlank, isBlank]⟩
  | x :: xs, each, room, fits, first, acc, fuel, enough, rest, offset => by
    obtain ⟨f, rfl⟩ : ∃ f, fuel = f + 1 := ⟨fuel - 1, by omega⟩
    obtain ⟨h, t, text, blank, not_close, not_comma, -⟩ := chars_head style x
    have sizes : (Json.chars style x).length < f ∧ (Json.itemsChars style false xs).length + 1 < f := by
      have nonempty : 0 < (Json.chars style x).length := by simp [text]
      simp only [Json.itemsChars, List.length_append] at enough
      omega
    obtain ⟨offset1, item⟩ := readValue_chars style x (each x List.mem_cons_self) room
      (fits x List.mem_cons_self) f sizes.1 (numberEnd_itemsChars style xs rest)
      (if first then offset else offset + 1)
    obtain ⟨offset2, others⟩ := readItems_chars style xs (fun y member => each y (List.mem_cons_of_mem x member))
      room (fun y member => fits y (List.mem_cons_of_mem x member)) false (x :: acc) f sizes.2 rest offset1
    refine ⟨offset2, ?_⟩
    rw [List.reverse_cons, List.append_assoc, List.singleton_append] at others
    cases first with
    | true =>
      simp only [Json.itemsChars, if_true, List.nil_append, List.append_assoc] at item ⊢
      rw [text, List.cons_append] at item ⊢
      rw [readItems_first blank not_close not_comma item]
      exact others
    | false =>
      simp only [Json.itemsChars, Bool.false_eq_true, if_false, List.cons_append, List.nil_append,
        List.append_assoc] at item ⊢
      rw [text, List.cons_append] at item ⊢
      rw [readItems_comma blank not_close item]
      exact others

theorem readMembers_chars (style : TextStyle) : (members : List (String × Json)) →
    (∀ m ∈ members, m.2.Canonical) → ∀ room : Option Nat, (∀ m ∈ members, ∀ k ∈ room, m.2.nesting < k) →
    ∀ (first : Bool) (acc : List (String × Json)),
    (acc ++ members).Pairwise (fun a b => a.1 < b.1) → ∀ fuel : Nat,
    (Json.membersChars style first members).length + 1 < fuel → ∀ (rest : List Char) (offset : Nat),
      ∃ offset', readMembers fuel room first acc ⟨Json.membersChars style first members ++ '}' :: rest, offset⟩ =
        .ok (acc ++ members, ⟨rest, offset'⟩)
  | [], _, room, _, first, acc, _, fuel, enough, rest, offset => by
    obtain ⟨f, rfl⟩ : ∃ f, fuel = f + 1 := ⟨fuel - 1, by omega⟩
    exact ⟨offset + 1, by simp [Json.membersChars, readMembers, skipBlank, isBlank]⟩
  | (k, v) :: ms, each, room, fits, first, acc, sorted, fuel, enough, rest, offset => by
    have escaped := length_le_flatMap_escapeChar style k.toList
    simp only [Json.membersChars, toList_quote, List.length_append, List.length_cons, String.length_toList] at enough escaped
    obtain ⟨g, rfl⟩ : ∃ g, fuel = g + 2 := ⟨fuel - 2, by omega⟩
    -- the keys read so far lie below this one, so inserting it appends it
    have below : ∀ m ∈ acc, m.1 < k := fun m mem =>
      (List.pairwise_append.mp sorted).2.2 m mem (k, v) List.mem_cons_self
    have member : ∀ o, ∃ o', readMember (g + 1) room acc
        ⟨k.toList.flatMap (escapeChar style) ++ '"' :: ':' :: (Json.chars style v ++
          (Json.membersChars style false ms ++ '}' :: rest)), o⟩ = .ok (acc ++ (k, v) :: ms, ⟨rest, o'⟩) := by
      intro o
      obtain ⟨o1, key⟩ := readString_quote style k (g + 1) (by omega)
        (':' :: (Json.chars style v ++ (Json.membersChars style false ms ++ '}' :: rest))) o
      obtain ⟨o2, value⟩ := readValue_chars style v (each (k, v) List.mem_cons_self) room
        (fits (k, v) List.mem_cons_self) g (by omega) (numberEnd_membersChars style ms rest) (o1 + 1)
      obtain ⟨o3, others⟩ := readMembers_chars style ms (fun m mem => each m (List.mem_cons_of_mem _ mem))
        room (fun m mem => fits m (List.mem_cons_of_mem _ mem))
        false (acc ++ [(k, v)]) (by rwa [List.append_assoc, List.singleton_append]) g (by omega) rest o2
      refine ⟨o3, ?_⟩
      rw [readMember_colon key value, Json.insertMember_of_lt below, others, List.append_assoc,
        List.singleton_append]
    cases first with
    | true =>
      obtain ⟨o', read⟩ := member (offset + 1)
      refine ⟨o', ?_⟩
      simp only [Json.membersChars, if_true, List.nil_append, toList_quote, List.cons_append, List.append_assoc]
      rw [readMembers_first]
      exact read
    | false =>
      obtain ⟨o', read⟩ := member (offset + 2)
      refine ⟨o', ?_⟩
      simp only [Json.membersChars, Bool.false_eq_true, if_false, toList_quote, List.cons_append,
        List.nil_append, List.append_assoc]
      rw [readMembers_comma]
      exact read

end

end JsonReader

namespace Json

/-- Reading the text of a canonical value, in either style, gives the value back, with no
limit on nesting or with room for the value's containers. -/
theorem read_render (style : TextStyle) {v : Json} (canonical : v.Canonical) (room : Option Nat)
    (fits : ∀ k ∈ room, v.nesting < k) : read room (render style v) = .ok v := by
  have ends : JsonReader.NumberEnd [] := by simp [JsonReader.NumberEnd]
  obtain ⟨offset, value⟩ := JsonReader.readValue_chars style v canonical room fits
    (2 * (render style v).toList.length + 3) (by simp; omega) ends 0
  rw [List.append_nil, ← toList_render] at value
  simp only [read, readPrefix, JsonReader.readLeading, value]
  rfl

/-- Canonical values with the same text are the same value. -/
theorem render_injective (style : TextStyle) {v w : Json} (canonical : v.Canonical) (canonical' : w.Canonical)
    (same : render style v = render style w) : v = w := by
  have back := read_render style canonical none (by simp)
  rw [same, read_render style canonical' none (by simp)] at back
  exact (Except.ok.inj back).symm

end Json

end BlockCodec
