import Mathlib.Tactic.Linarith
import Mathlib.Tactic.Ring
import Mathlib.Data.List.Induction
import BlockCodec.Calendar.Iso

namespace BlockCodec

theorem toNat_ofNat_char {n : Nat} (small : n < 0xD800) : (Char.ofNat n).toNat = n := by
  have valid : n.isValidChar := Or.inl (by omega)
  change (dite n.isValidChar (fun h => Char.ofNatAux n h) _).toNat = n
  rw [dif_pos valid]
  rfl

def digitChar (d : Nat) : Char := Char.ofNat (48 + d)

theorem toNat_digitChar {d : Nat} (digit : d < 10) : (digitChar d).toNat = 48 + d :=
  toNat_ofNat_char (by omega)

theorem decimalDigits_eq (n : Nat) :
    decimalDigits n = if n < 10 then [digitChar n] else decimalDigits (n / 10) ++ [digitChar (n % 10)] := by
  rw [decimalDigits]
  rfl

/-- The value of a run of decimal digits, read left to right. -/
def digitsValue (cs : List Char) : Nat := cs.foldl (fun acc c => acc * 10 + (c.toNat - 48)) 0

theorem digitsValue_append_singleton (cs : List Char) (c : Char) :
    digitsValue (cs ++ [c]) = digitsValue cs * 10 + (c.toNat - 48) := by
  simp [digitsValue, List.foldl_append]

/-- Reading the digits of `n` after some digits already read shifts those by the length. -/
theorem foldl_decimalDigits (acc n : Nat) :
    (decimalDigits n).foldl (fun acc c => acc * 10 + (c.toNat - 48)) acc =
      acc * 10 ^ (decimalDigits n).length + n := by
  induction n using Nat.strong_induction_on generalizing acc with
  | _ n ih =>
    rw [decimalDigits_eq]
    split
    · simp [toNat_digitChar (by omega : n < 10)]
    · rename_i big
      rw [List.foldl_append, ih (n / 10) (by omega)]
      simp only [List.foldl_cons, List.foldl_nil, toNat_digitChar (Nat.mod_lt n (by omega : 10 > 0)),
        Nat.add_sub_cancel_left, List.length_append, List.length_singleton, pow_succ]
      have split := Nat.div_add_mod n 10
      generalize 10 ^ (decimalDigits (n / 10)).length = p
      linarith

theorem digitsValue_decimalDigits (n : Nat) : digitsValue (decimalDigits n) = n := by
  simpa [digitsValue] using foldl_decimalDigits 0 n

theorem length_decimalDigits_le {width n : Nat} (fits : n < 10 ^ width) (wide : 0 < width) :
    (decimalDigits n).length ≤ width := by
  induction width generalizing n with
  | zero => omega
  | succ width ih =>
    rw [decimalDigits_eq]
    split
    · simp
    · have shorter := ih (n := n / 10) (by rw [pow_succ] at fits; omega) (by
        rcases width with _ | width
        · simp at fits; omega
        · omega)
      simp
      omega

/-- Exactly `width` decimal digits of `n`, zeros in front: its last `width` digits. -/
def fixedDigits : Nat → Nat → List Char
  | 0, _ => []
  | width + 1, n => fixedDigits width (n / 10) ++ [digitChar (n % 10)]

@[simp] theorem length_fixedDigits (width n : Nat) : (fixedDigits width n).length = width := by
  induction width generalizing n with
  | zero => rfl
  | succ width ih => simp [fixedDigits, ih]

theorem fixedDigits_zero (width : Nat) : fixedDigits width 0 = List.replicate width '0' := by
  induction width with
  | zero => rfl
  | succ width ih =>
    rw [fixedDigits, Nat.zero_div, ih, List.replicate_succ']
    rfl

theorem padded_toList {width n : Nat} (fits : n < 10 ^ width) (wide : 0 < width) :
    (padded width n).toList = fixedDigits width n := by
  induction width generalizing n with
  | zero => omega
  | succ width ih =>
    simp only [padded, String.toList_ofList]
    rw [fixedDigits, decimalDigits_eq]
    split
    · rename_i small
      simp only [List.length_singleton, Nat.add_sub_cancel, Nat.div_eq_of_lt small, fixedDigits_zero,
        Nat.mod_eq_of_lt small]
    · rcases width with _ | width
      · simp at fits; omega
      have fitsBelow : n / 10 < 10 ^ (width + 1) := by rw [pow_succ] at fits; omega
      have shorter := ih fitsBelow (by omega)
      have short := length_decimalDigits_le fitsBelow (by omega)
      simp only [padded, String.toList_ofList] at shorter
      rw [← shorter, List.length_append, List.length_singleton, ← List.append_assoc,
        show width + 1 + 1 - ((decimalDigits (n / 10)).length + 1) =
          width + 1 - (decimalDigits (n / 10)).length by omega]

theorem isAsciiDigit_iff (c : Char) : Instant.isAsciiDigit c = true ↔ 48 ≤ c.toNat ∧ c.toNat ≤ 57 := by
  simp [Instant.isAsciiDigit, Char.le_def, UInt32.le_iff_toNat_le]

theorem isAsciiDigit_digitChar {d : Nat} (digit : d < 10) : Instant.isAsciiDigit (digitChar d) = true := by
  rw [isAsciiDigit_iff, toNat_digitChar digit]
  omega

theorem digitChar_sub {c : Char} (digit : Instant.isAsciiDigit c = true) : digitChar (c.toNat - 48) = c := by
  rw [isAsciiDigit_iff] at digit
  rw [digitChar, show 48 + (c.toNat - 48) = c.toNat by omega, Char.ofNat_toNat]

theorem isAsciiDigit_of_mem_fixedDigits {width n : Nat} {c : Char} (member : c ∈ fixedDigits width n) :
    Instant.isAsciiDigit c = true := by
  induction width generalizing n with
  | zero => simp [fixedDigits] at member
  | succ width ih =>
    simp only [fixedDigits, List.mem_append, List.mem_singleton] at member
    rcases member with earlier | rfl
    · exact ih earlier
    · exact isAsciiDigit_digitChar (Nat.mod_lt n (by omega))

theorem digitsValue_fixedDigits (width n : Nat) : digitsValue (fixedDigits width n) = n % 10 ^ width := by
  induction width generalizing n with
  | zero => simp [fixedDigits, digitsValue, Nat.mod_one]
  | succ width ih =>
    rw [fixedDigits, digitsValue_append_singleton, ih, toNat_digitChar (Nat.mod_lt n (by omega)), Nat.pow_succ',
      Nat.mod_mul]
    omega

/-- A run of digits is the fixed-width text of its own value. -/
theorem fixedDigits_digitsValue {cs : List Char} (digits : ∀ c ∈ cs, Instant.isAsciiDigit c = true) :
    digitsValue cs < 10 ^ cs.length ∧ fixedDigits cs.length (digitsValue cs) = cs := by
  induction cs using List.reverseRecOn with
  | nil => simp [digitsValue, fixedDigits]
  | append_singleton cs c ih =>
    have last := digits c (by simp)
    obtain ⟨bound, rebuilt⟩ := ih fun d member => digits d (by simp [member])
    have small := (isAsciiDigit_iff c).mp last
    rw [digitsValue_append_singleton, List.length_append, List.length_singleton, fixedDigits]
    refine ⟨by rw [pow_succ]; omega, ?_⟩
    have quotient : (digitsValue cs * 10 + (c.toNat - 48)) / 10 = digitsValue cs := by omega
    have remainder : (digitsValue cs * 10 + (c.toNat - 48)) % 10 = c.toNat - 48 := by omega
    rw [quotient, remainder, rebuilt, digitChar_sub last]

theorem digitsValue?_eq_some {cs : List Char} {n : Nat} :
    Instant.digitsValue? cs = some n ↔ cs ≠ [] ∧ (∀ c ∈ cs, Instant.isAsciiDigit c = true) ∧ digitsValue cs = n := by
  unfold Instant.digitsValue?
  split
  · rename_i accepted
    simp only [Bool.and_eq_true, Bool.not_eq_true', List.isEmpty_eq_false_iff, List.all_eq_true] at accepted
    simp only [Option.some.injEq, accepted, true_and, ne_eq, not_false_eq_true, digitsValue]
    exact ⟨fun value => ⟨accepted.2, value⟩, fun both => both.2⟩
  · rename_i refused
    simp only [Bool.and_eq_true, Bool.not_eq_true', List.isEmpty_eq_false_iff, List.all_eq_true] at refused
    simp only [reduceCtorEq, false_iff]
    tauto

theorem digitsValue?_fixedDigits {width n : Nat} (fits : n < 10 ^ width) (wide : 0 < width) :
    Instant.digitsValue? (fixedDigits width n) = some n := by
  rw [digitsValue?_eq_some, digitsValue_fixedDigits, Nat.mod_eq_of_lt fits]
  refine ⟨?_, fun _ => isAsciiDigit_of_mem_fixedDigits, rfl⟩
  rw [← List.length_pos_iff, length_fixedDigits]
  exact wide

/-- Reading digits after some already read shifts those by the number of new digits. -/
theorem foldl_digits (acc : Nat) (cs : List Char) :
    cs.foldl (fun acc c => acc * 10 + (c.toNat - 48)) acc = acc * 10 ^ cs.length + digitsValue cs := by
  induction cs using List.reverseRecOn with
  | nil => simp [digitsValue]
  | append_singleton cs c ih =>
    rw [List.foldl_append, List.foldl_cons, List.foldl_nil, ih, digitsValue_append_singleton, List.length_append,
      List.length_singleton, pow_succ]
    ring

theorem digitsValue_append (cs ds : List Char) :
    digitsValue (cs ++ ds) = digitsValue cs * 10 ^ ds.length + digitsValue ds := by
  rw [digitsValue, List.foldl_append, foldl_digits]
  rfl

theorem digitsValue_cons (c : Char) (cs : List Char) :
    digitsValue (c :: cs) = (c.toNat - 48) * 10 ^ cs.length + digitsValue cs := by
  rw [← List.singleton_append, digitsValue_append]
  simp [digitsValue]

theorem digitsValue_replicate_zero (k : Nat) : digitsValue (List.replicate k '0') = 0 := by
  induction k with
  | zero => rfl
  | succ k ih =>
    have zero : ('0' : Char).toNat = 48 := rfl
    rw [List.replicate_succ, digitsValue_cons, ih, zero, Nat.sub_self, zero_mul]

theorem isAsciiDigit_of_mem_decimalDigits {n : Nat} {c : Char} (member : c ∈ decimalDigits n) :
    Instant.isAsciiDigit c = true := by
  induction n using Nat.strong_induction_on with
  | _ n ih =>
    rw [decimalDigits_eq] at member
    split at member
    · rw [List.mem_singleton] at member
      exact member ▸ isAsciiDigit_digitChar (by omega)
    · rcases List.mem_append.mp member with earlier | last
      · exact ih (n / 10) (by omega) earlier
      · rw [List.mem_singleton] at last
        exact last ▸ isAsciiDigit_digitChar (Nat.mod_lt n (by omega))

/-- The digits of a positive natural lead with a digit other than zero. -/
theorem decimalDigits_lead {n : Nat} (pos : 0 < n) :
    ∃ d rest, decimalDigits n = digitChar d :: rest ∧ 0 < d ∧ d < 10 := by
  induction n using Nat.strong_induction_on with
  | _ n ih =>
    rw [decimalDigits_eq]
    split
    · exact ⟨n, [], rfl, pos, by omega⟩
    · obtain ⟨d, rest, eq, lead⟩ := ih (n / 10) (by omega) (by omega)
      exact ⟨d, rest ++ [digitChar (n % 10)], by rw [eq]; rfl, lead⟩

theorem decimalDigits_zero : decimalDigits 0 = ['0'] := by
  rw [decimalDigits_eq, if_pos (by norm_num)]; rfl

theorem digitChar_ne_zero {d : Nat} (pos : 0 < d) (digit : d < 10) : digitChar d ≠ '0' := by
  intro same
  have := congrArg Char.toNat same
  rw [toNat_digitChar digit] at this
  have : ('0' : Char).toNat = 48 := rfl
  omega

end BlockCodec
