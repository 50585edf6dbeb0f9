import BlockCodec.Proofs.ShortestDecimal
import BlockCodec.Proofs.Digits
import BlockCodec.Json.Reader

namespace BlockCodec

theorem length_decimalDigits (n : Nat) : (decimalDigits n).length = decimalLength n := by
  induction n using Nat.strong_induction_on with
  | _ n ih =>
    rw [decimalDigits_eq, decimalLength_eq]
    split
    · rfl
    · rw [List.length_append, ih (n / 10) (by omega), List.length_singleton]

namespace JsonReader

theorem isDigit_eq (c : Char) : isDigit c = Instant.isAsciiDigit c := rfl

/-- What may follow a number literal: nothing that would continue it. -/
def NumberEnd (rest : List Char) : Prop :=
  ∀ c ∈ rest.head?, isDigit c = false ∧ c ≠ '.' ∧ c ≠ 'e' ∧ c ≠ 'E'

theorem stop_cons {c : Char} (rest : List Char) (not_digit : isDigit c = false) :
    ∀ d ∈ (c :: rest).head?, isDigit d = false := by
  simpa using not_digit

/-- A run of digits is read whole, up to the first character that is no digit. -/
theorem digitRun_append (acc count : Nat) {cs rest : List Char}
    (digits : ∀ c ∈ cs, isDigit c = true) (stop : ∀ c ∈ rest.head?, isDigit c = false) :
    digitRun acc count (cs ++ rest) = (acc * 10 ^ cs.length + digitsValue cs, count + cs.length, rest) := by
  induction cs generalizing acc count with
  | nil =>
    cases rest with
    | nil => simp [digitRun, digitsValue]
    | cons c r => simp [digitRun, stop c rfl, digitsValue]
  | cons c cs ih =>
    rw [List.cons_append, digitRun, if_pos (digits c List.mem_cons_self),
      ih _ _ (fun d member => digits d (List.mem_cons_of_mem c member)), digitsValue_cons]
    simp only [digitValue, List.length_cons, pow_succ, Prod.mk.injEq, and_true]
    exact ⟨by ring, by omega⟩

/-- The digits of an exponent are read whole while their value stays in range. -/
theorem exponentRun_append (exp : Nat) {cs rest : List Char} (offset : Nat)
    (digits : ∀ c ∈ cs, isDigit c = true) (stop : ∀ c ∈ rest.head?, isDigit c = false)
    (fits : exp * 10 ^ cs.length + digitsValue cs ≤ 2147483647) :
    exponentRun exp (cs ++ rest) offset =
      .done (exp * 10 ^ cs.length + digitsValue cs) ⟨rest, offset + cs.length⟩ := by
  induction cs generalizing exp offset with
  | nil =>
    cases rest with
    | nil => simp [exponentRun, digitsValue]
    | cons c r => simp [exponentRun, stop c rfl, digitsValue]
  | cons c cs ih =>
    have shift : (exp * 10 + digitValue c) * 10 ^ cs.length + digitsValue cs =
        exp * 10 ^ (c :: cs).length + digitsValue (c :: cs) := by
      rw [digitsValue_cons, List.length_cons, pow_succ, digitValue]; ring
    have within : exp * 10 + digitValue c ≤ 2147483647 := by
      have : exp * 10 + digitValue c ≤ (exp * 10 + digitValue c) * 10 ^ cs.length :=
        Nat.le_mul_of_pos_right _ (Nat.pow_pos (by norm_num))
      omega
    rw [List.cons_append, exponentRun, if_pos (digits c List.mem_cons_self), if_neg (by omega),
      ih _ _ (fun d member => digits d (List.mem_cons_of_mem c member)) (by rw [shift]; exact fits), shift]
    simp only [List.length_cons]
    congr 2
    omega
/-- Digits the reader takes as the integer part of a literal: one zero, or a run that does
not start with zero. -/
def WholeDigits (ws : List Char) : Prop :=
  (∀ c ∈ ws, isDigit c = true) ∧ (ws = ['0'] ∨ ∃ h t, ws = h :: t ∧ h ≠ '0')

theorem readNumber_integer (negative : Bool) {ws rest : List Char} (whole : WholeDigits ws)
    (ends : NumberEnd rest) (offset : Nat) :
    ∃ offset', readNumber negative ⟨ws ++ rest, offset⟩ =
      (integerLiteral negative (digitsValue ws) offset').map (·, ⟨rest, offset'⟩) := by
  obtain ⟨digits, lead⟩ := whole
  have stop : ∀ c ∈ rest.head?, isDigit c = false := fun c first => (ends c first).1
  rcases lead with rfl | ⟨h, t, rfl, nonzero⟩
  · refine ⟨offset + 1, ?_⟩
    rcases rest with _ | ⟨c, r⟩
    · simp [readNumber, digitsValue]
    · obtain ⟨not_digit, not_point, not_e, not_E⟩ := ends c rfl
      simp [readNumber, digitsValue, not_digit, not_e, not_E]
  · have run := digitRun_append (digitValue h) 1 (fun c member => digits c (List.mem_cons_of_mem h member)) stop
    have value : digitValue h * 10 ^ t.length + digitsValue t = digitsValue (h :: t) := by
      rw [digitsValue_cons]; rfl
    rw [value] at run
    refine ⟨offset + (1 + t.length), ?_⟩
    rcases rest with _ | ⟨c, r⟩
    · rw [List.append_nil] at run
      simp [readNumber, digits h List.mem_cons_self, run]
    · obtain ⟨not_digit, not_point, not_e, not_E⟩ := ends c rfl
      simp [readNumber, digits h List.mem_cons_self, run, not_e, not_E]

/-- A literal with a point: the digits on both sides make one integer, scaled down by the
number of digits after the point. -/
theorem readNumber_point (negative : Bool) {ws fs rest : List Char} (whole : WholeDigits ws)
    (fraction : ∀ c ∈ fs, isDigit c = true) (some_fraction : fs ≠ []) (ends : NumberEnd rest)
    (offset : Nat) :
    ∃ offset', readNumber negative ⟨ws ++ '.' :: (fs ++ rest), offset⟩ =
      (floatLiteral negative (digitsValue ws * 10 ^ fs.length + digitsValue fs) (-(fs.length : Int))
        offset').map (·, ⟨rest, offset'⟩) := by
  obtain ⟨digits, lead⟩ := whole
  have stop : ∀ c ∈ rest.head?, isDigit c = false := fun c first => (ends c first).1
  have some_length : fs.length ≠ 0 := by simpa using some_fraction
  have point : isDigit '.' = false := rfl
  rcases lead with rfl | ⟨h, t, rfl, nonzero⟩
  · have after := digitRun_append 0 0 fraction stop
    rcases rest with _ | ⟨c, r⟩
    · rw [List.append_nil] at after
      simp [readNumber, point, after, some_length, digitsValue]
      exact ⟨_, rfl⟩
    · obtain ⟨-, -, not_e, not_E⟩ := ends c rfl
      simp [readNumber, point, after, some_length, digitsValue, not_e, not_E]
      exact ⟨_, rfl⟩
  · have run := digitRun_append (digitValue h) 1
      (fun c member => digits c (List.mem_cons_of_mem h member)) (stop_cons (fs ++ rest) point)
    have value : digitValue h * 10 ^ t.length + digitsValue t = digitsValue (h :: t) := by
      rw [digitsValue_cons]; rfl
    rw [value] at run
    have after := digitRun_append (digitsValue (h :: t)) 0 fraction stop
    rcases rest with _ | ⟨c, r⟩
    · rw [List.append_nil] at after run
      simp [readNumber, digits h List.mem_cons_self, run, after, some_length]
      exact ⟨_, rfl⟩
    · obtain ⟨-, -, not_e, not_E⟩ := ends c rfl
      simp [readNumber, digits h List.mem_cons_self, run, after, some_length, not_e, not_E]
      exact ⟨_, rfl⟩

/-- A literal with a point and an exponent mark goes on to read the exponent, with the digits
on both sides of the point as one integer. -/
theorem readNumber_point_exponent (negative : Bool) {ws fs : List Char} (es : List Char) (whole : WholeDigits ws)
    (fraction : ∀ c ∈ fs, isDigit c = true) (some_fraction : fs ≠ []) (offset : Nat) :
    ∃ offset', readNumber negative ⟨ws ++ '.' :: (fs ++ 'e' :: es), offset⟩ =
      readExponent negative (digitsValue ws * 10 ^ fs.length + digitsValue fs) fs.length ⟨es, offset'⟩ := by
  obtain ⟨digits, lead⟩ := whole
  have some_length : fs.length ≠ 0 := by simpa using some_fraction
  have point : isDigit '.' = false := rfl
  have mark : isDigit 'e' = false := rfl
  have after := digitRun_append 0 0 fraction (stop_cons es mark)
  rcases lead with rfl | ⟨h, t, rfl, nonzero⟩
  · simp [readNumber, point, after, some_length, digitsValue]
    exact ⟨_, rfl⟩
  · have run := digitRun_append (digitValue h) 1
      (fun c member => digits c (List.mem_cons_of_mem h member)) (stop_cons (fs ++ 'e' :: es) point)
    have value : digitValue h * 10 ^ t.length + digitsValue t = digitsValue (h :: t) := by
      rw [digitsValue_cons]; rfl
    rw [value] at run
    have after := digitRun_append (digitsValue (h :: t)) 0 fraction (stop_cons es mark)
    simp [readNumber, digits h List.mem_cons_self, run, after, some_length]
    exact ⟨_, rfl⟩

/-- A literal with an exponent mark and no point goes on to read the exponent. -/
theorem readNumber_exponent (negative : Bool) {ws : List Char} (es : List Char) (whole : WholeDigits ws) (offset : Nat) :
    ∃ offset', readNumber negative ⟨ws ++ 'e' :: es, offset⟩ =
      readExponent negative (digitsValue ws) 0 ⟨es, offset'⟩ := by
  obtain ⟨digits, lead⟩ := whole
  have mark : isDigit 'e' = false := rfl
  rcases lead with rfl | ⟨h, t, rfl, nonzero⟩
  · simp [readNumber, mark, digitsValue]
    exact ⟨_, rfl⟩
  · have run := digitRun_append (digitValue h) 1
      (fun c member => digits c (List.mem_cons_of_mem h member)) (stop_cons es mark)
    have value : digitValue h * 10 ^ t.length + digitsValue t = digitsValue (h :: t) := by
      rw [digitsValue_cons]; rfl
    rw [value] at run
    simp [readNumber, digits h List.mem_cons_self, run]
    exact ⟨_, rfl⟩

/-- A signed exponent is read whole while it stays in range. -/
theorem readExponent_digits (negative : Bool) (digits scale : Nat) {mark : Char} {es rest : List Char}
    (sign : mark = '+' ∨ mark = '-') (exponent : ∀ c ∈ es, isDigit c = true) (some_exponent : es ≠ [])
    (stop : ∀ c ∈ rest.head?, isDigit c = false) (fits : digitsValue es ≤ 2147483647) (offset : Nat) :
    ∃ offset', readExponent negative digits scale ⟨mark :: (es ++ rest), offset⟩ =
      (floatLiteral negative digits ((if mark = '+' then (digitsValue es : Int) else -(digitsValue es : Int)) - scale)
        offset').map (·, ⟨rest, offset'⟩) := by
  obtain ⟨d, es', rfl⟩ := List.exists_cons_of_ne_nil some_exponent
  have first : isDigit d = true := exponent d List.mem_cons_self
  have value : digitValue d * 10 ^ es'.length + digitsValue es' = digitsValue (d :: es') := by
    rw [digitsValue_cons]; rfl
  have run := exponentRun_append (digitValue d) (offset + 1 + 1)
    (fun c member => exponent c (List.mem_cons_of_mem d member)) stop (by rw [value]; exact fits)
  rw [value] at run
  rcases sign with rfl | rfl
  · simp [readExponent, first, run]
    exact ⟨_, rfl⟩
  · simp [readExponent, first, run]
    exact ⟨_, rfl⟩

theorem wholeDigits_zero : WholeDigits ['0'] := ⟨by simp [isDigit_eq, isAsciiDigit_iff], .inl rfl⟩

theorem wholeDigits_decimalDigits (n : Nat) : WholeDigits (decimalDigits n) := by
  refine ⟨fun c member => isAsciiDigit_of_mem_decimalDigits member, ?_⟩
  rcases Nat.eq_zero_or_pos n with rfl | pos
  · exact .inl decimalDigits_zero
  · obtain ⟨d, rest, eq, pos, digit⟩ := decimalDigits_lead pos
    exact .inr ⟨_, rest, eq, digitChar_ne_zero pos digit⟩

/-- An exponent as the printer writes it, its sign always shown, is read whole. -/
theorem readExponent_signed (negative : Bool) (digits scale : Nat) {e : Int} (range : e.natAbs ≤ 2147483647)
    {rest : List Char} (ends : NumberEnd rest) (offset : Nat) :
    ∃ offset', readExponent negative digits scale ⟨(if 0 ≤ e then '+' else '-') :: (decimalDigits e.natAbs ++ rest), offset⟩ =
      (floatLiteral negative digits (e - scale) offset').map (·, ⟨rest, offset'⟩) := by
  have mark_sign : (if 0 ≤ e then '+' else '-') = '+' ∨ (if 0 ≤ e then '+' else '-') = '-' := by
    split <;> simp
  have some_exponent : decimalDigits e.natAbs ≠ [] := by
    rcases (wholeDigits_decimalDigits e.natAbs).2 with zero | ⟨_, _, eq, _⟩
    · rw [zero]; simp
    · rw [eq]; simp
  obtain ⟨offset', read⟩ := readExponent_digits negative digits scale mark_sign
    (fun c member => isAsciiDigit_of_mem_decimalDigits member) some_exponent (fun c first => (ends c first).1)
    (by rw [digitsValue_decimalDigits]; exact range) offset
  refine ⟨offset', ?_⟩
  rw [read, digitsValue_decimalDigits]
  -- the sign read back is the sign of the exponent
  by_cases nonneg : 0 ≤ e
  · simp only [if_pos nonneg, if_true]
    rw [Int.natAbs_of_nonneg nonneg]
  · simp only [if_neg nonneg]
    rw [Int.ofNat_natAbs_of_nonpos (by omega)]
    simp

/-- A literal of the digits of a value that reads as `x`, read with the sign of `x`, is `x`. -/
theorem floatLiteral_of_nearest {x : Binary64} (finite : x.isFinite = true) (nonzero : 0 < x.significand)
    {digits : Nat} {exponent : Int} (near : x.Nearest (digits * 10 ^ exponent)) (offset : Nat) :
    floatLiteral x.negative digits exponent offset = .ok (.float x finite) := by
  have positive := near.pos nonzero
  have digits_pos : 0 < digits := by
    rcases Nat.eq_zero_or_pos digits with zero | pos
    · rw [zero] at positive; simp at positive
    · exact pos
  unfold floatLiteral
  rw [Binary64.ofDecimal_eq_of_nearest ((Binary64.isFinite_iff x).mp finite) nonzero digits_pos near,
    Binary64.ofFields_fields]
  simp [finite]

/-- A literal of zero digits, read with the sign of a zero, is that zero. -/
theorem floatLiteral_zero {x : Binary64} (finite : x.isFinite = true) (zero : x.isZero = true)
    (exponent : Int) (offset : Nat) :
    floatLiteral x.negative 0 exponent offset = .ok (.float x finite) := by
  have fields : x.biasedExponent = 0 ∧ x.fraction = 0 := by simpa [Binary64.isZero] using zero
  have same : Binary64.ofFields x.negative 0 0 = x := by
    conv_rhs => rw [← Binary64.ofFields_fields x, fields.1, fields.2]
  simp [floatLiteral, Binary64.ofDecimal, same, finite]

theorem significand_pos {x : Binary64} (nonzero : x.isZero = false) : 0 < x.significand := by
  by_cases sub : x.biasedExponent = 0
  · rw [Binary64.significand_of_subnormal sub]
    by_contra none
    simp [Binary64.isZero, sub, show x.fraction = 0 by omega] at nonzero
  · rw [Binary64.significand_of_normal sub]; omega

/-- A value that starts with a digit is read as a number. -/
theorem readValue_digit {h : Char} (digit : isDigit h = true) (fuel : Nat) (room : Option Nat)
    (r : List Char) (offset : Nat) :
    readValue (fuel + 1) room ⟨h :: r, offset⟩ =
      (readNumber false ⟨h :: r, offset⟩).map fun (n, c') => (Json.number n, c') := by
  have not_blank : isBlank h = false := by
    rw [isDigit_eq, isAsciiDigit_iff] at digit
    simp only [isBlank, Bool.or_eq_false_iff, beq_eq_false_iff_ne, ne_eq]
    refine ⟨⟨⟨?_, ?_⟩, ?_⟩, ?_⟩ <;> intro same <;> rw [same] at digit <;> simp at digit
  have skip : skipBlank (h :: r) offset = ⟨h :: r, offset⟩ := by simp [skipBlank, not_blank]
  simp only [readValue, skip]
  split
  case h_1 same => exact absurd same (List.cons_ne_nil h r)
  case h_2 | h_3 | h_4 | h_5 | h_6 | h_7 | h_8 =>
    rename_i same
    obtain ⟨rfl, -⟩ := List.cons.inj same
    exact absurd digit (by decide)
  case h_9 =>
    rename_i same
    obtain ⟨rfl, -⟩ := List.cons.inj same
    rw [if_pos digit]

end JsonReader

open JsonReader

namespace Binary64

/-- A literal without its sign that starts with a digit and reads as `x`, whatever follows it
that cannot continue a number. -/
def LiteralOf (x : Binary64) (finite : x.isFinite = true) (body : List Char) : Prop :=
  (∃ h t, body = h :: t ∧ isDigit h = true) ∧
    ∀ rest, NumberEnd rest → ∀ offset, ∃ offset',
      readNumber x.negative ⟨body ++ rest, offset⟩ = .ok (.float x finite, ⟨rest, offset'⟩)

/-- Every literal of the value of `d`, read with the sign of `x`, is `x`. -/
def LiteralsRead (x : Binary64) (finite : x.isFinite = true) (d : Decimal) : Prop :=
  ∀ (digits : Nat) (exponent : Int), (digits : ℚ) * 10 ^ exponent = d.value → ∀ offset,
    floatLiteral x.negative digits exponent offset = .ok (.float x finite)

section Layouts

variable {x : Binary64} {finite : x.isFinite = true} {d : Decimal} {lead : Nat} {t : List Char}

theorem pointPosition_eq (d : Decimal) : d.pointPosition = (decimalDigits d.digits).length + d.exponent := by
  rw [Decimal.pointPosition, length_decimalDigits]

/-- `0.`, then zeros and the digits, when the point lies before the first digit. -/
theorem literalOf_fraction (reads : LiteralsRead x finite d) (ds_eq : decimalDigits d.digits = digitChar lead :: t)
    (small : d.pointPosition ≤ 0) :
    LiteralOf x finite ('0' :: '.' :: (List.replicate (-d.pointPosition).toNat '0' ++ decimalDigits d.digits)) := by
  have fraction : ∀ c ∈ List.replicate (-d.pointPosition).toNat '0' ++ decimalDigits d.digits, isDigit c = true := by
    intro c member
    rcases List.mem_append.mp member with padding | digit
    · rw [List.eq_of_mem_replicate padding]; rfl
    · exact isAsciiDigit_of_mem_decimalDigits digit
  refine ⟨⟨_, _, rfl, rfl⟩, fun rest ends offset => ?_⟩
  obtain ⟨offset', read⟩ := readNumber_point x.negative wholeDigits_zero fraction (by simp [ds_eq]) ends offset
  refine ⟨offset', ?_⟩
  rw [show '0' :: '.' :: (List.replicate (-d.pointPosition).toNat '0' ++ decimalDigits d.digits) ++ rest =
      ['0'] ++ '.' :: ((List.replicate (-d.pointPosition).toNat '0' ++ decimalDigits d.digits) ++ rest) by simp,
    read, reads]
  · rfl
  · have point := pointPosition_eq d
    rw [digitsValue_append, digitsValue_replicate_zero, digitsValue_decimalDigits, Decimal.value]
    simp only [show digitsValue ['0'] = 0 from rfl, zero_mul, zero_add, List.length_append, List.length_replicate]
    push_cast
    rw [show -(((-d.pointPosition).toNat : ℤ) + (decimalDigits d.digits).length) = d.exponent by omega]

/-- The digits, zeros up to the point, and `.0`, when the point lies at or after the last digit. -/
theorem literalOf_whole (reads : LiteralsRead x finite d) (ds_eq : decimalDigits d.digits = digitChar lead :: t)
    (lead_pos : 0 < lead) (lead_lt : lead < 10) (after : 0 < d.pointPosition)
    (whole : (decimalDigits d.digits).length ≤ d.pointPosition.toNat) :
    LiteralOf x finite (decimalDigits d.digits ++
      List.replicate (d.pointPosition.toNat - (decimalDigits d.digits).length) '0' ++ ['.', '0']) := by
  set ds := decimalDigits d.digits with ds_def
  set zeros := List.replicate (d.pointPosition.toNat - ds.length) '0'
  have integral : WholeDigits (ds ++ zeros) := by
    refine ⟨fun c member => ?_, .inr ⟨_, t ++ zeros, by rw [ds_eq]; rfl, digitChar_ne_zero lead_pos lead_lt⟩⟩
    rcases List.mem_append.mp member with digit | zero
    · exact isAsciiDigit_of_mem_decimalDigits digit
    · rw [List.eq_of_mem_replicate zero]; rfl
  have zero_digit : ∀ c ∈ ['0'], isDigit c = true := by simp [isDigit_eq, isAsciiDigit_iff]
  refine ⟨⟨digitChar lead, t ++ zeros ++ ['.', '0'], by rw [ds_eq]; rfl, isAsciiDigit_digitChar lead_lt⟩,
    fun rest ends offset => ?_⟩
  obtain ⟨offset', read⟩ := readNumber_point x.negative integral zero_digit (by simp) ends offset
  refine ⟨offset', ?_⟩
  rw [show ds ++ zeros ++ ['.', '0'] ++ rest = (ds ++ zeros) ++ '.' :: (['0'] ++ rest) by simp, read, reads]
  · rfl
  · have point : d.pointPosition = ds.length + d.exponent := pointPosition_eq d
    rw [digitsValue_append, digitsValue_replicate_zero, ds_def, digitsValue_decimalDigits, Decimal.value,
      show d.exponent = ((d.pointPosition.toNat - ds.length : ℕ) : ℤ) by omega]
    simp only [zeros, show digitsValue ['0'] = 0 from rfl, List.length_replicate, List.length_singleton, add_zero,
      pow_one]
    push_cast
    rw [zpow_neg_one, zpow_natCast]
    field_simp

/-- The digits with the point among them. -/
theorem literalOf_pointed (reads : LiteralsRead x finite d) (ds_eq : decimalDigits d.digits = digitChar lead :: t)
    (lead_pos : 0 < lead) (lead_lt : lead < 10) (after : 0 < d.pointPosition)
    (inside : d.pointPosition.toNat < (decimalDigits d.digits).length) :
    LiteralOf x finite ((decimalDigits d.digits).take d.pointPosition.toNat ++
      '.' :: (decimalDigits d.digits).drop d.pointPosition.toNat) := by
  set ds := decimalDigits d.digits with ds_def
  set k := d.pointPosition.toNat
  obtain ⟨j, some_whole⟩ : ∃ j, k = j + 1 := ⟨k - 1, by omega⟩
  have digits : ∀ c ∈ ds, isDigit c = true := fun c member => isAsciiDigit_of_mem_decimalDigits member
  have integral : WholeDigits (ds.take k) := by
    refine ⟨fun c member => digits c (List.mem_of_mem_take member), .inr ⟨digitChar lead, t.take j, ?_,
      digitChar_ne_zero lead_pos lead_lt⟩⟩
    rw [ds_eq, some_whole, List.take_succ_cons]
  have fraction : ∀ c ∈ ds.drop k, isDigit c = true := fun c member => digits c (List.mem_of_mem_drop member)
  have some_fraction : ds.drop k ≠ [] := by
    rw [Ne, List.drop_eq_nil_iff]; omega
  refine ⟨⟨digitChar lead, t.take j ++ '.' :: ds.drop k, by rw [ds_eq, some_whole, List.take_succ_cons]; rfl,
    isAsciiDigit_digitChar lead_lt⟩, fun rest ends offset => ?_⟩
  obtain ⟨offset', read⟩ := readNumber_point x.negative integral fraction some_fraction ends offset
  refine ⟨offset', ?_⟩
  rw [show ds.take k ++ '.' :: ds.drop k ++ rest = ds.take k ++ '.' :: (ds.drop k ++ rest) by simp, read, reads]
  · rfl
  · have point : d.pointPosition = ds.length + d.exponent := pointPosition_eq d
    rw [← digitsValue_append, List.take_append_drop, ds_def, digitsValue_decimalDigits, Decimal.value,
      List.length_drop, show -((ds.length - k : ℕ) : ℤ) = d.exponent by omega]

/-- One digit, then the exponent, when only one digit is significant. -/
theorem literalOf_oneDigit (reads : LiteralsRead x finite d) (ds_eq : decimalDigits d.digits = [digitChar lead])
    (lead_pos : 0 < lead) (lead_lt : lead < 10) (range : (d.pointPosition - 1).natAbs ≤ 2147483647) :
    LiteralOf x finite (digitChar lead :: 'e' :: (if 0 ≤ d.pointPosition - 1 then '+' else '-') ::
      decimalDigits (d.pointPosition - 1).natAbs) := by
  have lead_digit : isDigit (digitChar lead) = true := isAsciiDigit_digitChar lead_lt
  have single : WholeDigits [digitChar lead] :=
    ⟨by simpa using lead_digit, .inr ⟨_, [], rfl, digitChar_ne_zero lead_pos lead_lt⟩⟩
  refine ⟨⟨_, _, rfl, lead_digit⟩, fun rest ends offset => ?_⟩
  obtain ⟨offset', read⟩ := readNumber_exponent x.negative
    ((if 0 ≤ d.pointPosition - 1 then '+' else '-') :: (decimalDigits (d.pointPosition - 1).natAbs ++ rest)) single offset
  obtain ⟨offset'', read'⟩ := readExponent_signed x.negative (digitsValue [digitChar lead]) 0 range ends offset'
  refine ⟨offset'', ?_⟩
  rw [show digitChar lead :: 'e' :: (if 0 ≤ d.pointPosition - 1 then '+' else '-') ::
      decimalDigits (d.pointPosition - 1).natAbs ++ rest = [digitChar lead] ++ 'e' ::
      (if 0 ≤ d.pointPosition - 1 then '+' else '-') :: (decimalDigits (d.pointPosition - 1).natAbs ++ rest) by simp,
    read, read', reads]
  · rfl
  · have point := pointPosition_eq d
    rw [ds_eq] at point
    rw [Decimal.value, ← digitsValue_decimalDigits d.digits, ds_eq]
    simp only [List.length_singleton, Nat.cast_one] at point
    rw [show d.pointPosition - 1 - ((0 : ℕ) : ℤ) = d.exponent by omega]

/-- The first digit, a point, the other digits, then the exponent. -/
theorem literalOf_scientific (reads : LiteralsRead x finite d) (ds_eq : decimalDigits d.digits = digitChar lead :: t)
    (lead_pos : 0 < lead) (lead_lt : lead < 10) (some_tail : t ≠ [])
    (range : (d.pointPosition - 1).natAbs ≤ 2147483647) :
    LiteralOf x finite (digitChar lead :: '.' :: (t ++ 'e' :: (if 0 ≤ d.pointPosition - 1 then '+' else '-') ::
      decimalDigits (d.pointPosition - 1).natAbs)) := by
  have lead_digit : isDigit (digitChar lead) = true := isAsciiDigit_digitChar lead_lt
  have single : WholeDigits [digitChar lead] :=
    ⟨by simpa using lead_digit, .inr ⟨_, [], rfl, digitChar_ne_zero lead_pos lead_lt⟩⟩
  have tail_digits : ∀ c ∈ t, isDigit c = true := fun c member =>
    isAsciiDigit_of_mem_decimalDigits (by rw [ds_eq]; exact List.mem_cons_of_mem _ member)
  refine ⟨⟨_, _, rfl, lead_digit⟩, fun rest ends offset => ?_⟩
  obtain ⟨offset', read⟩ := readNumber_point_exponent x.negative
    ((if 0 ≤ d.pointPosition - 1 then '+' else '-') :: (decimalDigits (d.pointPosition - 1).natAbs ++ rest))
    single tail_digits some_tail offset
  obtain ⟨offset'', read'⟩ := readExponent_signed x.negative
    (digitsValue [digitChar lead] * 10 ^ t.length + digitsValue t) t.length range ends offset'
  refine ⟨offset'', ?_⟩
  rw [show digitChar lead :: '.' :: (t ++ 'e' :: (if 0 ≤ d.pointPosition - 1 then '+' else '-') ::
      decimalDigits (d.pointPosition - 1).natAbs) ++ rest = [digitChar lead] ++ '.' :: (t ++ 'e' ::
      (if 0 ≤ d.pointPosition - 1 then '+' else '-') :: (decimalDigits (d.pointPosition - 1).natAbs ++ rest)) by simp,
    read, read', reads]
  · rfl
  · have point := pointPosition_eq d
    rw [ds_eq, List.length_cons] at point
    rw [← digitsValue_append, List.singleton_append, ← ds_eq, digitsValue_decimalDigits, Decimal.value]
    push_cast at point
    rw [show d.pointPosition - 1 - (t.length : ℤ) = d.exponent by omega]

end Layouts

/-- The text of a finite value: its sign, then a literal that reads back as the value. -/
theorem render_reads (x : Binary64) (finite : x.isFinite = true) :
    ∃ body : List Char, (x.render FloatFormat.json).toList = (if x.negative then ['-'] else []) ++ body ∧
      LiteralOf x finite body := by
  have sign : (if x.negative then "-" else "").toList = if x.negative then ['-'] else [] := by
    split <;> rfl
  unfold Binary64.render
  simp only [FloatFormat.json]
  generalize (if x.negative then "-" else "") = signText at sign ⊢
  generalize (if x.negative then ['-'] else []) = signList at sign ⊢
  by_cases zero : x.isZero = true
  · rw [if_pos zero]
    have zero_digit : ∀ c ∈ ['0'], isDigit c = true := by simp [isDigit_eq, isAsciiDigit_iff]
    refine ⟨['0', '.', '0'], by simp [sign], ⟨_, _, rfl, rfl⟩, fun rest ends offset => ?_⟩
    obtain ⟨offset', read⟩ := readNumber_point x.negative wholeDigits_zero zero_digit (by simp) ends offset
    have value : digitsValue ['0'] * 10 ^ ['0'].length + digitsValue ['0'] = 0 := rfl
    exact ⟨offset', by rw [show ['0', '.', '0'] ++ rest = ['0'] ++ '.' :: (['0'] ++ rest) from rfl, read,
      value, floatLiteral_zero finite zero]; rfl⟩
  rw [if_neg zero]
  have nonzero := significand_pos (Bool.eq_false_iff.mpr zero)
  -- the shortest digits read back as `x`, whatever their layout
  set d := x.shortest with d_def
  have reads : LiteralsRead x finite d := fun digits exponent same offset =>
    floatLiteral_of_nearest finite nonzero (same ▸ Binary64.shortest_nearest nonzero) offset
  obtain ⟨lead, t, ds_eq, lead_pos, lead_lt⟩ := decimalDigits_lead (Binary64.shortest_digits_pos nonzero)
  set k := d.pointPosition with k_def
  by_cases positional : -4 ≤ k ∧ k ≤ 16
  · simp only [positional, and_self, if_true]
    by_cases small : k ≤ 0
    · simp only [if_pos small]
      exact ⟨_, by simp [sign, k_def], literalOf_fraction reads ds_eq small⟩
    simp only [small, if_false]
    by_cases whole : (decimalDigits d.digits).length ≤ k.toNat
    · simp only [whole, if_true]
      exact ⟨_, by simp [sign, k_def], literalOf_whole reads ds_eq lead_pos lead_lt (by omega) whole⟩
    · simp only [whole, if_false]
      exact ⟨_, by simp [sign, k_def], literalOf_pointed reads ds_eq lead_pos lead_lt (by omega) (by omega)⟩
  · simp only [positional, if_false]
    -- the value lies within the binary64 range, so its exponent has few digits
    have bounds : (10 : ℚ) ^ (k - 1) ≤ d.value ∧ d.value < 10 ^ k :=
      Decimal.value_bounds d (Binary64.shortest_digits_pos nonzero)
    have range := (Binary64.shortest_nearest nonzero).bounds ((Binary64.isFinite_iff x).mp finite) nonzero
    have k_high : k ≤ 309 := by
      by_contra above
      have : (10 : ℚ) ^ (309 : ℤ) ≤ 10 ^ (k - 1) := zpow_le_zpow_right₀ (by norm_num) (by omega)
      exact lt_irrefl _ (((this.trans bounds.1).trans_lt range.2).trans Binary64.two_zpow_1024_lt)
    have k_low : -330 ≤ k := by
      by_contra below
      have : (10 : ℚ) ^ k ≤ 10 ^ (-331 : ℤ) := zpow_le_zpow_right₀ (by norm_num) (by omega)
      exact lt_irrefl _ ((range.1.trans_lt bounds.2).trans_le this |>.trans Binary64.ten_zpow_neg_331_lt)
    have mark_text (c : Prop) [Decidable c] : (if c then "+" else "-").toList = [if c then '+' else '-'] := by
      split <;> rfl
    have head_text : (String.ofList (decimalDigits d.digits).head?.toList).toList = [digitChar lead] := by
      rw [ds_eq]; simp
    by_cases one : (decimalDigits d.digits).length ≤ 1
    · have no_tail : t = [] := by
        rw [ds_eq, List.length_cons] at one
        exact List.eq_nil_of_length_eq_zero (by omega)
      simp only [one, if_true]
      exact ⟨_, by simp [sign, head_text, mark_text, k_def],
        literalOf_oneDigit reads (by rw [ds_eq, no_tail]) lead_pos lead_lt (by omega)⟩
    · simp only [one, if_false]
      have some_tail : t ≠ [] := fun none => one (by rw [ds_eq, none]; rfl)
      have tail_eq : (decimalDigits d.digits).tail = t := by rw [ds_eq]; rfl
      exact ⟨_, by simp [sign, head_text, mark_text, tail_eq, k_def],
        literalOf_scientific reads ds_eq lead_pos lead_lt some_tail (by omega)⟩

end Binary64

/-- The text of a number: a sign, then a literal that reads back as the number. -/
theorem Number.render_reads (number : Number) :
    ∃ negative body, number.render.toList = (if negative then ['-'] else []) ++ body ∧
      (∃ h t, body = h :: t ∧ isDigit h = true) ∧
      ∀ rest, NumberEnd rest → ∀ offset, ∃ offset',
        readNumber negative ⟨body ++ rest, offset⟩ = .ok (number, ⟨rest, offset'⟩) := by
  have starts (n : Nat) : ∃ h t, decimalDigits n = h :: t ∧ isDigit h = true := by
    obtain ⟨digits, lead⟩ := wholeDigits_decimalDigits n
    obtain ⟨h, t, eq⟩ : ∃ h t, decimalDigits n = h :: t := by
      rcases lead with zero | ⟨h, t, eq, -⟩
      · exact ⟨'0', [], zero⟩
      · exact ⟨h, t, eq⟩
    exact ⟨h, t, eq, digits h (by rw [eq]; exact List.mem_cons_self)⟩
  cases number with
  | natural u =>
    refine ⟨false, decimalDigits u.toNat, by simp [Number.render], starts _, fun rest ends offset => ?_⟩
    obtain ⟨offset', read⟩ := readNumber_integer false (wholeDigits_decimalDigits u.toNat) ends offset
    refine ⟨offset', ?_⟩
    rw [read, digitsValue_decimalDigits]
    simp [integerLiteral, u.toNat_lt]
    rfl
  | negative i isNeg =>
    have below : i.toInt < 0 := Int64.lt_iff_toInt_lt.mp isNeg
    have magnitude : -(i.toInt.natAbs : ℤ) = i.toInt := by omega
    have fits : i.toInt.natAbs ≤ 2 ^ 63 := by have := i.le_toInt; omega
    refine ⟨true, decimalDigits i.toInt.natAbs, by simp [Number.render], starts _,
      fun rest ends offset => ?_⟩
    obtain ⟨offset', read⟩ := readNumber_integer true (wholeDigits_decimalDigits i.toInt.natAbs) ends offset
    refine ⟨offset', ?_⟩
    rw [read, digitsValue_decimalDigits]
    simp only [integerLiteral, Nat.pow_eq, magnitude, Int64.ofInt_toInt, if_true]
    rw [if_pos ⟨by omega, fits⟩, dif_pos isNeg]
    rfl
  | float x finite =>
    obtain ⟨body, text, first, reads⟩ := Binary64.render_reads x finite
    exact ⟨x.negative, body, text, first, reads⟩

/-- A number is read back from its text, whatever follows that cannot continue it. -/
theorem Number.readValue_render (number : Number) (fuel : Nat) (room : Option Nat) {rest : List Char}
    (ends : NumberEnd rest) (offset : Nat) :
    ∃ offset', readValue (fuel + 1) room ⟨number.render.toList ++ rest, offset⟩ =
      .ok (.number number, ⟨rest, offset'⟩) := by
  obtain ⟨negative, body, text, ⟨h, t, rfl, digit⟩, reads⟩ := number.render_reads
  rw [text]
  cases negative with
  | true =>
    obtain ⟨offset', read⟩ := reads rest ends (offset + 1)
    rw [List.cons_append] at read
    refine ⟨offset', ?_⟩
    simp [readValue, skipBlank, isBlank, read]
    rfl
  | false =>
    obtain ⟨offset', read⟩ := reads rest ends offset
    refine ⟨offset', ?_⟩
    rw [if_neg Bool.false_ne_true, List.nil_append, List.cons_append, readValue_digit digit,
      ← List.cons_append, read]
    rfl

end BlockCodec
