import BlockCodec.Proofs.CivilOrder

namespace BlockCodec.Calendar

def daysInYear (year : Int) : Nat := if isLeapYear year then 366 else 365

def daysInYears (start : Int) : Nat → Nat
  | 0 => 0
  | n + 1 => daysInYears start n + daysInYear (start + n)

/-- The days from 1970-01-01 to 1 January of a year: the lengths of the years from 1970 up to it,
counted negative for a year before 1970. -/
def daysToYear (year : Int) : Int :=
  if 1970 ≤ year then daysInYears 1970 (year - 1970).toNat else -(daysInYears year (1970 - year).toNat : Int)

/-- The days from 1 January to the first day of a month: the lengths of the months before it. -/
def daysToMonth (year : Int) : Nat → Nat
  | 0 => 0
  | month + 1 => daysToMonth year month + daysInMonth year month

/-- The days from 1970-01-01 to a date, by the lengths of the years and months between. -/
def dayCount (year : Int) (month day : Nat) : Int := daysToYear year + daysToMonth year month + day - 1

theorem daysInYears_succ_start (start : Int) (n : Nat) :
    daysInYears start (n + 1) = daysInYear start + daysInYears (start + 1) n := by
  induction n with
  | zero => simp [daysInYears]
  | succ n ih =>
    rw [daysInYears, ih, daysInYears, Nat.add_assoc, add_assoc, Int.add_comm 1 (n : Int)]
    rfl

theorem daysToYear_succ (year : Int) : daysToYear (year + 1) = daysToYear year + daysInYear year := by
  unfold daysToYear
  rcases le_or_gt 1970 year with after | before
  · have count : (year + 1 - 1970).toNat = (year - 1970).toNat + 1 := by omega
    have start : (1970 : Int) + (year - 1970).toNat = year := by omega
    rw [if_pos (by omega), if_pos after, count, daysInYears, start, Nat.cast_add]
  · have count : (1970 - year).toNat = (1970 - (year + 1)).toNat + 1 := by omega
    rw [if_neg (by omega : ¬1970 ≤ year), count, daysInYears_succ_start]
    by_cases last : year + 1 = 1970
    · rw [if_pos (by omega), last]
      simp [daysInYears]
    · rw [if_neg (by omega)]
      push_cast
      ring

theorem daysToMonth_succ (year : Int) (month : Nat) :
    daysToMonth year (month + 1) = daysToMonth year month + daysInMonth year month := rfl

theorem daysToMonth_thirteen (year : Int) : daysToMonth year 13 = daysInYear year := by
  simp only [daysToMonth, daysInYear, daysInMonth]
  split <;> rfl

theorem le_daysInMonth (year : Int) {month : Nat} (low : 1 ≤ month) (high : month ≤ 12) :
    28 ≤ daysInMonth year month := by
  interval_cases month
  case «2» => simp only [daysInMonth]; split <;> omega
  all_goals simp [daysInMonth]

/-- Outside February a month's length is the distance between month starts counted from March. -/
theorem monthStart_next (year : Int) {month : Nat} (low : 1 ≤ month) (high : month ≤ 12) (notFebruary : month ≠ 2) :
    monthStart (marchMonth month + 1) = monthStart (marchMonth month) + daysInMonth year month := by
  interval_cases month
  case «2» => exact absurd rfl notFebruary
  all_goals rfl

theorem monthFirstDay_next (year : Int) {month : Nat} (low : 1 ≤ month) (high : month ≤ 12) :
    monthFirstDay (monthIndex year month + 1) = monthFirstDay (monthIndex year month) + daysInMonth year month := by
  have marchOf := monthIndex_mod year low high
  rw [monthFirstDay_succ, monthFirstDay, monthIndex_div year low high, marchOf]
  by_cases february : month = 2
  · -- a February ends its March-based year, which ends on a leap day exactly in a leap year
    subst february
    have last : monthIndex year 2 % 12 = 11 := by unfold monthIndex; omega
    have start : monthStart (marchMonth 2) = 337 := rfl
    rw [if_pos last, if_pos (le_refl 2), yearLength, start]
    have leap := endsInLeapDay_iff (year - 1)
    rw [sub_add_cancel] at leap
    simp only [daysInMonth]
    by_cases isLeap : isLeapYear year = true
    · rw [if_pos (leap.mpr isLeap), if_pos isLeap]
      omega
    · rw [if_neg (mt leap.mp isLeap), if_neg isLeap]
      omega
  · have notLast : ¬monthIndex year month % 12 = 11 := by
      unfold monthIndex
      omega
    rw [if_neg notLast, monthStart_next year low high february]
    omega

theorem daysFromCivil_add_one_eq_monthFirstDay (year : Int) {month : Nat} (low : 1 ≤ month) (high : month ≤ 12) :
    daysFromCivil year month 1 + epochDays = monthFirstDay (monthIndex year month) := by
  have first : ValidDate year month 1 := ⟨low, high, le_refl 1, by have := le_daysInMonth year low high; omega⟩
  rw [daysFromCivil_eq_monthFirstDay first]
  simp

theorem daysFromCivil_of_day {year : Int} {month day : Nat} (valid : ValidDate year month day) :
    daysFromCivil year month day = daysFromCivil year month 1 + (day - 1 : Nat) := by
  have start := daysFromCivil_add_one_eq_monthFirstDay year valid.1 valid.2.1
  have atDay := daysFromCivil_eq_monthFirstDay valid
  omega

theorem daysFromCivil_of_month (year : Int) {month : Nat} (low : 1 ≤ month) (high : month ≤ 12) :
    daysFromCivil year month 1 = daysFromCivil year 1 1 + daysToMonth year month := by
  induction month, low using Nat.le_induction with
  | base => simp [daysToMonth, daysInMonth]
  | succ month first ih =>
    have next := monthFirstDay_next year first (by omega)
    have here := daysFromCivil_add_one_eq_monthFirstDay year first (by omega)
    have there := daysFromCivil_add_one_eq_monthFirstDay year (by omega : 1 ≤ month + 1) high
    have step : monthIndex year (month + 1) = monthIndex year month + 1 := by unfold monthIndex; omega
    rw [daysToMonth_succ year month, Nat.cast_add, ← add_assoc, ← ih (by omega)]
    rw [step] at there
    omega

theorem daysFromCivil_next_year (year : Int) :
    daysFromCivil (year + 1) 1 1 = daysFromCivil year 1 1 + daysInYear year := by
  have next := monthFirstDay_next year (by decide : 1 ≤ 12) le_rfl
  have december := daysFromCivil_add_one_eq_monthFirstDay year (by decide : 1 ≤ 12) le_rfl
  have january := daysFromCivil_add_one_eq_monthFirstDay (year + 1) le_rfl (by decide : 1 ≤ 12)
  have step : monthIndex (year + 1) 1 = monthIndex year 12 + 1 := by unfold monthIndex; omega
  have months := daysFromCivil_of_month year (by decide : 1 ≤ 12) le_rfl
  have whole : (daysInYear year : Int) = daysToMonth year 12 + daysInMonth year 12 := by
    rw [← daysToMonth_thirteen, daysToMonth_succ year 12, Nat.cast_add]
  rw [step] at january
  omega

theorem daysFromCivil_new_year (year : Int) : daysFromCivil year 1 1 = daysToYear year := by
  -- both sides vanish in 1970 and grow by the year's length from one year to the next
  obtain ⟨n, rfl⟩ : ∃ n : Int, year = 1970 + n := ⟨year - 1970, by ring⟩
  induction n using Int.induction_on with
  | zero => simp [daysToYear, daysInYears]; decide
  | succ n ih =>
    rw [← add_assoc, daysFromCivil_next_year, daysToYear_succ, ih]
  | pred n ih =>
    have step := daysFromCivil_next_year (1970 + -n - 1)
    have count := daysToYear_succ (1970 + -n - 1)
    rw [sub_add_cancel] at step count
    rw [← add_sub_assoc]
    omega

/-- The era arithmetic counts the days of every valid date exactly. -/
theorem daysFromCivil_eq_dayCount {year : Int} {month day : Nat} (valid : ValidDate year month day) :
    daysFromCivil year month day = dayCount year month day := by
  rw [daysFromCivil_of_day valid, daysFromCivil_of_month year valid.1 valid.2.1, daysFromCivil_new_year,
    dayCount]
  have first := valid.2.2.1
  omega

end BlockCodec.Calendar

namespace BlockCodec

open Calendar

namespace CivilTime

/-- The exact milliseconds from the epoch to a civil time. -/
def exactMillis (c : CivilTime) : Int :=
  dayCount c.year c.month c.day * 86400000 + (c.hour * 3600000 + c.minute * 60000 + c.second * 1000 + c.milli)

/-- The two 64-bit steps of building an instant: the day's milliseconds, then the time of day
added. -/
def fitsIn64 (c : CivilTime) : Bool :=
  fitsInt64 (dayCount c.year c.month c.day * 86400000) && fitsInt64 c.exactMillis

theorem build_eq {c : CivilTime} (valid : c.Valid) :
    c.build = if c.fitsIn64 then Instant.ofMillis c.exactMillis else .error (.outOfRange int64Max) := by
  obtain ⟨⟨lowMonth, highMonth, lowDay, highDay⟩, hour, minute, second, milli⟩ := valid
  have counted := daysFromCivil_eq_dayCount ⟨lowMonth, highMonth, lowDay, highDay⟩
  simp only [build, Instant.ofCivil, exactMillis, fitsIn64, counted, millisPerDay, millisPerHour,
    millisPerMinute, millisPerSecond]
  rw [if_neg (by omega), if_neg (by omega), if_neg (by omega), if_neg (by omega), if_neg (by omega),
    if_neg (by omega)]
  rfl

/-- A count within range fits in 64 bits at both steps. -/
theorem fitsIn64_of_within {c : CivilTime} (valid : c.Valid) (within : c.exactMillis.natAbs ≤ maxMillis) :
    c.fitsIn64 = true := by
  obtain ⟨-, hour, minute, second, milli⟩ := valid
  simp only [fitsIn64, exactMillis, Bool.and_eq_true, Instant.fitsInt64_iff] at within ⊢
  unfold maxMillis at within
  omega

/-- The 64-bit steps overflow only for a year more than `10 ^ 8` years from year 0. -/
theorem year_far_of_overflow {c : CivilTime} (valid : c.Valid) (overflow : c.fitsIn64 = false) :
    10 ^ 8 < c.year.natAbs := by
  by_contra near
  obtain ⟨date, hour, minute, second, milli⟩ := valid
  -- within `10 ^ 8` years the day count stays within `4 * 10 ^ 10` days
  have fits : c.fitsIn64 = true := by
    obtain ⟨low, high⟩ := daysFromCivil_within_era date
    rw [daysFromCivil_eq_dayCount date] at low high
    have shifted : (if c.month ≤ 2 then c.year - 1 else c.year) = c.year - 1 ∨
        (if c.month ≤ 2 then c.year - 1 else c.year) = c.year := by
      split
      · exact .inl rfl
      · exact .inr rfl
    generalize (if c.month ≤ 2 then c.year - 1 else c.year) = y at low high shifted
    simp only [fitsIn64, exactMillis, Bool.and_eq_true, Instant.fitsInt64_iff]
    unfold epochDays at low high
    omega
  rw [fits] at overflow
  cases overflow

theorem build_eq_ok_iff {c : CivilTime} (valid : c.Valid) {t : Instant} :
    c.build = .ok t ↔ t.millis = c.exactMillis := by
  constructor
  · intro built
    obtain ⟨date, -, -, -, -, millisIs⟩ := Instant.ofCivil_eq_ok.mp built
    rw [millisIs, daysFromCivil_eq_dayCount date]
    rfl
  · intro millisIs
    rw [build_eq valid, if_pos (fitsIn64_of_within valid (millisIs ▸ t.inRange)), Instant.ofMillis_eq_ok]
    exact millisIs

theorem exists_build_eq_ok_iff {c : CivilTime} (valid : c.Valid) :
    (∃ t, c.build = .ok t) ↔ c.exactMillis.natAbs ≤ maxMillis := by
  constructor
  · rintro ⟨t, built⟩
    exact (build_eq_ok_iff valid).mp built ▸ t.inRange
  · intro within
    exact ⟨⟨c.exactMillis, within⟩, (build_eq_ok_iff valid).mpr rfl⟩

theorem build_eq_error_of_beyond {c : CivilTime} (valid : c.Valid) (beyond : maxMillis < c.exactMillis.natAbs) :
    c.build = .error (.outOfRange (if c.fitsIn64 then c.exactMillis else int64Max)) := by
  rw [build_eq valid]
  split
  · rw [Instant.ofMillis, dif_neg (by omega)]
  · rfl

end CivilTime

namespace Instant

theorem exists_ofMillis_eq_ok_iff (millis : Int) : (∃ t, ofMillis millis = .ok t) ↔ millis.natAbs ≤ maxMillis := by
  constructor
  · rintro ⟨t, read⟩
    exact ofMillis_eq_ok.mp read ▸ t.inRange
  · intro within
    exact ⟨⟨millis, within⟩, ofMillis_eq_ok.mpr rfl⟩

theorem ofMillis_eq_error_of_beyond {millis : Int} (beyond : maxMillis < millis.natAbs) :
    ofMillis millis = .error (.outOfRange millis) := by
  rw [ofMillis, dif_neg (by omega)]

end Instant

/-- Building an instant from valid civil parts succeeds exactly when the exact count of
milliseconds from the epoch lies within `±8.64e15`, and gives that count; beyond the range it
reports the count, or the largest 64-bit value when the count overflows 64 bits on the way, which
needs a year more than `10 ^ 8` years from 0. An instant is read from any count of milliseconds
exactly when the count lies within range. -/
theorem build_range_exact :
    (∀ c : CivilTime, c.Valid →
      (∀ t : Instant, c.build = .ok t ↔ t.millis = c.exactMillis) ∧
      ((∃ t, c.build = .ok t) ↔ -(maxMillis : Int) ≤ c.exactMillis ∧ c.exactMillis ≤ maxMillis) ∧
      (maxMillis < c.exactMillis.natAbs →
        c.build = .error (.outOfRange (if c.fitsIn64 then c.exactMillis else int64Max))) ∧
      (c.fitsIn64 = false → 10 ^ 8 < c.year.natAbs)) ∧
    ∀ millis : Int, ((∃ t, Instant.ofMillis millis = .ok t) ↔ millis.natAbs ≤ maxMillis) ∧
      (maxMillis < millis.natAbs → Instant.ofMillis millis = .error (.outOfRange millis)) := by
  refine ⟨fun c valid => ⟨fun t => c.build_eq_ok_iff valid, ?_, c.build_eq_error_of_beyond valid,
    c.year_far_of_overflow valid⟩, fun millis => ⟨Instant.exists_ofMillis_eq_ok_iff millis,
      Instant.ofMillis_eq_error_of_beyond⟩⟩
  rw [c.exists_build_eq_ok_iff valid]
  omega

/-- The last instant of the range, 275760-09-13T00:00:00.000Z, lies exactly `8.64e15` ms after
the epoch and is built. -/
theorem build_range_exact_at_last_instant :
    (⟨275760, 9, 13, 0, 0, 0, 0⟩ : CivilTime).Valid ∧
      ((∃ t, (⟨275760, 9, 13, 0, 0, 0, 0⟩ : CivilTime).build = .ok t) ↔
        -(maxMillis : Int) ≤ (⟨275760, 9, 13, 0, 0, 0, 0⟩ : CivilTime).exactMillis ∧
          (⟨275760, 9, 13, 0, 0, 0, 0⟩ : CivilTime).exactMillis ≤ maxMillis) :=
  have valid : (⟨275760, 9, 13, 0, 0, 0, 0⟩ : CivilTime).Valid := by
    unfold CivilTime.Valid ValidDate
    decide
  ⟨valid, (build_range_exact.1 _ valid).2.1⟩

end BlockCodec
