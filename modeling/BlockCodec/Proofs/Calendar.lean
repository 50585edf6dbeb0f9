import Mathlib.Tactic.IntervalCases
import BlockCodec.Calendar.Civil

namespace BlockCodec.Calendar

/-- Within a 400-year era, the year counted from 1 March of year `yoe` ends on a 29 February:
the civil year `yoe + 1` of the era is a leap year. -/
def endsInLeapDay (yoe : Nat) : Prop :=
  (yoe + 1) % 4 = 0 ∧ (yoe + 1) % 100 ≠ 0 ∨ (yoe + 1) % 400 = 0

instance : DecidablePred endsInLeapDay := fun _ => inferInstanceAs (Decidable (_ ∨ _))

/-- The day of the era on which year `yoe` of the era starts (its 1 March). -/
def yearStart (yoe : Nat) : Nat := yoe * 365 + yoe / 4 - yoe / 100

/-- The number of days of year `yoe` of an era, from 1 March to the last day of February. -/
def yearLength (yoe : Nat) : Nat := if endsInLeapDay yoe then 366 else 365

/-- The year of the era that holds a day of the era, as the calendar computes it. -/
def yearOfEra (doe : Nat) : Nat := (doe - doe / 1460 + doe / 36524 - doe / 146096) / 365

/-- The day of a year, counted from 1 March, on which month `mp` (0 for March) starts. -/
def monthStart (mp : Nat) : Nat := (153 * mp + 2) / 5

/-- The month (0 for March) that holds a day of the year counted from 1 March. -/
def monthOfYear (doy : Nat) : Nat := (5 * doy + 2) / 153

def civilMonth (mp : Nat) : Nat := if mp < 10 then mp + 3 else mp - 9

def marchMonth (month : Nat) : Nat := if 2 < month then month - 3 else month + 9

/-- A date of the proleptic Gregorian calendar: a month from 1 to 12 and a day within it. -/
def ValidDate (year : Int) (month day : Nat) : Prop :=
  1 ≤ month ∧ month ≤ 12 ∧ 1 ≤ day ∧ day ≤ daysInMonth year month

theorem yearLength_bounds (yoe : Nat) : 365 ≤ yearLength yoe ∧ yearLength yoe ≤ 366 := by
  unfold yearLength
  split <;> omega

/-- The year-of-era formula inverts the day count of a year given in centuries, four-year
cycles and years. Only the last day of a four-year cycle, and of the era, lets the
divisions by 1460 and 36524 overshoot, and the corrections cancel there. -/
private theorem yearOfEra_cycles {c b a doy : Nat} (century : c < 4) (cycle : b < 25) (year : a < 4)
    (within : doy < yearLength (100 * c + 4 * b + a)) :
    yearOfEra (36524 * c + 1461 * b + 365 * a + doy) = 100 * c + 4 * b + a := by
  unfold yearOfEra
  generalize dayIs : 36524 * c + 1461 * b + 365 * a + doy = doe
  have short : doy ≤ 365 := Nat.le_of_lt_succ (Nat.lt_of_lt_of_le within (yearLength_bounds _).2)
  have leapDay : doy = 365 → a = 3 ∧ (b < 24 ∨ c = 3) := by
    intro last
    by_cases leap : endsInLeapDay (100 * c + 4 * b + a)
    · unfold endsInLeapDay at leap; omega
    · simp only [yearLength, if_neg leap] at within; omega
  have quadrennia : doe / 1460 = 25 * c + b + (if a = 3 ∧ 365 ≤ doy + 24 * c + b then 1 else 0) := by
    split <;> omega
  have centuries : doe / 36524 = c + (if doe = 146096 then 1 else 0) := by
    split <;> omega
  have eras : doe / 146096 = (if doe = 146096 then 1 else 0) := by
    split <;> omega
  rw [quadrennia, centuries, eras]
  split <;> split <;> omega

theorem yearOfEra_yearStart_add {yoe doy : Nat} (era : yoe < 400) (within : doy < yearLength yoe) :
    yearOfEra (yearStart yoe + doy) = yoe := by
  have cycles : yoe = 100 * (yoe / 100) + 4 * (yoe % 100 / 4) + yoe % 4 := by omega
  have start : yearStart yoe = 36524 * (yoe / 100) + 1461 * (yoe % 100 / 4) + 365 * (yoe % 4) := by
    unfold yearStart
    omega
  rw [cycles] at within
  rw [start, yearOfEra_cycles (by omega) (by omega) (by omega) within]
  omega

theorem yearStart_add_lt {yoe doy : Nat} (era : yoe < 400) (within : doy < yearLength yoe) :
    yearStart yoe + doy < 146097 := by
  unfold yearLength at within
  by_cases leap : endsInLeapDay yoe
  · rw [if_pos leap] at within
    unfold endsInLeapDay at leap
    unfold yearStart
    omega
  · rw [if_neg leap] at within
    unfold yearStart
    omega

/-- Every day of an era lies in one of its 400 years. -/
theorem exists_yearStart {doe : Nat} (bound : doe < 146097) :
    ∃ yoe doy, yoe < 400 ∧ doy < yearLength yoe ∧ doe = yearStart yoe + doy := by
  let c := min (doe / 36524) 3
  let b := (doe - 36524 * c) / 1461
  let a := min ((doe - 36524 * c - 1461 * b) / 365) 3
  have centuryBound : c ≤ 3 := Nat.min_le_right _ _
  have yearBound : a ≤ 3 := Nat.min_le_right _ _
  have centuryLe : 36524 * c ≤ doe := by omega
  have cycleBound : b ≤ 24 := by omega
  have quarter : (100 * c + 4 * b + a) / 4 = 25 * c + b := by omega
  have century : (100 * c + 4 * b + a) / 100 = c := by omega
  refine ⟨100 * c + 4 * b + a, doe - 36524 * c - 1461 * b - 365 * a, by omega, ?_,
    by unfold yearStart; omega⟩
  unfold yearLength
  split
  · omega
  · rename_i common
    unfold endsInLeapDay at common
    omega

theorem yearOfEra_spec {doe : Nat} (bound : doe < 146097) :
    yearOfEra doe < 400 ∧ yearStart (yearOfEra doe) ≤ doe ∧
      doe - yearStart (yearOfEra doe) < yearLength (yearOfEra doe) := by
  obtain ⟨yoe, doy, era, within, rfl⟩ := exists_yearStart bound
  rw [yearOfEra_yearStart_add era within]
  omega

theorem monthOfYear_monthStart_add {mp d : Nat} (within : monthStart mp + d < monthStart (mp + 1)) :
    monthOfYear (monthStart mp + d) = mp := by
  unfold monthStart at within
  unfold monthOfYear monthStart
  omega

theorem monthOfYear_spec {doy : Nat} (bound : doy < 366) :
    monthOfYear doy < 12 ∧ monthStart (monthOfYear doy) ≤ doy ∧ doy < monthStart (monthOfYear doy + 1) := by
  unfold monthOfYear monthStart
  omega

theorem civilMonth_marchMonth {month : Nat} (low : 1 ≤ month) (high : month ≤ 12) :
    civilMonth (marchMonth month) = month := by
  unfold civilMonth marchMonth
  split <;> split <;> omega

theorem marchMonth_civilMonth {mp : Nat} (year : mp < 12) : marchMonth (civilMonth mp) = mp := by
  unfold civilMonth marchMonth
  split <;> split <;> omega

theorem isLeapYear_iff (year : Int) :
    isLeapYear year = true ↔ year % 4 = 0 ∧ year % 100 ≠ 0 ∨ year % 400 = 0 := by
  simp [isLeapYear]

/-- The March-based year `y` of an era ends on a leap day exactly when the civil year
`y + 1` is a leap year. -/
theorem endsInLeapDay_iff (y : Int) : endsInLeapDay (y % 400).toNat ↔ isLeapYear (y + 1) = true := by
  rw [isLeapYear_iff]
  unfold endsInLeapDay
  omega

/-- The day count of a day given by its era and its day within the era. -/
theorem civilFromDays_era (era : Int) {doe : Nat} (bound : doe < 146097) :
    civilFromDays (era * 146097 + doe - epochDays) =
      let yoe := yearOfEra doe
      let doy := doe - yearStart yoe
      let mp := monthOfYear doy
      (if civilMonth mp ≤ 2 then yoe + era * 400 + 1 else yoe + era * 400, civilMonth mp,
        doy - monthStart mp + 1) := by
  have eraOf : (era * 146097 + doe - epochDays + epochDays) / 146097 = era := by omega
  have dayOf : ((era * 146097 + doe - epochDays + epochDays) % 146097).toNat = doe := by omega
  simp only [civilFromDays, eraOf, dayOf]
  simp only [yearStart, Nat.mul_comm _ 365]
  rfl

theorem daysFromCivil_era (year : Int) (month day : Nat) :
    daysFromCivil year month day =
      let y := if month ≤ 2 then year - 1 else year
      y / 400 * 146097 + ((yearStart (y % 400).toNat + (monthStart (marchMonth month) + day - 1) : Nat) : Int) -
        epochDays := by
  simp only [daysFromCivil, yearStart, monthStart, marchMonth]

/-- A valid date lies within its March-based year and within its month. -/
theorem dayOfYear_bounds {year : Int} {month day : Nat} (valid : ValidDate year month day) :
    let y := if month ≤ 2 then year - 1 else year
    monthStart (marchMonth month) + day - 1 < yearLength (y % 400).toNat ∧
      monthStart (marchMonth month) + day - 1 < monthStart (marchMonth month + 1) := by
  intro y
  obtain ⟨low, high, first, last⟩ := valid
  have base := (yearLength_bounds (y % 400).toNat).1
  have leapLength : isLeapYear year = true → month ≤ 2 → yearLength (y % 400).toNat = 366 := by
    intro leap early
    have shifted : y + 1 = year := by simp only [y, if_pos early]; omega
    rw [yearLength, if_pos ((endsInLeapDay_iff y).mpr (shifted ▸ leap))]
  interval_cases month
  case «2» =>
    simp only [daysInMonth] at last
    simp [marchMonth, monthStart]
    split at last
    · have long := leapLength (by assumption) (by omega)
      omega
    · omega
  all_goals simp only [daysInMonth] at last; simp [marchMonth, monthStart]; omega

/-- The day count of a valid date lies in the era of its March-based year. -/
theorem daysFromCivil_within_era {year : Int} {month day : Nat} (valid : ValidDate year month day) :
    let y := if month ≤ 2 then year - 1 else year
    y / 400 * 146097 - epochDays ≤ daysFromCivil year month day ∧
      daysFromCivil year month day < y / 400 * 146097 - epochDays + 146097 := by
  obtain ⟨inYear, -⟩ := dayOfYear_bounds valid
  rw [daysFromCivil_era]
  dsimp only at inYear ⊢
  generalize (if month ≤ 2 then year - 1 else year) = y at inYear ⊢
  have withinEra := yearStart_add_lt (show (y % 400).toNat < 400 by omega) inYear
  omega

/-- A day that lies within its month and its March-based year is a day of its civil month. -/
theorem day_le_daysInMonth {year : Int} {yoe mp doy : Nat} (inYear : doy < yearLength yoe)
    (monthBound : mp < 12) (monthLow : monthStart mp ≤ doy) (monthHigh : doy < monthStart (mp + 1))
    (leap : civilMonth mp ≤ 2 → (isLeapYear year = true ↔ endsInLeapDay yoe)) :
    doy - monthStart mp + 1 ≤ daysInMonth year (civilMonth mp) := by
  unfold yearLength at inYear
  interval_cases mp
  case «11» =>
    simp only [civilMonth, daysInMonth] at leap ⊢
    norm_num [monthStart] at leap monthLow monthHigh ⊢
    split at inYear <;> split <;> simp_all <;> omega
  all_goals norm_num [monthStart, civilMonth, daysInMonth] at monthLow monthHigh ⊢; omega

/-- Counting the days of a valid date and reading the count back gives the date. -/
theorem civilFromDays_daysFromCivil {year : Int} {month day : Nat} (valid : ValidDate year month day) :
    civilFromDays (daysFromCivil year month day) = (year, month, day) := by
  obtain ⟨inYear, inMonth⟩ := dayOfYear_bounds valid
  obtain ⟨low, high, first, _⟩ := valid
  rw [daysFromCivil_era]
  set y : Int := if month ≤ 2 then year - 1 else year with shifted
  set yoe := (y % 400).toNat
  set doy := monthStart (marchMonth month) + day - 1
  have era : yoe < 400 := by omega
  rw [civilFromDays_era _ (yearStart_add_lt era inYear)]
  simp only [yearOfEra_yearStart_add era inYear, Nat.add_sub_cancel_left]
  have atMonth : monthOfYear doy = marchMonth month := by
    have start : monthOfYear (monthStart (marchMonth month) + (day - 1)) = marchMonth month :=
      monthOfYear_monthStart_add (by omega)
    rwa [show monthStart (marchMonth month) + (day - 1) = doy by omega] at start
  simp only [atMonth, civilMonth_marchMonth low high, Prod.mk.injEq, true_and]
  have dayOf : doy = monthStart (marchMonth month) + day - 1 := rfl
  refine ⟨?_, by omega⟩
  split <;> omega

/-- Every day count reads as a valid date, and counting that date's days gives it back. -/
theorem civilFromDays_spec {days year : Int} {month day : Nat}
    (civil : civilFromDays days = (year, month, day)) :
    ValidDate year month day ∧ daysFromCivil year month day = days := by
  obtain ⟨era, doe, bound, rfl⟩ :
      ∃ era : Int, ∃ doe : Nat, doe < 146097 ∧ days = era * 146097 + doe - epochDays :=
    ⟨(days + epochDays) / 146097, ((days + epochDays) % 146097).toNat, by omega, by omega⟩
  rw [civilFromDays_era _ bound] at civil
  simp only [Prod.mk.injEq] at civil
  obtain ⟨yearBound, startLe, inYear⟩ := yearOfEra_spec bound
  generalize yearOf : yearOfEra doe = yoe at civil yearBound startLe inYear
  have short : doe - yearStart yoe < 366 := Nat.lt_of_lt_of_le inYear (yearLength_bounds yoe).2
  obtain ⟨monthBound, monthLow, monthHigh⟩ := monthOfYear_spec short
  generalize monthOf : monthOfYear (doe - yearStart yoe) = mp at civil monthBound monthLow monthHigh
  obtain ⟨yearIs, rfl, rfl⟩ := civil
  have monthRange : 1 ≤ civilMonth mp ∧ civilMonth mp ≤ 12 := by unfold civilMonth; split <;> omega
  have leap : civilMonth mp ≤ 2 → (isLeapYear year = true ↔ endsInLeapDay yoe) := by
    intro early
    rw [← yearIs, if_pos early, ← endsInLeapDay_iff]
    have sameYear : ((yoe + era * 400 : Int) % 400).toNat = yoe := by omega
    rw [sameYear]
  refine ⟨⟨monthRange.1, monthRange.2, by omega,
    day_le_daysInMonth inYear monthBound monthLow monthHigh leap⟩, ?_⟩
  rw [daysFromCivil_era]
  -- Undo the shift to a March-based year, then the split into era and day of the era.
  have shifted : (if civilMonth mp ≤ 2 then year - 1 else year) = yoe + era * 400 := by
    rw [← yearIs]
    split <;> omega
  have eraOf : (yoe + era * 400 : Int) / 400 = era := by omega
  have yearOf : ((yoe + era * 400 : Int) % 400).toNat = yoe := by omega
  have dayOf : monthStart mp + (doe - yearStart yoe - monthStart mp + 1) - 1 = doe - yearStart yoe := by
    omega
  simp only [shifted, marchMonth_civilMonth monthBound, dayOf, eraOf, yearOf]
  omega

end BlockCodec.Calendar
