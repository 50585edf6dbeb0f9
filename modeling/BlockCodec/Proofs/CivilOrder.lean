import BlockCodec.Proofs.IsoText
import Mathlib.Order.Monotone.Basic
import Mathlib.Data.Prod.Lex

namespace BlockCodec.Calendar

/-- The days from 0000-03-01 to 1 March of year `y`. -/
def marchYearStart (y : Int) : Int := y / 400 * 146097 + yearStart (y % 400).toNat

theorem marchYearStart_succ (y : Int) :
    marchYearStart (y + 1) = marchYearStart y + yearLength (y % 400).toNat := by
  unfold marchYearStart yearLength
  by_cases leap : endsInLeapDay (y % 400).toNat
  · rw [if_pos leap]
    unfold endsInLeapDay at leap
    unfold yearStart
    omega
  · rw [if_neg leap]
    unfold endsInLeapDay at leap
    unfold yearStart
    omega

/-- The days from 0000-03-01 to the first day of month `j`, the months counted from March of
year 0. -/
def monthFirstDay (j : Int) : Int := marchYearStart (j / 12) + monthStart (j % 12).toNat

/-- The month after month `j` starts a new year after a February, and else the next month
of the same year. -/
theorem monthFirstDay_succ (j : Int) :
    monthFirstDay (j + 1) = marchYearStart (j / 12) +
      if j % 12 = 11 then yearLength (j / 12 % 400).toNat else monthStart ((j % 12).toNat + 1) := by
  unfold monthFirstDay
  split
  · have nextYear : (j + 1) / 12 = j / 12 + 1 := by omega
    have march : ((j + 1) % 12).toNat = 0 := by omega
    rw [nextYear, march, marchYearStart_succ]
    simp [monthStart]
  · have sameYear : (j + 1) / 12 = j / 12 := by omega
    have nextMonth : ((j + 1) % 12).toNat = (j % 12).toNat + 1 := by omega
    rw [sameYear, nextMonth]

theorem monthFirstDay_lt_succ (j : Int) : monthFirstDay j < monthFirstDay (j + 1) := by
  rw [monthFirstDay_succ]
  unfold monthFirstDay
  split
  · have long := (yearLength_bounds (j / 12 % 400).toNat).1
    rw [show (j % 12).toNat = 11 by omega]
    simp only [monthStart]
    omega
  · unfold monthStart
    omega

theorem monthFirstDay_le_of_le {i j : Int} (le : i ≤ j) : monthFirstDay i ≤ monthFirstDay j :=
  (strictMono_int_of_lt_succ monthFirstDay_lt_succ).monotone le

/-- The month of a civil date, counted from March of year 0. -/
def monthIndex (year : Int) (month : Nat) : Int := 12 * year + month - 3

theorem monthIndex_div (year : Int) {month : Nat} (low : 1 ≤ month) (high : month ≤ 12) :
    monthIndex year month / 12 = if month ≤ 2 then year - 1 else year := by
  unfold monthIndex
  split <;> omega

theorem monthIndex_mod (year : Int) {month : Nat} (low : 1 ≤ month) (high : month ≤ 12) :
    (monthIndex year month % 12).toNat = marchMonth month := by
  unfold monthIndex marchMonth
  split <;> omega

theorem daysFromCivil_eq_monthFirstDay {year : Int} {month day : Nat} (valid : ValidDate year month day) :
    daysFromCivil year month day + epochDays = monthFirstDay (monthIndex year month) + (day - 1 : Nat) := by
  obtain ⟨low, high, first, -⟩ := valid
  rw [daysFromCivil_era, monthFirstDay, monthIndex_div year low high, monthIndex_mod year low high,
    marchYearStart]
  dsimp only
  omega

theorem daysFromCivil_lt_monthFirstDay_succ {year : Int} {month day : Nat} (valid : ValidDate year month day) :
    daysFromCivil year month day + epochDays < monthFirstDay (monthIndex year month + 1) := by
  obtain ⟨inYear, inMonth⟩ := dayOfYear_bounds valid
  have ⟨low, high, first, _⟩ := valid
  have monthOf := monthIndex_mod year low high
  rw [daysFromCivil_eq_monthFirstDay valid, monthFirstDay_succ, monthFirstDay, monthOf]
  -- a February ends with its March-based year, any other month before the next one
  by_cases february : monthIndex year month % 12 = 11
  · have last : marchMonth month = 11 := by omega
    rw [if_pos february, last, monthIndex_div year low high]
    rw [last] at inYear
    omega
  · rw [if_neg february, monthIndex_div year low high]
    omega

/-- Day counts follow the lexicographic order of valid dates. -/
theorem daysFromCivil_lt_of_lt {year₁ year₂ : Int} {month₁ month₂ day₁ day₂ : Nat}
    (valid₁ : ValidDate year₁ month₁ day₁) (valid₂ : ValidDate year₂ month₂ day₂)
    (before : toLex (year₁, toLex (month₁, day₁)) < toLex (year₂, toLex (month₂, day₂))) :
    daysFromCivil year₁ month₁ day₁ < daysFromCivil year₂ month₂ day₂ := by
  simp only [Prod.Lex.toLex_lt_toLex] at before
  have months₁ := valid₁.2.1
  have months₂ := valid₂.1
  have start₁ := daysFromCivil_eq_monthFirstDay valid₁
  have start₂ := daysFromCivil_eq_monthFirstDay valid₂
  rcases (show monthIndex year₁ month₁ < monthIndex year₂ month₂ ∨
      year₁ = year₂ ∧ month₁ = month₂ ∧ day₁ < day₂ by unfold monthIndex; omega) with
    earlier | ⟨rfl, rfl, earlier⟩
  · have next := daysFromCivil_lt_monthFirstDay_succ valid₁
    have later := monthFirstDay_le_of_le (show monthIndex year₁ month₁ + 1 ≤ monthIndex year₂ month₂ by omega)
    omega
  · have first := valid₁.2.2.1
    omega

end BlockCodec.Calendar

namespace BlockCodec

open Calendar

/-- A civil date and time of day: the parts an instant is built from and read back as. -/
structure CivilTime where
  year : Int
  month : Nat
  day : Nat
  hour : Nat
  minute : Nat
  second : Nat
  milli : Nat
  deriving DecidableEq

namespace CivilTime

/-- The parts in the order they are compared: the year first, the millisecond last. -/
def key (c : CivilTime) : Int ×ₗ Nat ×ₗ Nat ×ₗ Nat ×ₗ Nat ×ₗ Nat ×ₗ Nat :=
  toLex (c.year, toLex (c.month, toLex (c.day, toLex (c.hour, toLex (c.minute, toLex (c.second, c.milli))))))

/-- A date of the calendar and a time of day on a 24-hour clock, to the millisecond. -/
def Valid (c : CivilTime) : Prop :=
  ValidDate c.year c.month c.day ∧ c.hour ≤ 23 ∧ c.minute ≤ 59 ∧ c.second ≤ 59 ∧ c.milli ≤ 999

/-- The instant of a civil time: its parts checked in turn, then the range. -/
def build (c : CivilTime) : Except InstantError Instant :=
  Instant.ofCivil c.year c.month c.day c.hour c.minute c.second c.milli

theorem key_injective : Function.Injective key := by
  intro c c' same
  simp only [key, toLex_inj, Prod.mk.injEq] at same
  cases c
  cases c'
  simp_all

theorem build_lt_build {c c' : CivilTime} {t t' : Instant} (built : c.build = .ok t)
    (built' : c'.build = .ok t') (before : c.key < c'.key) : t < t' := by
  obtain ⟨valid, hour, minute, second, milli, millis⟩ := Instant.ofCivil_eq_ok.mp built
  obtain ⟨valid', hour', minute', second', milli', millis'⟩ := Instant.ofCivil_eq_ok.mp built'
  simp only [key, Prod.Lex.toLex_lt_toLex] at before
  show t.millis < t'.millis
  -- either the dates differ, or on one date the clock readings do
  rcases (show toLex (c.year, toLex (c.month, c.day)) < toLex (c'.year, toLex (c'.month, c'.day)) ∨
      c.year = c'.year ∧ c.month = c'.month ∧ c.day = c'.day ∧
        c.hour * 3600000 + c.minute * 60000 + c.second * 1000 + c.milli <
          c'.hour * 3600000 + c'.minute * 60000 + c'.second * 1000 + c'.milli by
      simp only [Prod.Lex.toLex_lt_toLex]
      omega) with earlier | ⟨sameYear, sameMonth, sameDay, clock⟩
  · have days := daysFromCivil_lt_of_lt valid valid' earlier
    omega
  · rw [sameYear, sameMonth, sameDay] at millis
    omega

theorem lt_iff_key_lt {c c' : CivilTime} {t t' : Instant} (built : c.build = .ok t)
    (built' : c'.build = .ok t') : t < t' ↔ c.key < c'.key := by
  constructor
  · intro earlier
    rcases lt_trichotomy c.key c'.key with before | same | after
    · exact before
    · rw [key_injective same, built'] at built
      cases built
      exact absurd earlier (lt_irrefl t.millis)
    · have later := build_lt_build built' built after
      exact absurd (lt_trans earlier later) (lt_irrefl t.millis)
  · exact build_lt_build built built'

end CivilTime

namespace Instant

def civil (t : Instant) : CivilTime := ⟨t.year, t.month, t.day, t.hours, t.minutes, t.seconds, t.millisecond⟩

theorem civil_valid (t : Instant) : t.civil.Valid := by
  obtain ⟨date, -⟩ := date_spec t
  obtain ⟨hour, minute, second, milli, -⟩ := timeOfDay_spec t
  exact ⟨date, hour, minute, second, milli⟩

theorem build_civil (t : Instant) : t.civil.build = .ok t := ofCivil_components t

theorem civil_of_build {c : CivilTime} {t : Instant} (built : c.build = .ok t) : t.civil = c := by
  obtain ⟨year, month, day, hour, minute, second, milli⟩ := components_of_ofCivil built
  simp only [civil, year, month, day, hour, minute, second, milli]

end Instant

/-- Reading an instant's civil parts and building an instant from civil parts are inverse
bijections between instants and the valid civil times within range, and both keep order. -/
theorem civil_parts_order_isomorphism :
    (∀ t : Instant, t.civil.Valid ∧ t.civil.build = .ok t) ∧
      (∀ (c : CivilTime) (t : Instant), c.build = .ok t → t.civil = c) ∧
      (∀ (c c' : CivilTime) (t t' : Instant), c.build = .ok t → c'.build = .ok t' →
        (c.key < c'.key ↔ t < t')) :=
  ⟨fun t => ⟨t.civil_valid, t.build_civil⟩, fun _ _ built => Instant.civil_of_build built,
    fun _ _ _ _ built built' => (CivilTime.lt_iff_key_lt built built').symm⟩

end BlockCodec
