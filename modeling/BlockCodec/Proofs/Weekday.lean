import BlockCodec.Proofs.CivilOrder
import BlockCodec.Proofs.IsoText

namespace BlockCodec

namespace Calendar

/-- The ISO weekday (1 for Monday to 7 for Sunday) of a date of the proleptic Gregorian
calendar by Zeller's congruence. January and February count as months 13 and 14 of the year
before, and the congruence itself gives 0 for a Saturday. -/
def zellerWeekday (year : Int) (month day : Nat) : Nat :=
  let m : Int := if month ≤ 2 then month + 12 else month
  let y : Int := if month ≤ 2 then year - 1 else year
  let h := (day + 13 * (m + 1) / 5 + y + y / 4 - y / 100 + y / 400) % 7
  ((h + 5) % 7).toNat + 1

/-- Up to whole weeks, the days before 1 March of year `y` are the year terms of the
congruence. -/
theorem marchYearStart_emod_seven (y : Int) :
    marchYearStart y % 7 = (y + y / 4 - y / 100 + y / 400) % 7 := by
  -- the quarters and hundredths of `y` split into those of its era and of its year in the era
  have fourth : y / 4 = 100 * (y / 400) + ((y % 400).toNat : Int) / 4 := by omega
  have hundredth : y / 100 = 4 * (y / 400) + ((y % 400).toNat : Int) / 100 := by omega
  unfold marchYearStart yearStart
  omega

/-- Up to whole weeks, the days from 1 March to the first of a month are the month term of
the congruence, shifted by four. -/
theorem monthStart_emod_seven {month : Nat} (low : 1 ≤ month) (high : month ≤ 12) :
    (monthStart (marchMonth month) : Int) % 7 =
      (13 * ((if month ≤ 2 then (month : Int) + 12 else month) + 1) / 5 + 4) % 7 := by
  interval_cases month <;> rfl

/-- The congruence gives the ISO weekday of a valid date's day count: day 0, 1970-01-01, is
a Thursday. -/
theorem zellerWeekday_eq_days {year : Int} {month day : Nat} (valid : ValidDate year month day) :
    zellerWeekday year month day = ((daysFromCivil year month day + 3) % 7).toNat + 1 := by
  obtain ⟨low, high, first, -⟩ := valid
  have months := monthStart_emod_seven low high
  rw [daysFromCivil_era]
  unfold zellerWeekday epochDays
  dsimp only
  -- both sides count the year from 1 March, so January and February fall in the year before
  by_cases early : month ≤ 2
  · have years := marchYearStart_emod_seven (year - 1)
    simp only [if_pos early] at months ⊢
    unfold marchYearStart at years
    omega
  · have years := marchYearStart_emod_seven year
    simp only [if_neg early] at months ⊢
    unfold marchYearStart at years
    omega

example : zellerWeekday 1969 12 31 = 3 := by decide

example : zellerWeekday 2000 2 29 = 2 := by decide

end Calendar

namespace Instant

open Calendar

theorem weekday_eq_days (t : Instant) : t.weekday = ((t.dayNumber + 3) % 7).toNat + 1 := by
  unfold weekday
  dsimp only
  split <;> omega

/-- The weekday of every instant, before the epoch and in years before 1 as well, is the
weekday Zeller's congruence gives for the instant's year, month and day. -/
theorem weekday_eq_zellerWeekday (t : Instant) : t.weekday = zellerWeekday t.year t.month t.day := by
  obtain ⟨valid, days⟩ := t.date_spec
  rw [weekday_eq_days, zellerWeekday_eq_days valid, days]

end Instant

end BlockCodec
