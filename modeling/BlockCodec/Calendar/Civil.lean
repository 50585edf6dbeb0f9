namespace BlockCodec

namespace Calendar

/-- A year is a leap year when four divides it, unless a hundred does and four hundred
does not. -/
def isLeapYear (year : Int) : Bool :=
  (year % 4 == 0 && year % 100 != 0) || year % 400 == 0

/-- The length of a month (1 to 12) in a year; zero for any other month number. -/
def daysInMonth (year : Int) (month : Nat) : Nat :=
  match month with
  | 1 => 31 | 2 => if isLeapYear year then 29 else 28 | 3 => 31 | 4 => 30
  | 5 => 31 | 6 => 30 | 7 => 31 | 8 => 31 | 9 => 30 | 10 => 31 | 11 => 30 | 12 => 31
  | _ => 0

/-- The day count of 1970-01-01 from 0000-03-01. -/
def epochDays : Int := 719468

/-- The days from 1970-01-01 to a valid civil date; negative before it. -/
def daysFromCivil (year : Int) (month day : Nat) : Int :=
  let y := if month ≤ 2 then year - 1 else year
  let era := y / 400
  let yoe := (y % 400).toNat
  let shifted := if 2 < month then month - 3 else month + 9
  let doy := (153 * shifted + 2) / 5 + day - 1
  let doe := yoe * 365 + yoe / 4 - yoe / 100 + doy
  era * 146097 + doe - epochDays

/-- The civil date (year, month, day) that lies a number of days after 1970-01-01. -/
def civilFromDays (days : Int) : Int × Nat × Nat :=
  let z := days + epochDays
  let era := z / 146097
  let doe := (z % 146097).toNat
  let yoe := (doe - doe / 1460 + doe / 36524 - doe / 146096) / 365
  let y := (yoe : Int) + era * 400
  let doy := doe - (365 * yoe + yoe / 4 - yoe / 100)
  let mp := (5 * doy + 2) / 153
  let d := doy - (153 * mp + 2) / 5 + 1
  let m := if mp < 10 then mp + 3 else mp - 9
  (if m ≤ 2 then y + 1 else y, m, d)

end Calendar

end BlockCodec
