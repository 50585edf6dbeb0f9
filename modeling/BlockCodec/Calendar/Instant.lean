import BlockCodec.Calendar.Civil
import BlockCodec.Decimal.Basic

namespace BlockCodec

/-- The most milliseconds an instant lies from the epoch, either way: 10^8 days. -/
def maxMillis : Nat := 8640000000000000

/-- Milliseconds in a second, a minute, an hour and a day. -/
def millisPerSecond : Int := 1000
def millisPerMinute : Int := 60000
def millisPerHour : Int := 3600000
def millisPerDay : Int := 86400000

def int64Max : Int := 9223372036854775807

def fitsInt64 (i : Int) : Bool := -9223372036854775808 ≤ i && i ≤ int64Max

/-- A point in time, in milliseconds from the epoch. -/
structure Instant where
  millis : Int
  inRange : millis.natAbs ≤ maxMillis
  deriving DecidableEq

instance : LT Instant := ⟨fun a b => a.millis < b.millis⟩

instance (a b : Instant) : Decidable (a < b) := inferInstanceAs (Decidable (a.millis < b.millis))

inductive InstantError where
  | invalidMonth (month : Nat)
  | invalidDay (day month : Nat) (year : Int)
  | invalidHour (hour : Nat)
  | invalidMinute (minute : Nat)
  | invalidSecond (second : Nat)
  | invalidMillisecond (milli : Nat)
  /-- The milliseconds lie beyond the range; the largest 64-bit value stands for a count
  too large to compute in 64 bits. -/
  | outOfRange (millis : Int)
  /-- The text is not the ISO form of an instant. -/
  | malformed (text : String)
  deriving DecidableEq

def InstantError.message : InstantError → String
  | invalidMonth m => "Invalid month: " ++ natText m ++ " (must be 1-12)"
  | invalidDay d m y => "Invalid day: " ++ natText d ++ " for " ++ natText m ++ "/" ++ intText y
  | invalidHour h => "Invalid hour: " ++ natText h ++ " (must be 0-23)"
  | invalidMinute m => "Invalid minute: " ++ natText m ++ " (must be 0-59)"
  | invalidSecond s => "Invalid second: " ++ natText s ++ " (must be 0-59)"
  | invalidMillisecond m => "Invalid millisecond: " ++ natText m ++ " (must be 0-999)"
  | outOfRange m => "Instant out of range: " ++ intText m ++ " ms from epoch"
  | malformed s => "Expected YYYY-MM-DDTHH:MM:SS.sssZ, got '" ++ s ++ "'"

namespace Instant

/-- The instant a number of milliseconds from the epoch, when within range. -/
def ofMillis (millis : Int) : Except InstantError Instant :=
  if h : millis.natAbs ≤ maxMillis then .ok ⟨millis, h⟩ else .error (.outOfRange millis)

/-- The instant of a civil date and time of day. Month, day, hour, minute, second and
millisecond are checked in that order; then the milliseconds from the epoch, computed
in 64 bits, must not overflow and must lie within range. -/
def ofCivil (year : Int) (month day hour minute second milli : Nat) : Except InstantError Instant :=
  if month < 1 ∨ 12 < month then .error (.invalidMonth month)
  else if day < 1 ∨ Calendar.daysInMonth year month < day then .error (.invalidDay day month year)
  else if 23 < hour then .error (.invalidHour hour)
  else if 59 < minute then .error (.invalidMinute minute)
  else if 59 < second then .error (.invalidSecond second)
  else if 999 < milli then .error (.invalidMillisecond milli)
  else
    let dayMillis := Calendar.daysFromCivil year month day * millisPerDay
    let total := dayMillis + (hour * millisPerHour + minute * millisPerMinute +
      second * millisPerSecond + milli)
    if fitsInt64 dayMillis && fitsInt64 total then ofMillis total
    else .error (.outOfRange int64Max)

/-- Whole days from the epoch to the instant's day. -/
def dayNumber (t : Instant) : Int := t.millis / millisPerDay

def date (t : Instant) : Int × Nat × Nat := Calendar.civilFromDays t.dayNumber

def year (t : Instant) : Int := t.date.1

/-- The month of the instant, 1 to 12. -/
def month (t : Instant) : Nat := t.date.2.1

def day (t : Instant) : Nat := t.date.2.2

/-- The ISO weekday, 1 for Monday to 7 for Sunday; 1970-01-01 was a Thursday. -/
def weekday (t : Instant) : Nat :=
  let dow := ((t.dayNumber + 4) % 7).toNat
  if dow = 0 then 7 else dow

/-- The hour of the day, 0 to 23. -/
def hours (t : Instant) : Nat := (t.millis % millisPerDay / millisPerHour).toNat

/-- The minute of the hour, 0 to 59. -/
def minutes (t : Instant) : Nat := (t.millis % millisPerHour / millisPerMinute).toNat

/-- The second of the minute, 0 to 59. -/
def seconds (t : Instant) : Nat := (t.millis % millisPerMinute / millisPerSecond).toNat

/-- The millisecond of the second, 0 to 999. -/
def millisecond (t : Instant) : Nat := (t.millis % millisPerSecond).toNat

end Instant

end BlockCodec
