import BlockCodec.Calendar.Instant

namespace BlockCodec

/-- The decimal digits of `n`, padded with zeros on the left to `width`. -/
def padded (width n : Nat) : String :=
  let ds := decimalDigits n
  String.ofList (List.replicate (width - ds.length) '0' ++ ds)

namespace Instant

/-- The text of a year: four digits within 0 to 9999, else a sign and six digits. -/
def yearText (year : Int) : String :=
  if 0 ≤ year ∧ year ≤ 9999 then padded 4 year.toNat
  else if year < 0 then "-" ++ padded 6 year.natAbs
  else "+" ++ padded 6 year.toNat

def toIso (t : Instant) : String :=
  yearText t.year ++ "-" ++ padded 2 t.month ++ "-" ++ padded 2 t.day ++ "T" ++
    padded 2 t.hours ++ ":" ++ padded 2 t.minutes ++ ":" ++ padded 2 t.seconds ++ "." ++
    padded 3 t.millisecond ++ "Z"

def isAsciiDigit (c : Char) : Bool := '0' ≤ c && c ≤ '9'

/-- The value of a non-empty run of ASCII digits. -/
def digitsValue? (cs : List Char) : Option Nat :=
  if !cs.isEmpty && cs.all isAsciiDigit then
    some (cs.foldl (fun acc c => acc * 10 + (c.toNat - 48)) 0)
  else none

/-- The digits at positions `start` to `stop` (exclusive) of a text. -/
def digitsAt? (cs : List Char) (start stop : Nat) : Option Nat :=
  digitsValue? ((cs.drop start).take (stop - start))

/-- The year and the rest of an ISO text: a sign and six digits, the sign `+` only above
9999 and `-` never with year 0, or else four digits. -/
def splitYear? (cs : List Char) : Option (Int × List Char) :=
  match cs with
  | sign :: rest =>
    if sign = '+' ∨ sign = '-' then
      if rest.length < 6 then none else
      match digitsValue? (rest.take 6) with
      | none => none
      | some y =>
        if y ≤ 9999 ∧ (sign = '+' ∨ y = 0) then none
        else some (if sign = '-' then -(y : Int) else y, rest.drop 6)
    else if cs.length < 4 then none
    else (digitsValue? (cs.take 4)).map fun y => ((y : Int), cs.drop 4)
  | [] => none

/-- The civil parts after the year: `-MM-DDTHH:MM:SS.sssZ`, exactly. -/
def splitParts? (rest : List Char) : Option (Nat × Nat × Nat × Nat × Nat × Nat) :=
  if rest.length ≠ 20 ∨ rest[0]? ≠ some '-' ∨ rest[3]? ≠ some '-' ∨ rest[6]? ≠ some 'T' ∨
      rest[9]? ≠ some ':' ∨ rest[12]? ≠ some ':' ∨ rest[15]? ≠ some '.' ∨ rest[19]? ≠ some 'Z'
  then none
  else do
    let month ← digitsAt? rest 1 3
    let day ← digitsAt? rest 4 6
    let hour ← digitsAt? rest 7 9
    let minute ← digitsAt? rest 10 12
    let second ← digitsAt? rest 13 15
    let milli ← digitsAt? rest 16 19
    pure (month, day, hour, minute, second, milli)

/-- Reads the ISO text of an instant. Text of another shape is malformed; civil parts out
of their ranges are reported as such. -/
def parseIso (s : String) : Except InstantError Instant :=
  match splitYear? s.toList with
  | none => .error (.malformed s)
  | some (year, rest) =>
    match splitParts? rest with
    | none => .error (.malformed s)
    | some (month, day, hour, minute, second, milli) =>
      ofCivil year month day hour minute second milli

end Instant

end BlockCodec
