namespace BlockCodec

/-- The number of decimal digits of a natural number; zero has one digit. -/
def decimalLength (n : Nat) : Nat :=
  if n < 10 then 1 else decimalLength (n / 10) + 1
termination_by n
decreasing_by omega

def decimalDigits (n : Nat) : List Char :=
  if n < 10 then [Char.ofNat (48 + n)] else decimalDigits (n / 10) ++ [Char.ofNat (48 + n % 10)]
termination_by n
decreasing_by omega

/-- A decimal number `digits · 10 ^ exponent`. -/
structure Decimal where
  digits : Nat
  exponent : Int
  deriving DecidableEq

namespace Decimal

/-- Drops trailing zero digits, raising the exponent to keep the value. -/
def trim (d : Decimal) : Decimal :=
  if d.digits ≠ 0 ∧ d.digits % 10 = 0 then trim ⟨d.digits / 10, d.exponent + 1⟩ else d
termination_by d.digits
decreasing_by omega

/-- The position of the decimal point: the value is `0.d₁d₂… · 10 ^ pointPosition`. -/
def pointPosition (d : Decimal) : Int := decimalLength d.digits + d.exponent

end Decimal

end BlockCodec

namespace BlockCodec

def natText (n : Nat) : String := String.ofList (decimalDigits n)

/-- The decimal text of an integer, with a minus sign when negative. -/
def intText (i : Int) : String := (if i < 0 then "-" else "") ++ natText i.natAbs

end BlockCodec
