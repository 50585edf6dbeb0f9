namespace BlockCodec

/-- A binary64 floating-point value, held as its 64-bit pattern. Two values are equal
exactly when their bits are. -/
structure Binary64 where
  bits : UInt64
  deriving DecidableEq

namespace Binary64

/-- The largest biased exponent, reserved for infinities and NaNs. -/
def exponentMask : Nat := 2047

def fractionWidth : Nat := 52

def negative (x : Binary64) : Bool := x.bits.toNat ≥ Nat.pow 2 63

def biasedExponent (x : Binary64) : Nat := x.bits.toNat / Nat.pow 2 52 % 2048

def fraction (x : Binary64) : Nat := x.bits.toNat % Nat.pow 2 52

/-- A value is finite unless its exponent field is all ones. -/
def isFinite (x : Binary64) : Bool := x.biasedExponent != exponentMask

/-- A NaN has the exponent field all ones and a non-zero fraction. -/
def isNaN (x : Binary64) : Bool := x.biasedExponent == exponentMask && x.fraction != 0

/-- The significand of a finite value: the fraction with the hidden bit for normal values. -/
def significand (x : Binary64) : Nat :=
  if x.biasedExponent = 0 then x.fraction else x.fraction + Nat.pow 2 52

/-- The power of two that scales the significand of a finite value. -/
def scale (x : Binary64) : Int :=
  if x.biasedExponent = 0 then -1074 else (x.biasedExponent : Int) - 1075

/-- Assembles a value from sign, biased exponent and fraction; fields are cut to width. -/
def ofFields (negative : Bool) (biased fraction : Nat) : Binary64 :=
  ⟨UInt64.ofNat ((if negative then Nat.pow 2 63 else 0) + biased % 2048 * Nat.pow 2 52 +
    fraction % Nat.pow 2 52)⟩

def zero : Binary64 := ofFields false 0 0

def negZero : Binary64 := ofFields true 0 0

def infinity : Binary64 := ofFields false 2047 0

def negInfinity : Binary64 := ofFields true 2047 0

def nan : Binary64 := ofFields false 2047 (Nat.pow 2 51)

def neg (x : Binary64) : Binary64 := ofFields (!x.negative) x.biasedExponent x.fraction

def isZero (x : Binary64) : Bool := x.biasedExponent == 0 && x.fraction == 0

/-- The text of a non-finite value in the messages of this library. -/
def nonFiniteText (x : Binary64) : String :=
  if x.isNaN then "NaN" else if x.negative then "-inf" else "inf"

end Binary64

end BlockCodec
