import BlockCodec.Binary64
import BlockCodec.Decimal.Basic

namespace BlockCodec

/-- The quotient `num / den` rounded to the nearest integer, a tie going to the even one. -/
def roundHalfEven (num den : Nat) : Nat :=
  let q := num / den
  let r := num % den
  if 2 * r < den then q
  else if den < 2 * r then q + 1
  else if q % 2 = 0 then q else q + 1

namespace Binary64

/-- The binary64 value nearest to `num / den` with the given sign, or `none` when the
rounded magnitude reaches `2 ^ 1024`. -/
def ofRatio (negative : Bool) (num den : Nat) : Option Binary64 :=
  if num = 0 ∨ den = 0 then some (ofFields negative 0 0) else
  let scaled (q : Int) : Nat × Nat := (num * Nat.pow 2 (-q).toNat, den * Nat.pow 2 q.toNat)
  let first : Int := (Nat.log2 num : Int) - Nat.log2 den - 52
  let start := if (scaled first).1 / (scaled first).2 < Nat.pow 2 52 then first - 1 else first
  let q := max start (-1074)
  let m := roundHalfEven (scaled q).1 (scaled q).2
  let (m, q) := if m = Nat.pow 2 53 then (Nat.pow 2 52, q + 1) else (m, q)
  if 971 < q then none
  else if m < Nat.pow 2 52 then some (ofFields negative 0 m)
  else some (ofFields negative (q + 1075).toNat (m - Nat.pow 2 52))

/-- The binary64 value nearest to `digits · 10 ^ exponent` with the given sign, or
`none` on overflow. Exponents far outside the binary64 range are settled without
computing their power. -/
def ofDecimal (negative : Bool) (digits : Nat) (exponent : Int) : Option Binary64 :=
  if digits = 0 then some (ofFields negative 0 0)
  else if 310 < exponent then none
  else if exponent + decimalLength digits < -330 then some (ofFields negative 0 0)
  else if 0 ≤ exponent then ofRatio negative (digits * Nat.pow 10 exponent.toNat) 1
  else ofRatio negative digits (Nat.pow 10 (-exponent).toNat)

def ofInt (i : Int) : Binary64 :=
  (ofDecimal (i < 0) i.natAbs 0).getD (if i < 0 then negInfinity else infinity)

end Binary64

end BlockCodec
