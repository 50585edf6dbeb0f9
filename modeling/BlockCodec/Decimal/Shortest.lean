import BlockCodec.Binary64
import BlockCodec.Decimal.Basic

namespace BlockCodec

namespace Decimal

/-- Compares `c · 10 ^ e` with `x · 2 ^ p` exactly. -/
def compareScaled (c : Nat) (e : Int) (x : Nat) (p : Int) : Ordering :=
  compare (c * Nat.pow 10 e.toNat * Nat.pow 2 (-p).toNat)
    (x * Nat.pow 10 (-e).toNat * Nat.pow 2 p.toNat)

/-- The floor of `m · 2 ^ q / 10 ^ e`. -/
def floorScaled (m : Nat) (q e : Int) : Nat :=
  m * Nat.pow 2 q.toNat * Nat.pow 10 (-e).toNat / (Nat.pow 2 (-q).toNat * Nat.pow 10 e.toNat)

/-- The least `k` with `m · 2 ^ q < 10 ^ k`, for a positive `m`. -/
def pointOf (m : Nat) (q : Int) : Int :=
  let k : Int := (decimalLength (m * Nat.pow 2 q.toNat) : Int) - decimalLength (Nat.pow 2 (-q).toNat)
  if compareScaled 1 k m q = .gt then k else k + 1

end Decimal

namespace Binary64

/-- The interval of reals that read back as a finite positive value, as the numerators
of its ends over `2 ^ (scale - 2)`, and whether the ends belong to it. -/
structure Rounding where
  low : Nat
  high : Nat
  closed : Bool

/-- The reading interval of a finite value, taken on its magnitude. The gap below is half
as wide when the value is the least one of its binade above the subnormals. -/
def rounding (x : Binary64) : Rounding :=
  let m := x.significand
  let below := if x.fraction = 0 ∧ 1 < x.biasedExponent then 1 else 2
  ⟨4 * m - below, 4 * m + 2, m % 2 = 0⟩

/-- Whether `c · 10 ^ e` reads back as the magnitude of `x`. -/
def readsBack (x : Binary64) (c : Nat) (e : Int) : Bool :=
  let r := x.rounding
  let lo := Decimal.compareScaled c e r.low (x.scale - 2)
  let hi := Decimal.compareScaled c e r.high (x.scale - 2)
  (lo == .gt || (lo == .eq && r.closed)) && (hi == .lt || (hi == .eq && r.closed))

/-- Of the two neighbours of the magnitude of `x` on the grid `10 ^ e`, the one that reads
back, the nearer if both do, the even one on a tie. -/
def nearestOnGrid (x : Binary64) (e : Int) : Option Nat :=
  let f := Decimal.floorScaled x.significand x.scale e
  match x.readsBack f e, x.readsBack (f + 1) e with
  | true, true =>
    match Decimal.compareScaled (2 * f + 1) e (2 * x.significand) x.scale with
    | .gt => some f
    | .lt => some (f + 1)
    | .eq => some (if f % 2 = 0 then f else f + 1)
  | true, false => some f
  | false, true => some (f + 1)
  | false, false => none

/-- The shortest decimal that reads back as the magnitude of a finite non-zero value,
the nearest one of that length. Seventeen digits always suffice. -/
def shortest (x : Binary64) : Decimal :=
  let k := Decimal.pointOf x.significand x.scale
  let grids := (List.range 17).map fun i => k - (i + 1 : Nat)
  match grids.findSome? fun e => (x.nearestOnGrid e).map fun c => (⟨c, e⟩ : Decimal) with
  | some d => d.trim
  | none => (Decimal.mk (Decimal.floorScaled x.significand x.scale (k - 17)) (k - 17)).trim

end Binary64

end BlockCodec
