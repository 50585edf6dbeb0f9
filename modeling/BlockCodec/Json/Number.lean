import BlockCodec.Decimal.Reading
import BlockCodec.Decimal.Shortest

namespace BlockCodec

/-- A JSON number in one of its three kept forms. -/
inductive Number where
  /-- A non-negative integer below `2 ^ 64`. -/
  | natural (n : UInt64)
  /-- A negative integer of at least `-2 ^ 63`. -/
  | negative (n : Int64) (isNeg : n < 0)
  | float (x : Binary64) (finite : x.isFinite = true)
  deriving DecidableEq

/-- How a binary64 value is written: positionally while the decimal point lies within
`lowestPoint ..= highestPoint` places of the first digit, else as one digit, the rest
after a point, the exponent mark and a signed exponent. -/
structure FloatFormat where
  lowestPoint : Int
  highestPoint : Int
  integralSuffix : String
  exponentMark : String
  positiveSign : String

/-- Numbers in JSON text: positional from `0.0001` up to sixteen integer digits, an
integral value keeps `.0`, and the exponent always carries its sign. -/
def FloatFormat.json : FloatFormat := ⟨-4, 16, ".0", "e", "+"⟩

namespace Binary64

/-- The text of a finite value: the shortest digits that read back, laid out by `fmt`. -/
def render (fmt : FloatFormat) (x : Binary64) : String :=
  let sign := if x.negative then "-" else ""
  if x.isZero then sign ++ "0" ++ fmt.integralSuffix else
  let d := x.shortest
  let ds := decimalDigits d.digits
  let n := ds.length
  let k := d.pointPosition
  if fmt.lowestPoint ≤ k ∧ k ≤ fmt.highestPoint then
    if k ≤ 0 then
      sign ++ "0." ++ String.ofList (List.replicate (-k).toNat '0' ++ ds)
    else if n ≤ k.toNat then
      sign ++ String.ofList (ds ++ List.replicate (k.toNat - n) '0') ++ fmt.integralSuffix
    else
      sign ++ String.ofList (ds.take k.toNat ++ '.' :: ds.drop k.toNat)
  else
    let tail := if n ≤ 1 then "" else "." ++ String.ofList ds.tail
    let e := k - 1
    let mark := if 0 ≤ e then fmt.positiveSign else "-"
    sign ++ String.ofList ds.head?.toList ++ tail ++ fmt.exponentMark ++ mark ++
      String.ofList (decimalDigits e.natAbs)

end Binary64

structure NonFinite where
  value : Binary64

def NonFinite.message (e : NonFinite) : String :=
  "Number must be finite, got " ++ e.value.nonFiniteText

namespace Number

/-- The number for a signed 64-bit integer: natural when non-negative. -/
def ofInt64 (i : Int64) : Number :=
  if h : i < 0 then negative i h else natural (UInt64.ofNat i.toInt.toNat)

def ofUInt64 (n : UInt64) : Number := natural n

/-- The number holding a binary64 value, refused when the value is not finite. -/
def ofBinary64 (x : Binary64) : Except NonFinite Number :=
  if h : x.isFinite = true then .ok (float x h) else .error ⟨x⟩

def toInt? : Number → Option Int
  | natural n => some n.toNat
  | negative n _ => some n.toInt
  | float _ _ => none

def toBinary64 : Number → Binary64
  | natural n => Binary64.ofInt n.toNat
  | negative n _ => Binary64.ofInt n.toInt
  | float x _ => x

/-- The number as a signed 64-bit integer, when it is an integer in range. -/
def toInt64? : Number → Option Int64
  | natural n => if n.toNat < Nat.pow 2 63 then some (Int64.ofNat n.toNat) else none
  | negative n _ => some n
  | float _ _ => none

/-- The number as an unsigned 64-bit integer, when it is a non-negative integer. -/
def toUInt64? : Number → Option UInt64
  | natural n => some n
  | _ => none

def isInteger : Number → Bool
  | float _ _ => false
  | _ => true

def render : Number → String
  | natural n => String.ofList (decimalDigits n.toNat)
  | negative n _ => "-" ++ String.ofList (decimalDigits n.toInt.natAbs)
  | float x _ => x.render FloatFormat.json

end Number

end BlockCodec
