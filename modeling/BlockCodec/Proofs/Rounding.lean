import BlockCodec.Decimal.Reading
import BlockCodec.Decimal.Shortest
import Mathlib.Algebra.Order.Field.Power
import Mathlib.Data.Rat.Cast.Order
import Mathlib.Tactic.FieldSimp
import Mathlib.Tactic.Linarith
import Mathlib.Tactic.NormNum
import Mathlib.Tactic.Positivity
import Mathlib.Tactic.Ring

namespace BlockCodec

theorem zpow_eq_div_toNat (b : ℚ) (e : ℤ) : b ^ e = b ^ e.toNat / b ^ (-e).toNat := by
  rcases le_or_gt 0 e with nonneg | neg
  · have parts : e = (e.toNat : ℤ) := (Int.toNat_of_nonneg nonneg).symm
    have none : (-e).toNat = 0 := Int.toNat_of_nonpos (by omega)
    rw [none, pow_zero, div_one]
    nth_rewrite 1 [parts]
    exact zpow_natCast b e.toNat
  · have parts : e = -((-e).toNat : ℤ) := by rw [Int.toNat_of_nonneg (by omega)]; ring
    have none : e.toNat = 0 := Int.toNat_of_nonpos (by omega)
    rw [none, pow_zero, one_div]
    nth_rewrite 1 [parts]
    rw [zpow_neg, zpow_natCast]

theorem decimalLength_eq (n : Nat) :
    decimalLength n = if n < 10 then 1 else decimalLength (n / 10) + 1 := by
  rw [decimalLength]

/-- A natural is below ten to the number of its digits. -/
theorem lt_pow_decimalLength (n : Nat) : n < 10 ^ decimalLength n := by
  induction n using Nat.strong_induction_on with
  | _ n ih =>
    rw [decimalLength_eq]
    split
    · simpa
    · have := ih (n / 10) (by omega)
      rw [pow_succ]; omega

theorem one_le_decimalLength (n : Nat) : 1 ≤ decimalLength n := by
  rw [decimalLength_eq]; split <;> omega

/-- A positive natural is at least ten to one less than the number of its digits. -/
theorem pow_decimalLength_le {n : Nat} (pos : 0 < n) : 10 ^ (decimalLength n - 1) ≤ n := by
  induction n using Nat.strong_induction_on with
  | _ n ih =>
    rw [decimalLength_eq]
    split
    · simpa
    · have shorter := ih (n / 10) (by omega) (by omega)
      have := one_le_decimalLength (n / 10)
      rw [Nat.add_sub_cancel, ← Nat.sub_add_cancel this, pow_succ]
      omega

namespace Decimal

theorem compareScaled_eq (c : Nat) (e : Int) (x : Nat) (p : Int) :
    compareScaled c e x p = compare ((c : ℚ) * 10 ^ e) ((x : ℚ) * 2 ^ p) := by
  have tens : (0 : ℚ) < 10 ^ (-e).toNat := by positivity
  have twos : (0 : ℚ) < 2 ^ (-p).toNat := by positivity
  -- both sides of the exact comparison are the rational ones times `10 ^ e⁻ · 2 ^ p⁻`
  have left : ((c * Nat.pow 10 e.toNat * Nat.pow 2 (-p).toNat : Nat) : ℚ) =
      (c : ℚ) * 10 ^ e * (10 ^ (-e).toNat * 2 ^ (-p).toNat) := by
    rw [zpow_eq_div_toNat]
    push_cast [Nat.pow_eq]
    field_simp
  have right : ((x * Nat.pow 10 (-e).toNat * Nat.pow 2 p.toNat : Nat) : ℚ) =
      (x : ℚ) * 2 ^ p * (10 ^ (-e).toNat * 2 ^ (-p).toNat) := by
    rw [zpow_eq_div_toNat]
    push_cast [Nat.pow_eq]
    field_simp
  have scale : (0 : ℚ) < 10 ^ (-e).toNat * 2 ^ (-p).toNat := mul_pos tens twos
  unfold compareScaled
  rcases lt_trichotomy (c * Nat.pow 10 e.toNat * Nat.pow 2 (-p).toNat) (x * Nat.pow 10 (-e).toNat * Nat.pow 2 p.toNat)
    with less | same | more
  · have cast : (c : ℚ) * 10 ^ e < x * 2 ^ p := by
      have : ((_ : ℕ) : ℚ) < ((_ : ℕ) : ℚ) := Nat.cast_lt.mpr less
      rw [left, right] at this
      exact lt_of_mul_lt_mul_right this scale.le
    rw [compare_lt_iff_lt.mpr less, compare_lt_iff_lt.mpr cast]
  · have cast : (c : ℚ) * 10 ^ e = x * 2 ^ p := by
      have := congrArg (fun n : Nat => (n : ℚ)) same
      rw [left, right] at this
      exact mul_right_cancel₀ scale.ne' this
    rw [compare_eq_iff_eq.mpr same, compare_eq_iff_eq.mpr cast]
  · have cast : (x : ℚ) * 2 ^ p < c * 10 ^ e := by
      have : ((_ : ℕ) : ℚ) < ((_ : ℕ) : ℚ) := Nat.cast_lt.mpr more
      rw [left, right] at this
      exact lt_of_mul_lt_mul_right this scale.le
    rw [compare_gt_iff_gt.mpr more, compare_gt_iff_gt.mpr cast]

end Decimal

/-- `m` is `r` rounded to the nearest natural, a tie going to the even one. -/
def RoundsHalfEven (r : ℚ) (m : Nat) : Prop :=
  (m : ℚ) - 1 / 2 ≤ r ∧ r ≤ m + 1 / 2 ∧ (r = m - 1 / 2 ∨ r = m + 1 / 2 → m % 2 = 0)

/-- `roundHalfEven` rounds the exact quotient to the nearest natural, ties to even. -/
theorem roundHalfEven_eq {num den m : Nat} (pos : 0 < den) (rounds : RoundsHalfEven (num / den) m) :
    roundHalfEven num den = m := by
  obtain ⟨lower, upper, tie⟩ := rounds
  have den_pos : (0 : ℚ) < den := by exact_mod_cast pos
  -- the ratio is the quotient plus the fraction `rem / den`
  set q := num / den with q_def
  set rem := num % den with rem_def
  have ratio : (num : ℚ) / den = q + (rem : ℚ) / den := by
    have parts : (num : ℚ) = q * den + rem := by exact_mod_cast (Nat.div_add_mod' num den).symm
    rw [parts]; field_simp
  have frac_lt : (rem : ℚ) / den < 1 := by
    rw [div_lt_one den_pos]; exact_mod_cast Nat.mod_lt num pos
  have frac_nonneg : (0 : ℚ) ≤ (rem : ℚ) / den := by positivity
  have below_half : 2 * rem < den ↔ (rem : ℚ) / den < 1 / 2 := by
    rw [div_lt_iff₀ den_pos, ← (Nat.cast_lt : ((2 * rem : ℕ) : ℚ) < den ↔ _)]; push_cast
    constructor <;> intro h <;> linarith
  have above_half : den < 2 * rem ↔ 1 / 2 < (rem : ℚ) / den := by
    rw [lt_div_iff₀ den_pos, ← (Nat.cast_lt : (den : ℚ) < ((2 * rem : ℕ) : ℚ) ↔ _)]; push_cast
    constructor <;> intro h <;> linarith
  rw [ratio] at lower upper tie
  -- `m` is the quotient or the next number
  have at_most : m ≤ q + 1 := by
    have : (m : ℚ) < q + 2 := by linarith
    exact Nat.le_of_lt_succ (by exact_mod_cast this)
  have at_least : q ≤ m := by
    have : (q : ℚ) < m + 1 := by linarith
    exact Nat.le_of_lt_succ (by exact_mod_cast this)
  unfold roundHalfEven
  simp only [← q_def, ← rem_def]
  rcases (show m = q ∨ m = q + 1 by omega) with rfl | rfl
  · -- the ratio is at most half way up: the quotient, or a tie that needs it even
    split_ifs with low high even
    · rfl
    · linarith [above_half.mp high]
    · rfl
    · have : (rem : ℚ) / den = 1 / 2 := by
        linarith [not_lt.mp (mt below_half.mpr low), not_lt.mp (mt above_half.mpr high)]
      exact absurd (tie (.inr (by rw [this]))) even
  · push_cast at lower tie
    split_ifs with low high even
    · linarith [below_half.mp low]
    · rfl
    · have : (rem : ℚ) / den = 1 / 2 := by
        linarith [not_lt.mp (mt below_half.mpr low), not_lt.mp (mt above_half.mpr high)]
      have := tie (.inl (by rw [this]; ring))
      omega
    · rfl

namespace Binary64

theorem fraction_lt (x : Binary64) : x.fraction < 2 ^ 52 := Nat.mod_lt _ (Nat.two_pow_pos 52)

theorem biasedExponent_lt (x : Binary64) : x.biasedExponent < 2048 := Nat.mod_lt _ (by norm_num)

theorem significand_of_subnormal {x : Binary64} (sub : x.biasedExponent = 0) :
    x.significand = x.fraction := by
  simp [significand, sub]

theorem significand_of_normal {x : Binary64} (normal : x.biasedExponent ≠ 0) :
    x.significand = x.fraction + 2 ^ 52 := by
  simp [significand, normal]

theorem scale_of_subnormal {x : Binary64} (sub : x.biasedExponent = 0) : x.scale = -1074 := by
  simp [scale, sub]

theorem scale_of_normal {x : Binary64} (normal : x.biasedExponent ≠ 0) :
    x.scale = x.biasedExponent - 1075 := by
  simp [scale, normal]

theorem significand_lt (x : Binary64) : x.significand < 2 ^ 53 := by
  have := x.fraction_lt
  by_cases sub : x.biasedExponent = 0
  · rw [significand_of_subnormal sub]; omega
  · rw [significand_of_normal sub]; omega

theorem scale_bounds {x : Binary64} (finite : x.biasedExponent ≠ 2047) :
    -1074 ≤ x.scale ∧ x.scale ≤ 971 := by
  have := x.biasedExponent_lt
  unfold scale; split_ifs <;> omega

/-- A value is assembled back from its own three fields. -/
theorem ofFields_fields (x : Binary64) : ofFields x.negative x.biasedExponent x.fraction = x := by
  obtain ⟨bits⟩ := x
  have fits := bits.toNat_lt
  simp only [ofFields, negative, biasedExponent, fraction, Binary64.mk.injEq]
  apply UInt64.toNat_inj.mp
  simp only [UInt64.toNat_ofNat', Nat.pow_eq, decide_eq_true_eq]
  by_cases high : 2 ^ 63 ≤ bits.toNat
  · simp only [ge_iff_le, high, if_true]; omega
  · simp only [ge_iff_le, high, if_false]; omega

/-- A value is finite exactly when its exponent field is not all ones. -/
theorem isFinite_iff (x : Binary64) : x.isFinite = true ↔ x.biasedExponent ≠ 2047 := by
  simp [isFinite, exponentMask]

/-- How far, in units of the last place, the reading interval of `x` reaches below its
magnitude: a quarter at the least value of a binade above the subnormals, where the next
value down is nearer, and a half everywhere else. -/
def gapBelow (x : Binary64) : ℚ := if x.fraction = 0 ∧ 1 < x.biasedExponent then 1 / 4 else 1 / 2

/-- The magnitude of `x` is the binary64 magnitude nearest to `v`, a tie going to the even
significand: `v`, in units of the last place of `x`, lies in the reading interval. -/
def Nearest (x : Binary64) (v : ℚ) : Prop :=
  let r := v / 2 ^ x.scale
  (x.significand - x.gapBelow < r ∨ x.significand % 2 = 0 ∧ r = x.significand - x.gapBelow) ∧
    (r < x.significand + 1 / 2 ∨ x.significand % 2 = 0 ∧ r = x.significand + 1 / 2)

/-- The exact test of `readsBack` is membership in the reading interval. -/
theorem readsBack_iff {x : Binary64} (pos : 0 < x.significand) (c : Nat) (e : Int) :
    x.readsBack c e = true ↔ x.Nearest (c * 10 ^ e) := by
  have unit : (0 : ℚ) < 2 ^ x.scale := by positivity
  have quarter : (2 : ℚ) ^ (x.scale - 2) = 2 ^ x.scale / 4 := by
    rw [zpow_sub₀ two_ne_zero]; norm_num
  have low : ((x.rounding.low : ℕ) : ℚ) * 2 ^ (x.scale - 2) =
      (x.significand - x.gapBelow) * 2 ^ x.scale := by
    simp only [rounding, gapBelow, quarter]
    split_ifs <;> rw [Nat.cast_sub (by omega)] <;> push_cast <;> ring
  have high : ((x.rounding.high : ℕ) : ℚ) * 2 ^ (x.scale - 2) =
      (x.significand + 1 / 2) * 2 ^ x.scale := by
    simp only [rounding, quarter]; push_cast; ring
  have closed : x.rounding.closed = true ↔ x.significand % 2 = 0 := by simp [rounding]
  simp only [readsBack, Decimal.compareScaled_eq, low, high, Nearest, Bool.and_eq_true, Bool.or_eq_true,
    beq_iff_eq, compare_gt_iff_gt, compare_eq_iff_eq, compare_lt_iff_lt, closed,
    lt_div_iff₀ unit, div_lt_iff₀ unit, div_eq_iff unit.ne']
  constructor <;> rintro ⟨above, below⟩ <;> exact ⟨above.imp_right And.symm, below.imp_right And.symm⟩

/-- The ratio that `ofRatio` rounds at exponent `q`, as the quotient of the two naturals
it compares. -/
theorem scaled_ratio (num den : Nat) (q : Int) :
    ((num * Nat.pow 2 (-q).toNat : Nat) : ℚ) / ((den * Nat.pow 2 q.toNat : Nat) : ℚ) =
      (num : ℚ) / den / 2 ^ q := by
  rw [zpow_eq_div_toNat]; push_cast [Nat.pow_eq]; field_simp

/-- The two powers of two around a positive natural, as rationals. -/
theorem log2_bounds {n : Nat} (pos : 0 < n) :
    (2 : ℚ) ^ n.log2 ≤ n ∧ (n : ℚ) < 2 * 2 ^ n.log2 := by
  constructor
  · exact_mod_cast Nat.log2_self_le pos.ne'
  · have := Nat.lt_log2_self (n := n)
    rw [pow_succ] at this
    exact_mod_cast (by linarith : n < 2 * 2 ^ n.log2)

/-- The exponent `ofRatio` starts from puts the ratio into the binade `[2 ^ 52, 2 ^ 53)`:
the difference of the binary logarithms is off by at most one, and the first quotient
says which way. -/
theorem start_binade {num den : Nat} (hn : 0 < num) (hd : 0 < den) (first : Int)
    (hfirst : first = (num.log2 : Int) - den.log2 - 52) :
    let start := if num * Nat.pow 2 (-first).toNat / (den * Nat.pow 2 first.toNat) < Nat.pow 2 52
      then first - 1 else first
    2 ^ 52 ≤ (num : ℚ) / den / 2 ^ start ∧ (num : ℚ) / den / 2 ^ start < 2 ^ 53 := by
  have power : (2 : ℚ) ^ first = 2 ^ num.log2 / 2 ^ den.log2 / 2 ^ 52 := by
    rw [hfirst, zpow_sub₀ two_ne_zero, zpow_sub₀ two_ne_zero]; norm_num
  obtain ⟨num_low, num_high⟩ := log2_bounds hn
  obtain ⟨den_low, den_high⟩ := log2_bounds hd
  set P : ℚ := 2 ^ num.log2
  set Q : ℚ := 2 ^ den.log2
  have P_pos : 0 < P := by positivity
  have Q_pos : 0 < Q := by positivity
  have den_pos : (0 : ℚ) < den := by exact_mod_cast hd
  set u := (num : ℚ) / den / 2 ^ first with u_def
  have u_eq : u = num * Q * 2 ^ 52 / (den * P) := by rw [u_def, power]; field_simp
  -- the leading bits of `num` and `den` put `u` strictly between `2 ^ 51` and `2 ^ 53`
  have u_low : 2 ^ 51 < u := by
    rw [u_eq, lt_div_iff₀ (mul_pos den_pos P_pos)]
    have den_P : den * P < 2 * Q * P := mul_lt_mul_of_pos_right den_high P_pos
    have P_Q : P * Q ≤ num * Q := mul_le_mul_of_nonneg_right num_low Q_pos.le
    nlinarith
  have u_high : u < 2 ^ 53 := by
    rw [u_eq, div_lt_iff₀ (mul_pos den_pos P_pos)]
    have num_Q : num * Q < 2 * P * Q := mul_lt_mul_of_pos_right num_high Q_pos
    have Q_den : Q * P ≤ den * P := mul_le_mul_of_nonneg_right den_low P_pos.le
    nlinarith
  have first_quotient : num * Nat.pow 2 (-first).toNat / (den * Nat.pow 2 first.toNat) < Nat.pow 2 52 ↔
      u < 2 ^ 52 := by
    have below : 0 < den * Nat.pow 2 first.toNat := Nat.mul_pos hd (Nat.two_pow_pos _)
    rw [Nat.div_lt_iff_lt_mul below, u_def, ← scaled_ratio, div_lt_iff₀ (by exact_mod_cast below)]
    push_cast [Nat.pow_eq]; norm_cast
  dsimp only
  split_ifs with small
  · have twice : (num : ℚ) / den / 2 ^ (first - 1) = 2 * u := by
      rw [zpow_sub₀ two_ne_zero, zpow_one, u_def]; field_simp
    rw [twice]
    constructor <;> linarith [first_quotient.mp small]
  · exact ⟨by linarith [not_lt.mp (mt first_quotient.mpr small)], u_high⟩

/-- Of two exponents, one that puts a positive ratio at or above `2 ^ 52` is below one that
puts it under `2 ^ 52`. -/
theorem exponent_lt {t : ℚ} {a b : ℤ} (low : 2 ^ 52 ≤ t / 2 ^ a) (high : t / 2 ^ b < 2 ^ 52) :
    a < b := by
  by_contra ge
  have t_pos : 0 < t := by
    by_contra nonpos
    have : t / 2 ^ a ≤ 0 := div_nonpos_of_nonpos_of_nonneg (not_lt.mp nonpos) (by positivity)
    linarith [show (0 : ℚ) < 2 ^ 52 by norm_num]
  have powers : (2 : ℚ) ^ b ≤ 2 ^ a := zpow_le_zpow_right₀ one_le_two (not_lt.mp ge)
  have : t / 2 ^ a ≤ t / 2 ^ b := div_le_div_of_nonneg_left t_pos.le (by positivity) powers
  linarith

/-- At most one exponent puts a ratio into the binade `[2 ^ 52, 2 ^ 53)`. -/
theorem exponent_unique {t : ℚ} {a b : ℤ} (in_a : 2 ^ 52 ≤ t / 2 ^ a ∧ t / 2 ^ a < 2 ^ 53)
    (in_b : 2 ^ 52 ≤ t / 2 ^ b ∧ t / 2 ^ b < 2 ^ 53) : a = b := by
  have halve (c : ℤ) : t / 2 ^ (c + 1) = t / 2 ^ c / 2 := by
    rw [zpow_add_one₀ two_ne_zero]; ring
  have a_le : a < b + 1 := exponent_lt in_a.1 (by rw [halve]; linarith [in_b.2])
  have b_le : b < a + 1 := exponent_lt in_b.1 (by rw [halve]; linarith [in_a.2])
  omega

/-- The magnitude of `x` rounds, in units of its last place, to its own significand. -/
theorem Nearest.roundsHalfEven {x : Binary64} {t : ℚ} (near : x.Nearest t) :
    RoundsHalfEven (t / 2 ^ x.scale) x.significand := by
  obtain ⟨low, high⟩ := near
  have gap : x.gapBelow = 1 / 4 ∨ x.gapBelow = 1 / 2 := by
    unfold gapBelow; split_ifs <;> simp
  refine ⟨?_, ?_, ?_⟩
  · rcases low with above | ⟨_, at_end⟩ <;> rcases gap with g | g <;> linarith
  · rcases high with below | ⟨_, at_end⟩ <;> linarith
  · rintro (tie | tie)
    · rcases low with above | ⟨even, _⟩
      · rcases gap with g | g <;> linarith
      · exact even
    · rcases high with below | ⟨even, _⟩
      · linarith
      · exact even

/-- Where `ofRatio` rounds a value that reads as `x`: at the exponent of `x`, or one
below when `x` is the least value of its binade and the value lies under it. -/
theorem start_cases {x : Binary64} (finite : x.biasedExponent ≠ 2047) {t : ℚ} (near : x.Nearest t)
    {start : ℤ} (low : 2 ^ 52 ≤ t / 2 ^ start) (high : t / 2 ^ start < 2 ^ 53) :
    max start (-1074) = x.scale ∨
      max start (-1074) = x.scale - 1 ∧ x.significand = 2 ^ 52 ∧
        RoundsHalfEven (t / 2 ^ (x.scale - 1)) (2 ^ 53) := by
  obtain ⟨scale_low, scale_high⟩ := scale_bounds finite
  obtain ⟨r_low, r_high, -⟩ := near.roundsHalfEven
  have top : (x.significand : ℚ) + 1 ≤ 2 ^ 53 := by exact_mod_cast x.significand_lt
  by_cases upper : 2 ^ 52 ≤ t / 2 ^ x.scale
  · -- the value lies in the binade of `x`
    left
    have same : start = x.scale := exponent_unique ⟨low, high⟩ ⟨upper, by linarith⟩
    omega
  · rw [not_le] at upper
    have below : start < x.scale := exponent_lt low upper
    by_cases least : x.biasedExponent ≤ 1
    · -- subnormal or the least normal binade: the exponent is the least one
      left
      have : x.scale = -1074 := by unfold scale; split_ifs <;> omega
      omega
    · -- `x` is the least value of its binade and the value lies just under it
      right
      have normal : x.biasedExponent ≠ 0 := by omega
      have at_most : x.significand ≤ 2 ^ 52 := by
        have : (x.significand : ℚ) < 2 ^ 52 + 1 := by linarith
        exact Nat.le_of_lt_succ (by exact_mod_cast this)
      have bottom : x.significand = 2 ^ 52 := by
        have := significand_of_normal normal; omega
      have gap : x.gapBelow = 1 / 4 := by
        have : x.fraction = 0 := by have := significand_of_normal normal; omega
        simp only [gapBelow, this, true_and, ite_eq_left_iff, not_lt]; omega
      have r_ge : 2 ^ 52 - 1 / 4 ≤ t / 2 ^ x.scale := by
        obtain ⟨above, -⟩ := near
        rw [gap, bottom] at above
        push_cast at above
        rcases above with lt | ⟨_, eq⟩ <;> linarith
      have twice : t / 2 ^ (x.scale - 1) = 2 * (t / 2 ^ x.scale) := by
        rw [zpow_sub₀ two_ne_zero, zpow_one]; field_simp
      have same : start = x.scale - 1 :=
        exponent_unique ⟨low, high⟩ ⟨by rw [twice]; linarith, by rw [twice]; linarith⟩
      have scale_eq : x.scale = x.biasedExponent - 1075 := scale_of_normal normal
      refine ⟨by omega, bottom, ?_, ?_, ?_⟩ <;> push_cast <;> rw [twice]
      · linarith
      · linarith
      · intro _; norm_num

/-- The last step of `ofRatio` assembles `x` from its significand and exponent. -/
theorem place_significand {x : Binary64} (finite : x.biasedExponent ≠ 2047) (negative : Bool) :
    (if 971 < x.scale then none
      else if x.significand < Nat.pow 2 52 then some (ofFields negative 0 x.significand)
      else some (ofFields negative (x.scale + 1075).toNat (x.significand - Nat.pow 2 52))) =
      some (ofFields negative x.biasedExponent x.fraction) := by
  rw [if_neg (not_lt.mpr (scale_bounds finite).2)]
  simp only [Nat.pow_eq]
  have := x.fraction_lt
  by_cases sub : x.biasedExponent = 0
  · rw [significand_of_subnormal sub, if_pos this, sub]
  · have biased : (x.biasedExponent - 1075 + 1075 : ℤ).toNat = x.biasedExponent := by omega
    rw [significand_of_normal sub, scale_of_normal sub, if_neg (by omega), biased, Nat.add_sub_cancel]

/-- `ofRatio` reads every ratio that reads as `x` back as `x`, with the sign asked for. -/
theorem ofRatio_eq_of_nearest {x : Binary64} (finite : x.biasedExponent ≠ 2047) {num den : Nat}
    (hn : 0 < num) (hd : 0 < den) (near : x.Nearest (num / den)) (negative : Bool) :
    ofRatio negative num den = some (ofFields negative x.biasedExponent x.fraction) := by
  unfold ofRatio
  rw [if_neg (by omega)]
  dsimp only
  generalize hfirst : (num.log2 : Int) - den.log2 - 52 = first
  obtain ⟨low, high⟩ := start_binade hn hd first hfirst.symm
  generalize (if num * Nat.pow 2 (-first).toNat / (den * Nat.pow 2 first.toNat) < Nat.pow 2 52
    then first - 1 else first) = start at low high ⊢
  have den_pos (q : ℤ) : 0 < den * Nat.pow 2 q.toNat := Nat.mul_pos hd (Nat.two_pow_pos _)
  rcases start_cases finite near low high with at_scale | ⟨below, bottom, rounds⟩
  · have rounded : roundHalfEven (num * Nat.pow 2 (-x.scale).toNat) (den * Nat.pow 2 x.scale.toNat) =
        x.significand := roundHalfEven_eq (den_pos _) (by rw [scaled_ratio]; exact near.roundsHalfEven)
    have not_carry : x.significand ≠ Nat.pow 2 53 := by have := x.significand_lt; simp only [Nat.pow_eq]; omega
    rw [at_scale, rounded, if_neg not_carry]
    exact place_significand finite negative
  · have rounded : roundHalfEven (num * Nat.pow 2 (-(x.scale - 1)).toNat) (den * Nat.pow 2 (x.scale - 1).toNat) =
        Nat.pow 2 53 := roundHalfEven_eq (den_pos _) (by rw [scaled_ratio]; exact rounds)
    have carry : ((Nat.pow 2 52, x.scale) : ℕ × ℤ) = (x.significand, x.scale) := by rw [bottom]; rfl
    rw [below, rounded, if_pos rfl, sub_add_cancel, carry]
    exact place_significand finite negative

/-- A value that reads as a finite non-zero `x` lies between `2 ^ -1075` and `2 ^ 1024`. -/
theorem Nearest.bounds {x : Binary64} (finite : x.biasedExponent ≠ 2047) (pos : 0 < x.significand)
    {t : ℚ} (near : x.Nearest t) : 2 ^ (-1075 : ℤ) ≤ t ∧ t < 2 ^ (1024 : ℤ) := by
  obtain ⟨r_low, r_high, -⟩ := near.roundsHalfEven
  obtain ⟨scale_low, scale_high⟩ := scale_bounds finite
  have unit : (0 : ℚ) < 2 ^ x.scale := by positivity
  have one : (1 : ℚ) ≤ x.significand := by exact_mod_cast pos
  have top : (x.significand : ℚ) + 1 ≤ 2 ^ 53 := by exact_mod_cast x.significand_lt
  have least : (2 : ℚ) ^ (-1074 : ℤ) ≤ 2 ^ x.scale := zpow_le_zpow_right₀ one_le_two scale_low
  have most : (2 : ℚ) ^ x.scale ≤ 2 ^ (971 : ℤ) := zpow_le_zpow_right₀ one_le_two scale_high
  rw [le_div_iff₀ unit] at r_low
  rw [div_le_iff₀ unit] at r_high
  constructor
  · calc (2 : ℚ) ^ (-1075 : ℤ) = 2 ^ (-1 : ℤ) * 2 ^ (-1074 : ℤ) := by
          rw [← zpow_add₀ two_ne_zero]; norm_num
      _ ≤ (x.significand - 1 / 2) * 2 ^ x.scale :=
          mul_le_mul (by norm_num; linarith) least (by positivity) (by linarith)
      _ ≤ t := r_low
  · calc t ≤ (x.significand + 1 / 2) * 2 ^ x.scale := r_high
      _ < 2 ^ (53 : ℤ) * 2 ^ x.scale := by
          apply mul_lt_mul_of_pos_right _ unit; rw [zpow_ofNat]; linarith
      _ ≤ 2 ^ (53 : ℤ) * 2 ^ (971 : ℤ) := mul_le_mul_of_nonneg_left most (by positivity)
      _ = 2 ^ (1024 : ℤ) := by rw [← zpow_add₀ two_ne_zero]; norm_num

/-- Every finite binary64 magnitude is below `10 ^ 309`. -/
theorem two_zpow_1024_lt : (2 : ℚ) ^ (1024 : ℤ) < 10 ^ (309 : ℤ) := by
  have powers : ((Nat.pow 2 1024 : ℕ) : ℚ) < ((Nat.pow 10 309 : ℕ) : ℚ) :=
    Nat.cast_lt.mpr (by decide +kernel)
  simpa only [zpow_ofNat, Nat.pow_eq, Nat.cast_pow, Nat.cast_ofNat] using powers

/-- Every value that reads as a non-zero binary64 value is above `10 ^ -331`. -/
theorem ten_zpow_neg_331_lt : (10 : ℚ) ^ (-331 : ℤ) < 2 ^ (-1075 : ℤ) := by
  rw [zpow_neg, zpow_neg, inv_lt_inv₀ (by positivity) (by positivity)]
  have powers : ((Nat.pow 2 1075 : ℕ) : ℚ) < ((Nat.pow 10 331 : ℕ) : ℚ) :=
    Nat.cast_lt.mpr (by decide +kernel)
  simpa only [zpow_ofNat, Nat.pow_eq, Nat.cast_pow, Nat.cast_ofNat] using powers

/-- `ofDecimal` reads every decimal that reads as `x` back as `x`: the shortcuts for
exponents far out of range are never taken for such a decimal. -/
theorem ofDecimal_eq_of_nearest {x : Binary64} (finite : x.biasedExponent ≠ 2047)
    (pos : 0 < x.significand) {digits : Nat} {exponent : Int} (hd : 0 < digits)
    (near : x.Nearest (digits * 10 ^ exponent)) (negative : Bool) :
    ofDecimal negative digits exponent = some (ofFields negative x.biasedExponent x.fraction) := by
  obtain ⟨least, most⟩ := near.bounds finite pos
  have digits_pos : (1 : ℚ) ≤ digits := by exact_mod_cast hd
  have not_huge : ¬310 < exponent := by
    intro huge
    have above : (10 : ℚ) ^ (311 : ℤ) ≤ digits * 10 ^ exponent :=
      calc (10 : ℚ) ^ (311 : ℤ) ≤ 10 ^ exponent := zpow_le_zpow_right₀ (by norm_num) huge
        _ ≤ digits * 10 ^ exponent := le_mul_of_one_le_left (by positivity) digits_pos
    have limit : (2 : ℚ) ^ (1024 : ℤ) < 10 ^ (311 : ℤ) :=
      two_zpow_1024_lt.trans (zpow_lt_zpow_right₀ (by norm_num) (by norm_num))
    exact lt_irrefl _ (above.trans_lt (most.trans limit))
  have not_tiny : ¬exponent + decimalLength digits < -330 := by
    intro tiny
    have below : digits * (10 : ℚ) ^ exponent < 10 ^ (-331 : ℤ) :=
      calc digits * (10 : ℚ) ^ exponent < 10 ^ (decimalLength digits : ℤ) * 10 ^ exponent := by
            apply mul_lt_mul_of_pos_right _ (by positivity)
            rw [zpow_natCast]; exact_mod_cast lt_pow_decimalLength digits
        _ = 10 ^ (decimalLength digits + exponent) := (zpow_add₀ (by norm_num) _ _).symm
        _ ≤ 10 ^ (-331 : ℤ) := zpow_le_zpow_right₀ (by norm_num) (by omega)
    exact lt_irrefl _ (least.trans_lt (below.trans ten_zpow_neg_331_lt))
  unfold ofDecimal
  rw [if_neg (by omega), if_neg not_huge, if_neg not_tiny]
  split_ifs with nonneg
  · refine ofRatio_eq_of_nearest finite (Nat.mul_pos hd (Nat.pow_pos (by norm_num))) one_pos ?_ negative
    convert near using 1
    push_cast [Nat.pow_eq]
    rw [div_one, ← zpow_natCast, Int.toNat_of_nonneg nonneg]
  · refine ofRatio_eq_of_nearest finite hd (Nat.pow_pos (by norm_num)) ?_ negative
    convert near using 1
    push_cast [Nat.pow_eq]
    rw [← zpow_natCast, Int.toNat_of_nonneg (by omega), div_eq_mul_inv, ← zpow_neg, neg_neg]

end Binary64

end BlockCodec
