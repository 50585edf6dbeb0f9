import BlockCodec.Proofs.Rounding
import Mathlib.Algebra.Order.Floor.Semifield
import Mathlib.Data.Rat.Floor

namespace BlockCodec

namespace Decimal

def value (d : Decimal) : ℚ := d.digits * 10 ^ d.exponent

theorem trim_value (d : Decimal) : d.trim.value = d.value := by
  induction d using trim.induct with
  | case1 d zeros ih =>
    rw [trim, if_pos zeros, ih]
    obtain ⟨digits, exponent⟩ := d
    simp only [value] at zeros ⊢
    have tens : (digits : ℚ) = (digits / 10 : Nat) * 10 := by
      exact_mod_cast (Nat.div_mul_cancel (Nat.dvd_of_mod_eq_zero zeros.2)).symm
    rw [zpow_add_one₀ (by norm_num), tens]; ring
  | case2 d plain => rw [trim, if_neg plain]

/-- The point position of a decimal places its value between two powers of ten. -/
theorem value_bounds (d : Decimal) (pos : 0 < d.digits) :
    (10 : ℚ) ^ (d.pointPosition - 1) ≤ d.value ∧ d.value < 10 ^ d.pointPosition := by
  have low : (10 : ℚ) ^ (decimalLength d.digits - 1) ≤ d.digits := by exact_mod_cast pow_decimalLength_le pos
  have high : (d.digits : ℚ) < 10 ^ decimalLength d.digits := by exact_mod_cast lt_pow_decimalLength d.digits
  have one := one_le_decimalLength d.digits
  have tens : (0 : ℚ) < 10 ^ d.exponent := by positivity
  rw [Decimal.value, Decimal.pointPosition]
  constructor
  · calc (10 : ℚ) ^ ((decimalLength d.digits : ℤ) + d.exponent - 1)
          = 10 ^ ((decimalLength d.digits - 1 : ℕ) : ℤ) * 10 ^ d.exponent := by
            rw [← zpow_add₀ (by norm_num)]; congr 1; omega
      _ ≤ d.digits * 10 ^ d.exponent := by rw [zpow_natCast]; gcongr
  · calc (d.digits : ℚ) * 10 ^ d.exponent < 10 ^ decimalLength d.digits * 10 ^ d.exponent := by gcongr
      _ = 10 ^ ((decimalLength d.digits : ℤ) + d.exponent) := by
            rw [zpow_add₀ (by norm_num), zpow_natCast]

/-- `floorScaled m q e` is the floor of `m · 2 ^ q / 10 ^ e`. -/
theorem floorScaled_bounds (m : Nat) (q e : Int) :
    (floorScaled m q e : ℚ) ≤ m * 2 ^ q / 10 ^ e ∧ (m : ℚ) * 2 ^ q / 10 ^ e < floorScaled m q e + 1 := by
  have ratio : ((m * Nat.pow 2 q.toNat * Nat.pow 10 (-e).toNat : ℕ) : ℚ) /
      ((Nat.pow 2 (-q).toNat * Nat.pow 10 e.toNat : ℕ) : ℚ) = m * 2 ^ q / 10 ^ e := by
    rw [zpow_eq_div_toNat 2 q, zpow_eq_div_toNat 10 e]; push_cast [Nat.pow_eq]; field_simp
  have floor_eq : ⌊((m * Nat.pow 2 q.toNat * Nat.pow 10 (-e).toNat : ℕ) : ℚ) /
      ((Nat.pow 2 (-q).toNat * Nat.pow 10 e.toNat : ℕ) : ℚ)⌋₊ = floorScaled m q e :=
    Nat.floor_div_eq_div _ _
  rw [← floor_eq, ratio]
  exact ⟨Nat.floor_le (by positivity), Nat.lt_floor_add_one _⟩

/-- `pointOf m q` is one past the position of the leading digit of `m · 2 ^ q`. -/
theorem pow_pointOf_le {m : Nat} (pos : 0 < m) (q : Int) : (10 : ℚ) ^ (pointOf m q - 1) ≤ m * 2 ^ q := by
  unfold pointOf
  dsimp only
  split_ifs with above
  · -- the digit counts of numerator and denominator place the value within a factor of ten
    have num_pos : 0 < m * Nat.pow 2 q.toNat := Nat.mul_pos pos (Nat.two_pow_pos _)
    have num_low := pow_decimalLength_le num_pos
    have den_high := lt_pow_decimalLength (Nat.pow 2 (-q).toNat)
    set a := decimalLength (m * Nat.pow 2 q.toNat)
    set b := decimalLength (Nat.pow 2 (-q).toNat)
    have one_le := one_le_decimalLength (m * Nat.pow 2 q.toNat)
    have num_low' : (10 : ℚ) ^ (a - 1) ≤ (m * Nat.pow 2 q.toNat : ℕ) := by exact_mod_cast num_low
    have den_high' : ((Nat.pow 2 (-q).toNat : ℕ) : ℚ) < 10 ^ b := by exact_mod_cast den_high
    have value : (m : ℚ) * 2 ^ q = (m * Nat.pow 2 q.toNat : ℕ) / (Nat.pow 2 (-q).toNat : ℕ) := by
      rw [zpow_eq_div_toNat]; push_cast [Nat.pow_eq]; ring
    have exponent : ((a : ℤ) - b - 1) = ((a - 1 : ℕ) : ℤ) - (b : ℤ) := by omega
    rw [value, exponent, zpow_sub₀ (by norm_num), zpow_natCast, zpow_natCast]
    exact div_le_div₀ (by positivity) num_low' (by exact_mod_cast Nat.two_pow_pos _) den_high'.le
  · have := (compareScaled_eq 1 _ m q).symm.trans_ne above
    rw [Nat.cast_one, one_mul, Ne, compare_gt_iff_gt, not_lt] at this
    simpa using this

end Decimal
namespace Binary64

/-- The reading interval is an interval: what lies between two values that read as `x`
reads as `x`. -/
theorem Nearest.between {x : Binary64} {a b t : ℚ} (low : x.Nearest a) (high : x.Nearest b)
    (above : a ≤ t) (below : t ≤ b) : x.Nearest t := by
  have unit : (0 : ℚ) < 2 ^ x.scale := by positivity
  have above' : a / 2 ^ x.scale ≤ t / 2 ^ x.scale := div_le_div_of_nonneg_right above unit.le
  have below' : t / 2 ^ x.scale ≤ b / 2 ^ x.scale := div_le_div_of_nonneg_right below unit.le
  obtain ⟨low_end, -⟩ := low
  obtain ⟨-, high_end⟩ := high
  refine ⟨?_, ?_⟩
  · rcases low_end with inside | ⟨even, at_end⟩
    · exact .inl (inside.trans_le above')
    · rcases above'.lt_or_eq with inside | same
      · exact .inl (at_end ▸ inside)
      · exact .inr ⟨even, same ▸ at_end⟩
  · rcases high_end with inside | ⟨even, at_end⟩
    · exact .inl (below'.trans_lt inside)
    · rcases below'.lt_or_eq with inside | same
      · exact .inl (at_end ▸ inside)
      · exact .inr ⟨even, same.symm ▸ at_end⟩

/-- The magnitude of a value reads as the value. -/
theorem nearest_self (x : Binary64) : x.Nearest (x.significand * 2 ^ x.scale) := by
  have unit : (0 : ℚ) ≠ 2 ^ x.scale := (by positivity : (0 : ℚ) < 2 ^ x.scale).ne
  have gap : 0 < x.gapBelow := by unfold gapBelow; split_ifs <;> norm_num
  refine ⟨.inl ?_, .inl ?_⟩ <;> rw [mul_div_cancel_right₀ _ unit.symm] <;> linarith

/-- Only positive values read as a non-zero value. -/
theorem Nearest.pos {x : Binary64} (nonzero : 0 < x.significand) {t : ℚ} (near : x.Nearest t) :
    0 < t := by
  obtain ⟨r_low, -, -⟩ := near.roundsHalfEven
  have one : (1 : ℚ) ≤ x.significand := by exact_mod_cast nonzero
  have : 0 < t / 2 ^ x.scale := by linarith
  exact (div_pos_iff_of_pos_right (by positivity)).mp this

theorem nearestOnGrid_readsBack {x : Binary64} {e : Int} {c : Nat} (found : x.nearestOnGrid e = some c) :
    x.readsBack c e = true := by
  unfold nearestOnGrid at found
  generalize Decimal.floorScaled x.significand x.scale e = f at found
  cases down : x.readsBack f e <;> cases up : x.readsBack (f + 1) e <;> simp only [down, up] at found
  · exact absurd found (by simp)
  · cases found; exact up
  · cases found; exact down
  · split at found <;> simp only [Option.some.injEq] at found <;> subst found
    · exact down
    · exact up
    · split_ifs
      · exact down
      · exact up

/-- `nearestOnGrid` finds nothing exactly when neither neighbour of the value reads back. -/
theorem nearestOnGrid_eq_none {x : Binary64} {e : Int} :
    x.nearestOnGrid e = none ↔
      x.readsBack (Decimal.floorScaled x.significand x.scale e) e = false ∧
        x.readsBack (Decimal.floorScaled x.significand x.scale e + 1) e = false := by
  unfold nearestOnGrid
  generalize Decimal.floorScaled x.significand x.scale e = f
  cases down : x.readsBack f e <;> cases up : x.readsBack (f + 1) e <;>
    simp [down, up]
  split <;> simp

/-- `nearestOnGrid` finds a decimal on a grid whenever one on it reads back: the reading
interval holds the value itself, so with any point of the grid it holds a neighbour of the
value. -/
theorem nearestOnGrid_ne_none {x : Binary64} (nonzero : 0 < x.significand) {e : Int} {c : Nat}
    (reads : x.readsBack c e = true) : x.nearestOnGrid e ≠ none := by
  obtain ⟨floor_le, lt_floor⟩ := Decimal.floorScaled_bounds x.significand x.scale e
  set f := Decimal.floorScaled x.significand x.scale e
  have tens : (0 : ℚ) < 10 ^ e := by positivity
  have self := x.nearest_self
  have near := (readsBack_iff nonzero c e).mp reads
  rw [le_div_iff₀ tens] at floor_le
  rw [div_lt_iff₀ tens] at lt_floor
  rw [Ne, nearestOnGrid_eq_none, not_and_or, Bool.not_eq_false, Bool.not_eq_false]
  rcases le_or_gt c f with at_most | above
  · -- a point at or below the floor: the floor lies between it and the value
    have c_le : (c : ℚ) * 10 ^ e ≤ f * 10 ^ e := by gcongr
    exact .inl ((readsBack_iff nonzero f e).mpr (near.between self c_le floor_le))
  · -- a point above the floor: the next point lies between the value and it
    have c_ge : ((f + 1 : ℕ) : ℚ) * 10 ^ e ≤ c * 10 ^ e := by gcongr; exact_mod_cast above
    refine .inr ((readsBack_iff nonzero (f + 1) e).mpr (self.between near ?_ c_ge))
    push_cast
    exact lt_floor.le

/-- The reading interval is wider than the grid of the seventeenth digit, so some decimal of
seventeen digits reads back. -/
theorem readsBack_seventeen_digits {x : Binary64} (nonzero : 0 < x.significand) :
    ∃ c, x.readsBack c (Decimal.pointOf x.significand x.scale - 17) = true := by
  set k := Decimal.pointOf x.significand x.scale
  have lead : (10 : ℚ) ^ (k - 1) ≤ x.significand * 2 ^ x.scale := Decimal.pow_pointOf_le nonzero x.scale
  have unit : (0 : ℚ) < 2 ^ x.scale := by positivity
  have step : (0 : ℚ) < 10 ^ (k - 17) := by positivity
  have one : (1 : ℚ) ≤ x.significand := by exact_mod_cast nonzero
  have gap_le : x.gapBelow ≤ 1 / 2 := by unfold gapBelow; split_ifs <;> norm_num
  -- the significand stays below `10 ^ 16` times the width of the interval in last places
  have short : (x.significand : ℚ) < (1 / 2 + x.gapBelow) * 10 ^ 16 := by
    unfold gapBelow
    split_ifs with bottom
    · have : x.significand = 2 ^ 52 := by
        rw [significand_of_normal (by omega), bottom.1]; rfl
      rw [this]; norm_num
    · have : (x.significand : ℚ) < 2 ^ 53 := by exact_mod_cast x.significand_lt
      linarith
  have spacing : 10 ^ (k - 17) < (1 / 2 + x.gapBelow) * 2 ^ x.scale := by
    have shift : (10 : ℚ) ^ (k - 1) = 10 ^ (k - 17) * 10 ^ 16 := by
      rw [← zpow_natCast, ← zpow_add₀ (by norm_num)]; congr 1; push_cast; ring
    rw [shift] at lead
    have : (10 : ℚ) ^ (k - 17) * 10 ^ 16 < (1 / 2 + x.gapBelow) * 2 ^ x.scale * 10 ^ 16 := by
      calc (10 : ℚ) ^ (k - 17) * 10 ^ 16 ≤ x.significand * 2 ^ x.scale := lead
        _ < (1 / 2 + x.gapBelow) * 10 ^ 16 * 2 ^ x.scale := mul_lt_mul_of_pos_right short unit
        _ = (1 / 2 + x.gapBelow) * 2 ^ x.scale * 10 ^ 16 := by ring
    exact lt_of_mul_lt_mul_right this (by norm_num)
  -- the first grid point above the low end lies inside the interval
  set low := (x.significand - x.gapBelow) * 2 ^ x.scale
  have low_nonneg : 0 ≤ low / 10 ^ (k - 17) := by
    have : 0 ≤ low := mul_nonneg (by linarith) unit.le
    positivity
  refine ⟨⌊low / 10 ^ (k - 17)⌋₊ + 1, (readsBack_iff nonzero _ _).mpr ?_⟩
  have above := Nat.lt_floor_add_one (low / 10 ^ (k - 17))
  have below := Nat.floor_le low_nonneg
  rw [div_lt_iff₀ step] at above
  rw [le_div_iff₀ step] at below
  refine ⟨.inl ?_, .inl ?_⟩
  · rw [lt_div_iff₀ unit]; push_cast; exact above
  · rw [div_lt_iff₀ unit]; push_cast
    calc (↑⌊low / 10 ^ (k - 17)⌋₊ + 1) * 10 ^ (k - 17) ≤ low + 10 ^ (k - 17) := by linarith
      _ < (x.significand + 1 / 2) * 2 ^ x.scale := by simp only [low]; linarith

/-- The shortest decimal reads back as the value. -/
theorem shortest_nearest {x : Binary64} (nonzero : 0 < x.significand) : x.Nearest x.shortest.value := by
  unfold shortest
  dsimp only
  set k := Decimal.pointOf x.significand x.scale
  have last : k - 17 ∈ (List.range 17).map fun i => k - (i + 1 : Nat) :=
    List.mem_map.mpr ⟨16, List.mem_range.mpr (by norm_num), by norm_num⟩
  have found : ((List.range 17).map fun i => k - (i + 1 : Nat)).findSome?
      (fun e => (x.nearestOnGrid e).map fun c => (⟨c, e⟩ : Decimal)) ≠ none := by
    rw [Ne, List.findSome?_eq_none_iff]
    intro none_found
    obtain ⟨c, reads⟩ := readsBack_seventeen_digits nonzero
    have := none_found (k - 17) last
    rw [Option.map_eq_none_iff] at this
    exact nearestOnGrid_ne_none nonzero reads this
  obtain ⟨d, hd⟩ := Option.ne_none_iff_exists'.mp found
  rw [hd]
  obtain ⟨e, -, at_e⟩ := List.exists_of_findSome?_eq_some hd
  obtain ⟨c, hc, rfl⟩ := Option.map_eq_some_iff.mp at_e
  rw [Decimal.trim_value]
  exact (readsBack_iff nonzero c e).mp (nearestOnGrid_readsBack hc)

/-- The shortest decimal of a non-zero value has a digit other than zero. -/
theorem shortest_digits_pos {x : Binary64} (nonzero : 0 < x.significand) : 0 < x.shortest.digits := by
  have positive := (shortest_nearest nonzero).pos nonzero
  rw [Decimal.value] at positive
  rcases Nat.eq_zero_or_pos x.shortest.digits with zero | pos
  · rw [zero] at positive; simp at positive
  · exact pos

end Binary64

end BlockCodec
