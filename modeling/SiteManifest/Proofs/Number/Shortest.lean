import SiteManifest.Proofs.Number.Rounding

/-!
# Shortest decimals read back

The decimal that a number is written with lies in the interval of the number: a decimal that is found
on a grid does by test, and on the grid of seventeen digits the nearest decimal always does. So the
number is read back from every decimal of the same value.

## Main definitions

* `Decimal.value`: the ratio that a decimal stands for.

## Main statements

* `Binary64.ofDecimal_of_covers`: a decimal is read as the number that covers it.
* `Binary64.covers_shortest`: a number covers the decimal that it is written with.
* `Binary64.ofDecimal_of_value`: decimals of that value are read as the number.
-/
namespace SiteManifest.Number

variable {num den n : ℕ} {x : Binary64} {d : Decimal} {tie : Tie} {e : ℤ}

def Decimal.value (d : Decimal) : ℚ := d.digits * 10 ^ d.exponent

/-- Zeros that are written behind the digits count in the exponent. -/
theorem Decimal.value_mul_pow (n k : ℕ) (e : ℤ) :
    (Decimal.mk (n * 10 ^ k) (e - k)).value = (Decimal.mk n e).value := by
  rw [value, value, zpow_sub₀ (by norm_num), zpow_natCast]
  push_cast
  field_simp

/-! ## Rounding a quotient either way -/

theorem roundDiv_eq_or (tie : Tie) (num den : ℕ) :
    roundDiv tie num den = num / den ∨ roundDiv tie num den = num / den + 1 := by
  unfold roundDiv Tie.settle
  grind

/-- A rounded quotient is at most a half away from the ratio. -/
theorem roundDiv_near (tie : Tie) (num : ℕ) (pos : 0 < den) :
    2 * den * roundDiv tie num den ≤ 2 * num + den ∧
      2 * num ≤ 2 * den * roundDiv tie num den + den := by
  have split : den * (num / den) + num % den = num := Nat.div_add_mod num den
  have rest : num % den < den := Nat.mod_lt num pos
  unfold roundDiv Tie.settle
  dsimp only
  generalize num / den = k at split ⊢
  generalize num % den = r at split rest ⊢
  have next : den * (k + 1) = den * k + den := Nat.mul_succ den k
  rw [Nat.mul_assoc]
  generalize hp : den * k = product at *
  have parity : k % 2 = 0 ∨ k % 2 = 1 := by omega
  split
  · rw [hp]
    omega
  · split
    · rw [next]
      omega
    · cases tie
      · rcases parity with even | odd
        · simp only [even, Nat.add_zero, hp]
          omega
        · simp only [odd, next]
          omega
      · simp only [next]
        omega

theorem abs_roundDiv_sub_le (tie : Tie) (num : ℕ) (pos : 0 < den) :
    |(roundDiv tie num den : ℚ) - num / den| ≤ 1 / 2 := by
  obtain ⟨low, high⟩ := roundDiv_near tie num pos
  have pos' : (0 : ℚ) < den := Nat.cast_pos.2 pos
  have low : (2 * den * roundDiv tie num den : ℚ) ≤ 2 * num + den := by exact_mod_cast low
  have high : (2 * num : ℚ) ≤ 2 * den * roundDiv tie num den + den := by exact_mod_cast high
  rw [abs_le]
  constructor
  · have : (num : ℚ) / den ≤ roundDiv tie num den + 1 / 2 := by
      rw [div_le_iff₀ pos']
      linarith
    linarith
  · have : (roundDiv tie num den : ℚ) - 1 / 2 ≤ num / den := by
      rw [le_div_iff₀ pos']
      linarith
    linarith

/-! ## The interval as it is computed -/

namespace Binary64

/-- A quarter of the last place, which everything is counted in. -/
theorem quarter_eq (x : Binary64) :
    (x.rounding.unit.1 : ℚ) = 2 ^ x.scale / 4 * x.rounding.unit.2 := by
  have pos : (0 : ℚ) < x.rounding.unit.2 := Nat.cast_pos.2 (twoPow_pos _)
  have ratio : (x.rounding.unit.1 : ℚ) / x.rounding.unit.2 = 2 ^ (x.scale - 2) := twoPow_ratio _
  rw [zpow_sub₀ two_ne_zero] at ratio
  rw [← div_eq_iff pos.ne', ratio]
  norm_num

/-- Comparing quarters with a decimal by multiplying out the denominators. -/
theorem quarters_lt_iff (x : Binary64) (d : Decimal) (k : ℕ) :
    (k * x.rounding.unit.1 * (tenPow d.exponent).2 <
        d.digits * (tenPow d.exponent).1 * x.rounding.unit.2 ↔
      (k / 4 : ℚ) < d.value / 2 ^ x.scale) ∧
    (k * x.rounding.unit.1 * (tenPow d.exponent).2 =
        d.digits * (tenPow d.exponent).1 * x.rounding.unit.2 ↔
      (k / 4 : ℚ) = d.value / 2 ^ x.scale) ∧
    (d.digits * (tenPow d.exponent).1 * x.rounding.unit.2 <
        k * x.rounding.unit.1 * (tenPow d.exponent).2 ↔
      d.value / 2 ^ x.scale < (k / 4 : ℚ)) := by
  have unit : (0 : ℚ) < x.rounding.unit.2 := Nat.cast_pos.2 (twoPow_pos _)
  have grid : (0 : ℚ) < (tenPow d.exponent).2 := Nat.cast_pos.2 (tenPow_pos _)
  have scale : (0 : ℚ) < 2 ^ x.scale := by positivity
  have ten : ((tenPow d.exponent).1 : ℚ) = 10 ^ d.exponent * (tenPow d.exponent).2 := by
    rw [← div_eq_iff grid.ne', tenPow_ratio]
  let common : ℚ := 2 ^ x.scale * x.rounding.unit.2 * (tenPow d.exponent).2
  have common_pos : 0 < common := by positivity
  have quarters : ((k * x.rounding.unit.1 * (tenPow d.exponent).2 : ℕ) : ℚ) = k / 4 * common := by
    push_cast
    rw [quarter_eq]
    ring
  have decimal : ((d.digits * (tenPow d.exponent).1 * x.rounding.unit.2 : ℕ) : ℚ) =
      d.value / 2 ^ x.scale * common := by
    push_cast
    rw [ten, Decimal.value]
    simp only [common]
    field_simp
  refine ⟨?_, ?_, ?_⟩
  · rw [← Nat.cast_lt (α := ℚ), quarters, decimal, mul_lt_mul_iff_left₀ common_pos]
  · rw [← Nat.cast_inj (R := ℚ), quarters, decimal, mul_left_inj' common_pos.ne']
  · rw [← Nat.cast_lt (α := ℚ), quarters, decimal, mul_lt_mul_iff_left₀ common_pos]

theorem low_eq (nonzero : x.isZero = false) :
    (x.rounding.low / 4 : ℚ) = x.significand - x.reach := by
  have pos := significand_pos nonzero
  unfold rounding reach
  dsimp only
  by_cases nearer : x.fraction.val = 0 ∧ 1 < x.exponent.val
  · rw [if_pos (by simpa using nearer), if_pos nearer, Nat.cast_sub (by omega)]
    push_cast
    ring
  · rw [if_neg (by simpa using nearer), if_neg nearer, Nat.cast_sub (by omega)]
    push_cast
    ring

theorem high_eq (x : Binary64) : (x.rounding.high / 4 : ℚ) = x.significand + 1 / 2 := by
  unfold rounding
  push_cast
  ring

theorem holds_iff (nonzero : x.isZero = false) (d : Decimal) :
    x.rounding.holds d = true ↔ x.Covers d.value := by
  have low := x.quarters_lt_iff d x.rounding.low
  have high := x.quarters_lt_iff d x.rounding.high
  rw [low_eq nonzero] at low
  rw [high_eq] at high
  unfold Rounding.holds Covers
  simp only [Bool.or_eq_true, Bool.and_eq_true, decide_eq_true_eq, beq_iff_eq]
  rw [low.1, low.2.1, high.2.1, high.2.2, rounding]
  simp only [beq_iff_eq]

/-! ## The number of digits -/

/-- The value of a number without its sign. -/
def size (x : Binary64) : ℚ := x.significand * 2 ^ x.scale

theorem center_ratio (x : Binary64) :
    ((x.rounding.center * x.rounding.unit.1 : ℕ) : ℚ) / x.rounding.unit.2 = x.size := by
  have pos : (0 : ℚ) < x.rounding.unit.2 := Nat.cast_pos.2 (twoPow_pos _)
  rw [div_eq_iff pos.ne', Nat.cast_mul, quarter_eq, size]
  unfold rounding
  push_cast
  ring

end Binary64

theorem pow_length_le (h : 0 < n) : 10 ^ ((Nat.toDigits 10 n).length - 1) ≤ n := by
  by_contra small
  have long : 0 < (Nat.toDigits 10 n).length := Nat.length_toDigits_pos
  rcases Nat.eq_zero_or_pos ((Nat.toDigits 10 n).length - 1) with one | more
  · rw [one] at small
    omega
  · have := (Nat.length_toDigits_le_iff (by decide) more).2 (Nat.lt_of_not_le small)
    omega

theorem lt_pow_length (n : ℕ) : n < 10 ^ (Nat.toDigits 10 n).length :=
  (Nat.length_toDigits_le_iff (by decide) Nat.length_toDigits_pos).1 (Nat.le_refl _)

/-- The magnitude does not have more digits before the point than are told. -/
theorem Rounding.pow_magnitude_le (r : Rounding) (unit : 0 < r.unit.2)
    (positive : 0 < r.center * r.unit.1) :
    (10 : ℚ) ^ (r.magnitude - 1) ≤ (r.center * r.unit.1 : ℕ) / r.unit.2 := by
  have unit' : (0 : ℚ) < r.unit.2 := Nat.cast_pos.2 unit
  unfold magnitude
  dsimp only
  generalize r.center * r.unit.1 = num at positive ⊢
  generalize r.unit.2 = den at unit unit' ⊢
  have positive' : (0 : ℚ) < num := Nat.cast_pos.2 positive
  split
  next whole =>
    have digits := (Nat.le_div_iff_mul_le unit).1 (pow_length_le (Nat.div_pos whole unit))
    have long : 0 < (Nat.toDigits 10 (num / den)).length := Nat.length_toDigits_pos
    generalize (Nat.toDigits 10 (num / den)).length = length at digits long ⊢
    have exponent : (length : ℤ) - 1 = (length - 1 : ℕ) := by omega
    rw [le_div_iff₀ unit', exponent, zpow_natCast]
    exact_mod_cast digits
  next fraction =>
    have digits := (Nat.div_lt_iff_lt_mul positive).1 (lt_pow_length (den / num))
    have long : 0 < (Nat.toDigits 10 (den / num)).length := Nat.length_toDigits_pos
    generalize (Nat.toDigits 10 (den / num)).length = length at digits long ⊢
    have zeros : (length : ℤ) - 1 = (length - 1 : ℕ) := by omega
    rw [zeros, Int.toNat_natCast]
    split
    next exact =>
      have exponent : 1 - ((length - 1 : ℕ) : ℤ) - 1 = -((length - 1 : ℕ) : ℤ) := by omega
      have exact : (num : ℚ) * 10 ^ (length - 1) = den := by exact_mod_cast exact
      rw [exponent, zpow_neg, zpow_natCast, ← exact]
      field_simp
      rfl
    next =>
      have exponent : -((length - 1 : ℕ) : ℤ) - 1 = -(length : ℤ) := by omega
      have digits : (den : ℚ) < 10 ^ length * num := by exact_mod_cast digits
      rw [exponent, zpow_neg, zpow_natCast, le_div_iff₀ unit', inv_mul_le_iff₀ (by positivity)]
      exact digits.le

/-! ## The search -/

namespace Rounding

/-- What is found on a grid lies in the interval. -/
theorem holds_of_hit? {r : Rounding} (h : r.hit? tie e = some d) : r.holds d = true := by
  unfold hit? at h
  dsimp only at h
  split at h
  next below above =>
    obtain rfl := Option.some.inj h
    unfold nearest
    dsimp only
    rcases roundDiv_eq_or tie (r.center * r.unit.1 * (tenPow e).2) ((tenPow e).1 * r.unit.2) with
      down | up
    · rwa [down]
    · rwa [up]
  next below _ =>
    obtain rfl := Option.some.inj h
    exact below
  next above =>
    obtain rfl := Option.some.inj h
    exact above
  next => contradiction

/-- The search ends in the interval if the finest grid has a point in it. -/
theorem holds_search {r : Rounding} (finer : ℕ) (e : ℤ)
    (last : r.holds (r.nearest tie (e - finer)) = true) :
    r.holds (r.search tie finer e) = true := by
  induction finer generalizing e with
  | zero => simpa [search] using last
  | succ finer ih =>
    rw [search]
    split
    next hit => exact holds_of_hit? hit
    next =>
      apply ih
      have same : e - 1 - finer = e - (finer + 1 : ℕ) := by omega
      rwa [same]

end Rounding

namespace Binary64

/-- The nearest point of a grid is at most half the grid away. -/
theorem abs_nearest_sub_le (x : Binary64) (tie : Tie) (e : ℤ) :
    |(x.rounding.nearest tie e).value - x.size| ≤ 10 ^ e / 2 := by
  have pos : 0 < (tenPow e).1 * x.rounding.unit.2 :=
    Nat.mul_pos (Nat.pow_pos (by decide)) (twoPow_pos _)
  have near := abs_roundDiv_sub_le tie (x.rounding.center * x.rounding.unit.1 * (tenPow e).2) pos
  have ten : (0 : ℚ) < 10 ^ e := by positivity
  have ratio : ((x.rounding.center * x.rounding.unit.1 * (tenPow e).2 : ℕ) : ℚ) /
      ((tenPow e).1 * x.rounding.unit.2 : ℕ) = x.size / 10 ^ e := by
    rw [← center_ratio, ← tenPow_ratio, Nat.cast_mul _ (tenPow e).2, Nat.cast_mul (tenPow e).1,
      div_div_div_eq, mul_comm ((tenPow e).1 : ℚ)]
  rw [ratio] at near
  have split : (x.rounding.nearest tie e).value - x.size =
      ((roundDiv tie (x.rounding.center * x.rounding.unit.1 * (tenPow e).2)
        ((tenPow e).1 * x.rounding.unit.2) : ℕ) - x.size / 10 ^ e) * 10 ^ e := by
    rw [sub_mul, div_mul_cancel₀ _ ten.ne']
    rfl
  rw [split, abs_mul, abs_of_pos ten]
  linarith [mul_le_mul_of_nonneg_right near ten.le]

theorem covers_of_near {q : ℚ} (near : |q - x.size| < x.reach * 2 ^ x.scale) : x.Covers q := by
  have unit : (0 : ℚ) < 2 ^ x.scale := by positivity
  obtain ⟨low, high⟩ := abs_lt.1 near
  have short := mul_le_mul_of_nonneg_right x.reach_le unit.le
  rw [size] at low high
  refine .inl ⟨?_, ?_⟩
  · rw [lt_div_iff₀ unit]
    linarith
  · rw [div_lt_iff₀ unit]
    linarith

/-- Half a grid of seventeen digits is less than a number reaches. -/
theorem half_grid_lt (nonzero : x.isZero = false) :
    (10 : ℚ) ^ (x.rounding.magnitude - 17) / 2 < x.reach * 2 ^ x.scale := by
  have unit : (0 : ℚ) < 2 ^ x.scale := by positivity
  have positive : 0 < x.rounding.center * x.rounding.unit.1 :=
    Nat.mul_pos (Nat.mul_pos (by decide) (significand_pos nonzero)) (Nat.pow_pos (by decide))
  have digits := x.rounding.pow_magnitude_le (twoPow_pos _) positive
  rw [center_ratio, size] at digits
  have shift : (10 : ℚ) ^ (x.rounding.magnitude - 1) =
      10 ^ (x.rounding.magnitude - 17) * 10000000000000000 := by
    have exponent : x.rounding.magnitude - 1 = x.rounding.magnitude - 17 + 16 := by omega
    rw [exponent, zpow_add₀ (by norm_num)]
    norm_num
  rw [shift] at digits
  -- The significand is below 2 ^ 53, and equal to 2 ^ 52 where the reach is shorter.
  have bound : (x.significand : ℚ) ≤ 18014398509481984 * x.reach := by
    unfold reach
    split
    next nearer =>
      rw [significand_eq_of_lt nearer.2, nearer.1]
      norm_num
    next =>
      have := x.significand_lt.le
      have : (x.significand : ℚ) ≤ 9007199254740992 := by exact_mod_cast this
      linarith
  have bound := mul_le_mul_of_nonneg_right bound unit.le
  have reaches : 0 < x.reach * 2 ^ x.scale := mul_pos x.reach_pos unit
  linarith

/-- A number covers the decimal that it is written with. -/
theorem covers_shortest (nonzero : x.isZero = false) (tie : Tie) :
    x.Covers (x.shortest tie).value := by
  rw [← holds_iff nonzero, shortest, if_neg (by simp [nonzero])]
  apply Rounding.holds_search
  rw [holds_iff nonzero]
  have finest : x.rounding.magnitude - 1 - (16 : ℕ) = x.rounding.magnitude - 17 := by omega
  rw [finest]
  exact covers_of_near ((abs_nearest_sub_le x tie _).trans_lt (half_grid_lt nonzero))

/-! ## Reading a decimal -/

theorem range_of_covers (nonzero : x.isZero = false) {q : ℚ} (h : x.Covers q) :
    (2 : ℚ) ^ (-1075 : ℤ) ≤ q ∧ q < 2 ^ (1024 : ℤ) := by
  have unit : (0 : ℚ) < 2 ^ x.scale := by positivity
  have mono {i j : ℤ} (h : i ≤ j) : (2 : ℚ) ^ i ≤ 2 ^ j := zpow_le_zpow_right₀ (by norm_num) h
  obtain ⟨low, high⟩ := h.bounds
  have one : (1 : ℚ) ≤ x.significand := by exact_mod_cast significand_pos nonzero
  have bound : (x.significand : ℚ) + 1 ≤ 9007199254740992 := by exact_mod_cast x.significand_lt
  have exponent := x.exponent.isLt
  constructor
  · have least : (2 : ℚ) ^ (-1075 : ℤ) ≤ 2 ^ (-1 : ℤ) * 2 ^ x.scale := by
      rw [← zpow_add₀ two_ne_zero]
      exact mono (by unfold scale; omega)
    have half : (2 : ℚ) ^ (-1 : ℤ) ≤ q / 2 ^ x.scale := by
      norm_num
      linarith [x.reach_le]
    exact least.trans ((le_div_iff₀ unit).1 half)
  · have greatest : (2 : ℚ) ^ (53 : ℤ) * 2 ^ x.scale ≤ 2 ^ (1024 : ℤ) := by
      rw [← zpow_add₀ two_ne_zero]
      exact mono (by unfold scale; omega)
    have fits : q / 2 ^ x.scale < 2 ^ (53 : ℤ) := by
      norm_num
      linarith
    exact ((div_lt_iff₀ unit).1 fits).trans_le greatest

end Binary64

theorem Decimal.value_eq_ratio (d : Decimal) :
    d.value = (d.digits * (tenPow d.exponent).1 : ℕ) / (tenPow d.exponent).2 := by
  rw [Nat.cast_mul, mul_div_assoc, tenPow_ratio, value]

/-- The number of digits tells between which powers of ten a decimal lies. -/
theorem Decimal.value_bounds (h : 0 < d.digits) :
    (10 : ℚ) ^ (((Nat.toDigits 10 d.digits).length : ℤ) + d.exponent - 1) ≤ d.value ∧
      d.value < 10 ^ (((Nat.toDigits 10 d.digits).length : ℤ) + d.exponent) := by
  have low := pow_length_le h
  have high := lt_pow_length d.digits
  have long : 0 < (Nat.toDigits 10 d.digits).length := Nat.length_toDigits_pos
  generalize (Nat.toDigits 10 d.digits).length = length at low high long ⊢
  have ten : (0 : ℚ) < 10 ^ d.exponent := by positivity
  have before : (length : ℤ) + d.exponent - 1 = (length - 1 : ℕ) + d.exponent := by omega
  rw [before, zpow_add₀ (by norm_num), zpow_add₀ (by norm_num), zpow_natCast, zpow_natCast, value]
  constructor
  · exact mul_le_mul_of_nonneg_right (by exact_mod_cast low) ten.le
  · exact mul_lt_mul_of_pos_right (by exact_mod_cast high) ten

/-- Four hundred decimal places are more than enough in either direction. -/
theorem two_pow_le_ten_pow : (2 : ℚ) ^ (1200 : ℤ) ≤ 10 ^ (400 : ℤ) := by
  have eight : (2 : ℚ) ^ (1200 : ℤ) = 8 ^ (400 : ℤ) := by
    have : (8 : ℚ) = 2 ^ (3 : ℤ) := by norm_num
    rw [this, ← zpow_mul]
    rfl
  rw [eight]
  exact zpow_le_zpow_left₀ (by norm_num) (by norm_num) (by norm_num)

namespace Binary64

theorem ofDecimal_of_covers (nonzero : x.isZero = false) (h : x.Covers d.value) :
    ofDecimal x.negative d.digits d.exponent = some x := by
  obtain ⟨low, high⟩ := range_of_covers nonzero h
  have positive : 0 < d.digits := by
    by_contra none
    have : d.value = 0 := by
      rw [Decimal.value, Nat.eq_zero_of_not_pos none]
      simp
    have : (0 : ℚ) < 2 ^ (-1075 : ℤ) := by positivity
    linarith
  obtain ⟨least, greatest⟩ := Decimal.value_bounds positive
  have two {i j : ℤ} (h : i ≤ j) : (2 : ℚ) ^ i ≤ 2 ^ j := zpow_le_zpow_right₀ (by norm_num) h
  have ten {i j : ℤ} (h : i ≤ j) : (10 : ℚ) ^ i ≤ 10 ^ j := zpow_le_zpow_right₀ (by norm_num) h
  have notTiny : ¬((Nat.toDigits 10 d.digits).length : ℤ) + d.exponent < -400 := by
    intro tiny
    have small : (10 : ℚ) ^ (-400 : ℤ) ≤ 2 ^ (-1200 : ℤ) := by
      rw [zpow_neg, zpow_neg]
      exact inv_anti₀ (by positivity) two_pow_le_ten_pow
    have : (2 : ℚ) ^ (-1200 : ℤ) ≤ 2 ^ (-1075 : ℤ) := two (by norm_num)
    linarith [ten tiny.le]
  have notHuge : ¬400 < ((Nat.toDigits 10 d.digits).length : ℤ) + d.exponent := by
    intro huge
    have large := ten (i := 400) (j := (Nat.toDigits 10 d.digits).length + d.exponent - 1) (by omega)
    have : (2 : ℚ) ^ (1024 : ℤ) ≤ 2 ^ (1200 : ℤ) := two (by norm_num)
    exact absurd (high.trans_le this) (not_lt.2 (two_pow_le_ten_pow.trans (large.trans least)))
  have covered := ofRatio_of_covers nonzero (tenPow_pos d.exponent) (Decimal.value_eq_ratio d ▸ h)
  unfold ofDecimal
  simp [positive.ne', notTiny, notHuge, covered]

/-- Every decimal of the value that a number is written with is read as this number. -/
theorem ofDecimal_of_value (same : d.value = (x.shortest tie).value) :
    ofDecimal x.negative d.digits d.exponent = some x := by
  cases zero : x.isZero with
  | false => exact ofDecimal_of_covers zero (same ▸ covers_shortest zero tie)
  | true =>
    rw [shortest, if_pos zero] at same
    have none : d.digits = 0 := by
      simpa [Decimal.value, zpow_ne_zero] using same
    rw [isZero, Bool.and_eq_true, beq_iff_eq, beq_iff_eq] at zero
    obtain ⟨negative, exponent, fraction⟩ := x
    obtain ⟨rfl, rfl⟩ : exponent = 0 ∧ fraction = 0 := zero
    simp [ofDecimal, none, Binary64.zero]

end Binary64

end SiteManifest.Number
