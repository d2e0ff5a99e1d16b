import Mathlib.Algebra.Order.Field.Power
import Mathlib.Data.Rat.Cast.Order
import Mathlib.Tactic.FieldSimp
import Mathlib.Tactic.Linarith
import Mathlib.Tactic.NormNum
import Mathlib.Tactic.Positivity
import Mathlib.Tactic.Ring
import SiteManifest.Number.Decimal

/-!
# Rounding to a binary64 number

Every finite number but zero covers an interval of ratios around it. A ratio is rounded to the number
that covers it, whichever numerator and denominator it is given by.

## Main definitions

* `Binary64.Covers`: the ratio lies in the interval of the number.

## Main statements

* `Binary64.ofRatio_of_covers`: a ratio is rounded to the number that covers it.
-/
namespace SiteManifest.Number

variable {num den n : ℕ} {y q : ℚ} {e : ℤ}

/-! ## Powers as ratios -/

theorem ratio_pow {b : ℕ} (hb : b ≠ 0) (e : ℤ) :
    ((Nat.pow b e.toNat : ℕ) : ℚ) / (Nat.pow b (-e).toNat : ℕ) = (b : ℚ) ^ e := by
  have hb' : (b : ℚ) ≠ 0 := Nat.cast_ne_zero.2 hb
  rcases Int.le_total 0 e with positive | negative
  · obtain ⟨n, rfl⟩ := Int.eq_ofNat_of_zero_le positive
    simp
  · obtain ⟨n, hn⟩ := Int.eq_ofNat_of_zero_le (Int.neg_nonneg_of_nonpos negative)
    obtain rfl : e = -n := by omega
    simp

theorem twoPow_ratio (e : ℤ) : ((twoPow e).1 : ℚ) / (twoPow e).2 = 2 ^ e :=
  ratio_pow (by decide) e

theorem tenPow_ratio (e : ℤ) : ((tenPow e).1 : ℚ) / (tenPow e).2 = 10 ^ e :=
  ratio_pow (by decide) e

theorem twoPow_pos (e : ℤ) : 0 < (twoPow e).2 := Nat.pow_pos (by decide)

theorem tenPow_pos (e : ℤ) : 0 < (tenPow e).2 := Nat.pow_pos (by decide)

/-! ## Rounding a quotient -/

/-- The ratio is nearest to a natural number, of two to the even one. -/
def NearestTo (n : ℕ) (y : ℚ) : Prop :=
  (n - 1 / 2 < y ∧ y < n + 1 / 2) ∨ n % 2 = 0 ∧ (n - 1 / 2 = y ∨ n + 1 / 2 = y)

/-- A quotient with its remainder, as twice the distance to some number. -/
theorem roundDiv_even_of_bounds (pos : 0 < den) (low : 2 * n * den ≤ 2 * num + den)
    (high : 2 * num ≤ 2 * n * den + den)
    (tie : 2 * n * den = 2 * num + den ∨ 2 * num = 2 * n * den + den → n % 2 = 0) :
    roundDiv .even num den = n := by
  have split : den * (num / den) + num % den = num := Nat.div_add_mod num den
  have rest : num % den < den := Nat.mod_lt num pos
  unfold roundDiv Tie.settle
  dsimp only
  generalize num / den = k at split ⊢
  generalize num % den = r at split rest ⊢
  have near : n = k ∨ n = k + 1 := by
    have above : n < k + 2 := by
      by_contra far
      have := Nat.mul_le_mul_right den (Nat.le_of_not_lt far)
      nlinarith
    have below : k < n + 1 := by
      by_contra far
      have := Nat.mul_le_mul_right den (Nat.le_of_not_lt far)
      nlinarith
    omega
  have commuted : 2 * n * den = 2 * (den * n) := by ring
  rw [commuted] at low high tie
  rcases near with rfl | rfl
  · generalize den * n = product at *
    grind
  · rw [Nat.mul_add, Nat.mul_one] at low high tie
    generalize den * k = product at *
    grind

theorem roundDiv_even (pos : 0 < den) (h : NearestTo n ((num : ℚ) / den)) :
    roundDiv .even num den = n := by
  have pos' : (0 : ℚ) < den := Nat.cast_pos.2 pos
  have low : (n - 1 / 2 : ℚ) ≤ num / den := by
    rcases h with ⟨low, -⟩ | ⟨-, same | same⟩ <;> linarith
  have high : (num / den : ℚ) ≤ n + 1 / 2 := by
    rcases h with ⟨-, high⟩ | ⟨-, same | same⟩ <;> linarith
  rw [le_div_iff₀ pos'] at low
  rw [div_le_iff₀ pos'] at high
  have low' : (2 * n * den : ℚ) ≤ 2 * num + den := by linarith
  have high' : (2 * num : ℚ) ≤ 2 * n * den + den := by linarith
  refine roundDiv_even_of_bounds pos (by exact_mod_cast low') (by exact_mod_cast high') fun tie => ?_
  rcases h with ⟨above, below⟩ | ⟨even, -⟩
  · rw [lt_div_iff₀ pos'] at above
    rw [div_lt_iff₀ pos'] at below
    rcases tie with tie | tie
    · have tie : (2 * n * den : ℚ) = 2 * num + den := by exact_mod_cast tie
      linarith
    · have tie : (2 * num : ℚ) = 2 * n * den + den := by exact_mod_cast tie
      linarith
  · exact even

/-! ## The exponent of a ratio -/

/-- The exponent at which a ratio is rounded to a significand. -/
def ratioExponent (num den : ℕ) : ℤ :=
  let guess := max ((num.log2 : ℤ) - den.log2 - 53) (-1074)
  if num * (twoPow (-guess)).1 / (den * (twoPow (-guess)).2) < 2 * leadingBit then guess
  else guess + 1

theorem ofRatio_eq {negative : Bool} (nonzero : num ≠ 0) :
    Binary64.ofRatio negative num den =
      let e := ratioExponent num den
      let m := roundDiv .even (num * (twoPow (-e)).1) (den * (twoPow (-e)).2)
      if m = 2 * leadingBit then Binary64.ofScaled negative leadingBit (e + 1)
      else Binary64.ofScaled negative m e := by
  rw [Binary64.ofRatio, if_neg nonzero]
  rfl

theorem scaled_ratio (e : ℤ) :
    ((num * (twoPow (-e)).1 : ℕ) : ℚ) / (den * (twoPow (-e)).2 : ℕ) = num / den / 2 ^ e := by
  rw [Nat.cast_mul, Nat.cast_mul, mul_div_mul_comm, twoPow_ratio, zpow_neg, div_eq_mul_inv _ (2 ^ e)]

/-- The whole part of a ratio at some exponent fits a significand if the ratio is small enough. -/
theorem floor_lt_iff (pos : 0 < den) :
    num * (twoPow (-e)).1 / (den * (twoPow (-e)).2) < 2 * leadingBit ↔
      (num : ℚ) / den < 2 ^ (e + 53) := by
  have below : 0 < den * (twoPow (-e)).2 := Nat.mul_pos pos (twoPow_pos _)
  have below' : (0 : ℚ) < (den * (twoPow (-e)).2 : ℕ) := Nat.cast_pos.2 below
  rw [Nat.div_lt_iff_lt_mul below, ← Nat.cast_lt (α := ℚ), Nat.cast_mul (2 * leadingBit),
    ← div_lt_iff₀ below', scaled_ratio, div_lt_iff₀ (by positivity), zpow_add₀ (by norm_num)]
  norm_num [mul_comm]

/-- The ratio lies between powers of two that the logarithms of its parts tell. -/
theorem ratio_bounds (hn : num ≠ 0) (hd : den ≠ 0) :
    (2 : ℚ) ^ ((num.log2 : ℤ) - den.log2 - 1) ≤ num / den ∧
      (num : ℚ) / den < 2 ^ ((num.log2 : ℤ) - den.log2 + 1) := by
  have numLow : (2 : ℚ) ^ num.log2 ≤ num := by exact_mod_cast Nat.log2_self_le hn
  have numHigh : (num : ℚ) < 2 ^ (num.log2 + 1) := by exact_mod_cast Nat.lt_log2_self
  have denLow : (2 : ℚ) ^ den.log2 ≤ den := by exact_mod_cast Nat.log2_self_le hd
  have denHigh : (den : ℚ) < 2 ^ (den.log2 + 1) := by exact_mod_cast Nat.lt_log2_self
  have pos : (0 : ℚ) < den := by positivity
  constructor
  · have split : (2 : ℚ) ^ ((num.log2 : ℤ) - den.log2 - 1) = 2 ^ num.log2 / 2 ^ (den.log2 + 1) := by
      rw [← zpow_natCast, ← zpow_natCast, ← zpow_sub₀ (by norm_num)]
      congr 1
      push_cast
      ring
    rw [split]
    exact div_le_div₀ (by positivity) numLow pos denHigh.le
  · have split : (2 : ℚ) ^ ((num.log2 : ℤ) - den.log2 + 1) = 2 ^ (num.log2 + 1) / 2 ^ den.log2 := by
      rw [← zpow_natCast, ← zpow_natCast, ← zpow_sub₀ (by norm_num)]
      congr 1
      push_cast
      ring
    rw [split]
    exact div_lt_div₀ numHigh denLow (by positivity) (by positivity)

/-- The exponent is the least one at which the significand fits, unless it is the least of all. -/
theorem ratioExponent_spec (hn : num ≠ 0) (hd : den ≠ 0) :
    -1074 ≤ ratioExponent num den ∧ (num : ℚ) / den < 2 ^ (ratioExponent num den + 53) ∧
      (ratioExponent num den = -1074 ∨ (2 : ℚ) ^ (ratioExponent num den + 52) ≤ num / den) := by
  obtain ⟨low, high⟩ := ratio_bounds hn hd
  have mono {i j : ℤ} (h : i ≤ j) : (2 : ℚ) ^ i ≤ 2 ^ j := zpow_le_zpow_right₀ (by norm_num) h
  unfold ratioExponent
  dsimp only
  generalize hg : max ((num.log2 : ℤ) - den.log2 - 53) (-1074) = guess
  split
  next fits =>
    rw [floor_lt_iff (Nat.pos_of_ne_zero hd)] at fits
    refine ⟨by omega, fits, ?_⟩
    by_cases least : guess = -1074
    · exact .inl least
    · exact .inr ((mono (by omega)).trans low)
  next large =>
    rw [floor_lt_iff (Nat.pos_of_ne_zero hd), not_lt] at large
    refine ⟨by omega, high.trans_le (mono (by omega)), .inr ?_⟩
    rwa [add_assoc]

/-! ## The interval of a number -/

namespace Binary64

variable {x : Binary64}

/-- How far a number reaches below itself, in units of its last place: not so far if the next smaller
number is nearer than the next greater one. -/
def reach (x : Binary64) : ℚ := if x.fraction.val = 0 ∧ 1 < x.exponent.val then 1 / 4 else 1 / 2

/-- The ratio lies between the middles to the neighbours of the number. The middles belong to the
number with the even significand. -/
def Covers (x : Binary64) (q : ℚ) : Prop :=
  (x.significand - x.reach < q / 2 ^ x.scale ∧ q / 2 ^ x.scale < x.significand + 1 / 2) ∨
    x.significand % 2 = 0 ∧
      (x.significand - x.reach = q / 2 ^ x.scale ∨ x.significand + 1 / 2 = q / 2 ^ x.scale)

theorem reach_le (x : Binary64) : x.reach ≤ 1 / 2 := by
  unfold reach
  split <;> norm_num

theorem reach_pos (x : Binary64) : 0 < x.reach := by
  unfold reach
  split <;> norm_num

theorem Covers.bounds (h : x.Covers q) :
    x.significand - x.reach ≤ q / 2 ^ x.scale ∧ q / 2 ^ x.scale ≤ x.significand + 1 / 2 := by
  have := x.reach_pos
  rcases h with ⟨low, high⟩ | ⟨-, same | same⟩
  · exact ⟨low.le, high.le⟩
  · exact ⟨same.le, by linarith⟩
  · exact ⟨by linarith, same.ge⟩

theorem significand_lt (x : Binary64) : x.significand < 2 * leadingBit := by
  have := x.fraction.isLt
  unfold significand
  split <;> omega

theorem scale_of_le (h : x.exponent.val ≤ 1) : x.scale = -1074 := by
  unfold scale
  omega

/-- A number whose scale is not the least one has a leading bit. -/
theorem significand_eq_of_lt (h : 1 < x.exponent.val) :
    x.significand = x.fraction.val + leadingBit := by
  have : x.exponent ≠ 0 := by
    rintro zero
    simp [zero] at h
  rw [significand, if_neg this]

theorem significand_pos (h : x.isZero = false) : 0 < x.significand := by
  unfold isZero at h
  unfold significand
  split
  next zero =>
    simp only [zero, beq_self_eq_true, Bool.true_and, beq_eq_false_iff_ne] at h
    exact Nat.pos_of_ne_zero fun none => h (Fin.ext none)
  next => exact Nat.add_pos_right _ (by decide)

/-- A number is made of its significand and its scale. -/
theorem ofScaled_significand (x : Binary64) :
    ofScaled x.negative x.significand x.scale = some x := by
  obtain ⟨negative, exponent, fraction⟩ := x
  by_cases zero : exponent = 0
  · subst zero
    simp [ofScaled, significand]
  · have positive : 0 < exponent.val := Nat.pos_of_ne_zero fun none => zero (Fin.ext none)
    have field : (max (exponent.val : ℤ) 1).toNat = exponent.val := by omega
    simpa [ofScaled, significand, scale, zero] using Fin.ext field

/-- At its own scale a covered ratio is nearest to the significand. -/
theorem Covers.nearestTo (h : x.Covers q) : NearestTo x.significand (q / 2 ^ x.scale) := by
  have short := x.reach_le
  rcases h with ⟨low, high⟩ | ⟨even, same | same⟩
  · exact .inl ⟨by linarith, high⟩
  · rcases short.eq_or_lt with half | quarter
    · exact .inr ⟨even, .inl (by linarith)⟩
    · exact .inl ⟨by linarith, by linarith [x.reach_pos]⟩
  · exact .inr ⟨even, .inr same⟩

/-- A ratio that is covered from below by a number with a nearer neighbour, one scale further down. -/
theorem Covers.nearestTo_below (h : x.Covers q) (least : -1074 ≤ e) (below : e < x.scale)
    (fits : q < 2 ^ (e + 53)) :
    e + 1 = x.scale ∧ x.significand = leadingBit ∧ NearestTo (2 * leadingBit) (q / 2 ^ e) := by
  have normal : 1 < x.exponent.val := by
    by_contra small
    rw [scale_of_le (Nat.le_of_not_lt small)] at below
    omega
  have lead := significand_eq_of_lt normal
  have lead' : (x.significand : ℚ) = x.fraction.val + 4503599627370496 := by
    rw [lead, Nat.cast_add]
    norm_num
  obtain ⟨low, -⟩ := h.bounds
  have short := x.reach_le
  have high : q / 2 ^ x.scale < 2 ^ (e + 53 - x.scale) := by
    rw [zpow_sub₀ two_ne_zero]
    exact div_lt_div_of_pos_right fits (by positivity)
  have fraction_nonneg : (0 : ℚ) ≤ x.fraction.val := by positivity
  -- Further down the ratio would be much smaller than a number with a leading bit.
  have next : e + 1 = x.scale := by
    by_contra further
    have small : (2 : ℚ) ^ (e + 53 - x.scale) ≤ 2 ^ (51 : ℤ) :=
      zpow_le_zpow_right₀ (by norm_num) (by omega)
    norm_num at small
    linarith
  have high : q / 2 ^ x.scale < 4503599627370496 := by
    have exact : e + 53 - x.scale = 52 := by omega
    rw [exact] at high
    norm_num at high
    exact high
  have none : x.fraction.val = 0 := by
    by_contra some
    have one : (1 : ℚ) ≤ x.fraction.val := by exact_mod_cast Nat.pos_of_ne_zero some
    linarith
  have near : x.reach = 1 / 4 := if_pos ⟨none, normal⟩
  have double : q / 2 ^ e = 2 * (q / 2 ^ x.scale) := by
    rw [← next, zpow_add_one₀ two_ne_zero]
    field_simp
  rw [lead', none, near] at low
  refine ⟨next, by rw [lead, none, Nat.zero_add], ?_⟩
  rw [double]
  unfold NearestTo
  norm_num at low ⊢
  rcases low.eq_or_lt with same | above
  · exact .inr (.inl (by linarith))
  · exact .inl ⟨by linarith, by linarith⟩

/-- A ratio is rounded to the number that covers it. -/
theorem ofRatio_of_covers (nonzero : x.isZero = false) (pos : 0 < den)
    (h : x.Covers (num / den)) : ofRatio x.negative num den = some x := by
  have unit : (0 : ℚ) < 2 ^ x.scale := by positivity
  obtain ⟨low, high⟩ := h.bounds
  have one : (1 : ℚ) ≤ x.significand := by exact_mod_cast significand_pos nonzero
  have hn : num ≠ 0 := by
    rintro rfl
    norm_num at low
    linarith [x.reach_le]
  obtain ⟨least, fits, normal⟩ := ratioExponent_spec hn pos.ne'
  have round {n : ℕ} (near : NearestTo n (num / den / 2 ^ ratioExponent num den)) :
      roundDiv .even (num * (twoPow (-ratioExponent num den)).1)
        (den * (twoPow (-ratioExponent num den)).2) = n :=
    roundDiv_even (Nat.mul_pos pos (twoPow_pos _)) (by rwa [scaled_ratio])
  rw [ofRatio_eq hn]
  dsimp only
  rcases lt_trichotomy (ratioExponent num den) x.scale with below | same | above
  · obtain ⟨next, lead, near⟩ := h.nearestTo_below least below fits
    rw [round near, if_pos rfl, next, ← lead, ofScaled_significand]
  · rw [round (same ▸ h.nearestTo), if_neg x.significand_lt.ne, same, ofScaled_significand]
  · -- At a greater scale the ratio would have a leading bit too many.
    have large : (2 : ℚ) ^ (ratioExponent num den + 52) ≤ num / den := by
      refine normal.resolve_left fun least => ?_
      unfold scale at above
      omega
    have larger : (2 : ℚ) ^ (53 : ℤ) ≤ num / den / 2 ^ x.scale := by
      rw [le_div_iff₀ unit, ← zpow_add₀ two_ne_zero]
      exact (zpow_le_zpow_right₀ (by norm_num) (by omega)).trans large
    have bound : (x.significand : ℚ) + 1 ≤ 9007199254740992 := by
      exact_mod_cast x.significand_lt
    norm_num at larger
    linarith

end Binary64

end SiteManifest.Number
