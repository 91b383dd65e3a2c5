import ClassView.Number.Shortest
import Mathlib.Algebra.Order.Field.Power
import Mathlib.Algebra.Order.Ring.Rat
import Mathlib.Tactic.FieldSimp
import Mathlib.Tactic.Linarith
import Mathlib.Tactic.NormNum
import Mathlib.Tactic.Positivity
import Mathlib.Tactic.Ring

/-!
# Decimals and magnitudes as rational numbers

A decimal and the magnitude of a binary number are both rational numbers. What is computed with
numerators, denominators and scales is here told by these rationals.

* `Decimal.value`, `Magnitude.value`: the rational number;
* `Magnitude.Spans`: the interval of what rounds to a magnitude, half way to both its neighbours,
  with its ends if the significand is even;
* `Decimal.value_normal`: zeros at the end of a coefficient can be dropped;
* `Magnitude.within_iff`, **`Magnitude.covers_iff`**: the comparisons in whole numbers are those of
  the rationals;
* `Magnitude.Spans.between`: what lies between a number of the interval and the magnitude.
-/

namespace ClassView.Number

/-! ## 1. Decimals -/

/-- The number that a decimal stands for. -/
def Decimal.value (d : Decimal) : ℚ := d.coefficient * 10 ^ d.exponent

theorem Decimal.value_nonneg (d : Decimal) : 0 ≤ d.value := by
  unfold Decimal.value
  positivity

/-- A decimal can be written with any smaller exponent. -/
theorem Decimal.exists_value_eq (d : Decimal) {e : ℤ} (h : e ≤ d.exponent) :
    ∃ c : Decimal, c.exponent = e ∧ c.value = d.value := by
  obtain ⟨k, hk⟩ := Int.le.dest h
  refine ⟨⟨d.coefficient * 10 ^ k, e⟩, rfl, ?_⟩
  rw [value, value, ← hk, zpow_add₀ (by norm_num), zpow_natCast]
  push_cast
  ring

theorem Decimal.value_dropZeros (count : Nat) (d : Decimal) :
    (dropZeros count d).value = d.value := by
  induction count generalizing d with
  | zero => rfl
  | succ count ih =>
    unfold dropZeros
    split
    · rename_i h
      have hcoefficient : (d.coefficient : ℚ) = 10 * (d.coefficient / 10 : ℕ) := by
        exact_mod_cast (show d.coefficient = 10 * (d.coefficient / 10) by omega)
      rw [ih, value, value, hcoefficient, zpow_add_one₀ (by norm_num)]
      ring
    · rfl

theorem Decimal.value_normal (d : Decimal) : d.normal.value = d.value :=
  d.value_dropZeros _

/-! ## 2. Magnitudes -/

/-- A power as a fraction of two powers without sign, one of which is 1. -/
theorem zpow_eq_div {b : ℚ} (hb : b ≠ 0) (e : ℤ) : b ^ e = b ^ e.toNat / b ^ (-e).toNat := by
  rw [← zpow_natCast, ← zpow_natCast, ← zpow_sub₀ hb]
  congr 1
  omega

@[push_cast] theorem cast_natPow (b n : ℕ) : ((Nat.pow b n : ℕ) : ℚ) = (b : ℚ) ^ n :=
  Nat.cast_pow b n

namespace Magnitude

variable (v : Magnitude)

/-- The number that a magnitude stands for. -/
def value : ℚ := v.significand * 2 ^ v.exponent

theorem value_nonneg : 0 ≤ v.value := by
  unfold value
  positivity

theorem denominator_pos : 0 < (v.denominator : ℚ) := by
  exact_mod_cast Nat.pow_pos (show 0 < 2 by decide)

theorem unit_div_denominator : (v.unit : ℚ) / v.denominator = 2 ^ v.exponent := by
  rw [zpow_eq_div two_ne_zero, unit, denominator]
  norm_cast

theorem value_eq_div : v.value = v.numerator / v.denominator := by
  rw [value, ← unit_div_denominator, numerator, Nat.cast_mul, mul_div_assoc]

theorem isZero_iff : v.isZero = true ↔ v.value = 0 := by
  have hpower : (2 : ℚ) ^ v.exponent ≠ 0 := zpow_ne_zero _ two_ne_zero
  simp [isZero, value, hpower]

theorem within_iff {num den bound : Nat} (hden : 0 < den) :
    v.within num den bound = true ↔ (num / den : ℚ) ≤ v.value ∧ v.value < bound := by
  have hpos := v.denominator_pos
  have hden' : (0 : ℚ) < den := by exact_mod_cast hden
  rw [within, Bool.and_eq_true, decide_eq_true_eq, decide_eq_true_eq, value_eq_div,
    div_le_div_iff₀ hden' hpos, div_lt_iff₀ hpos]
  norm_cast

/-! ## 3. The interval of a magnitude -/

/-- Half way to the next smaller value. -/
def lowerEnd : ℚ := v.value - (if v.narrowBelow then 1 / 4 else 1 / 2) * 2 ^ v.exponent

/-- Half way to the next larger value. -/
def upperEnd : ℚ := v.value + 1 / 2 * 2 ^ v.exponent

/-- The number is one of those that round to the magnitude: it lies between the two ends, or at one
    of them if the significand is even. -/
def Spans (x : ℚ) : Prop :=
  if v.significand % 2 = 0 then v.lowerEnd ≤ x ∧ x ≤ v.upperEnd
  else v.lowerEnd < x ∧ x < v.upperEnd

variable {v}

theorem spans_iff {x : ℚ} : v.Spans x ↔
    (v.lowerEnd < x ∨ x = v.lowerEnd ∧ v.significand % 2 = 0) ∧
      (x < v.upperEnd ∨ x = v.upperEnd ∧ v.significand % 2 = 0) := by
  unfold Spans
  split_ifs with heven
  · simp only [heven, and_true, le_iff_lt_or_eq, eq_comm]
  · simp only [heven, and_false, or_false]

theorem lowerEnd_lt_value : v.lowerEnd < v.value := by
  have hpos : (0 : ℚ) < 2 ^ v.exponent := by positivity
  unfold lowerEnd
  split_ifs <;> linarith

theorem value_lt_upperEnd : v.value < v.upperEnd := by
  have hpos : (0 : ℚ) < 2 ^ v.exponent := by positivity
  unfold upperEnd
  linarith

theorem spans_value : v.Spans v.value := by
  unfold Spans
  split_ifs
  · exact ⟨lowerEnd_lt_value.le, value_lt_upperEnd.le⟩
  · exact ⟨lowerEnd_lt_value, value_lt_upperEnd⟩

/-- The interval has no gaps. -/
theorem Spans.between {a b x : ℚ} (ha : v.Spans a) (hb : v.Spans b) (hax : a ≤ x) (hxb : x ≤ b) :
    v.Spans x := by
  unfold Spans at *
  split_ifs at *
  · exact ⟨ha.1.trans hax, hxb.trans hb.2⟩
  · exact ⟨ha.1.trans_le hax, hxb.trans_lt hb.2⟩

/-- Nothing that rounds to a magnitude other than zero is zero. -/
theorem lowerEnd_pos (h : v.significand ≠ 0) : 0 < v.lowerEnd := by
  have hpos : (0 : ℚ) < 2 ^ v.exponent := by positivity
  have hone : (1 : ℚ) ≤ v.significand := by exact_mod_cast Nat.one_le_iff_ne_zero.2 h
  unfold lowerEnd value
  split_ifs <;> nlinarith

theorem Spans.pos {x : ℚ} (hx : v.Spans x) (h : v.significand ≠ 0) : 0 < x := by
  have hlower := lowerEnd_pos h
  unfold Spans at hx
  split_ifs at hx
  · exact hlower.trans_le hx.1
  · exact hlower.trans hx.1

/-! ## 4. Comparisons in whole numbers -/

section Covers

variable (v) (d : Decimal)

/-- The decimal as it is compared. -/
def scaledPoint : ℕ := 4 * d.coefficient * Nat.pow 10 d.exponent.toNat * v.denominator

/-- The lower end of the interval as it is compared; no less than zero. -/
def scaledLow : ℕ :=
  (4 * v.numerator - (if v.narrowBelow then 1 else 2) * v.unit) * Nat.pow 10 (-d.exponent).toNat

/-- The upper end of the interval as it is compared. -/
def scaledHigh : ℕ := (4 * v.numerator + 2 * v.unit) * Nat.pow 10 (-d.exponent).toNat

/-- What both sides of a comparison are multiplied with. -/
def commonScale : ℚ := 4 * v.denominator * 10 ^ (-d.exponent).toNat

theorem commonScale_pos : 0 < v.commonScale d := by
  have hpos := v.denominator_pos
  unfold commonScale
  positivity

theorem cast_scaledPoint : (v.scaledPoint d : ℚ) = d.value * v.commonScale d := by
  rw [Decimal.value, commonScale, scaledPoint, zpow_eq_div (by norm_num) d.exponent]
  push_cast
  field_simp

theorem cast_scaledHigh : (v.scaledHigh d : ℚ) = v.upperEnd * v.commonScale d := by
  have hpos := v.denominator_pos
  rw [upperEnd, commonScale, value, ← unit_div_denominator, scaledHigh, numerator]
  push_cast
  field_simp
  ring

variable {v} in
theorem cast_scaledLow (h : v.significand ≠ 0) :
    (v.scaledLow d : ℚ) = v.lowerEnd * v.commonScale d := by
  have hpos := v.denominator_pos
  have hle : (if v.narrowBelow then 1 else 2) * v.unit ≤ 4 * v.numerator := by
    rw [numerator, ← Nat.mul_assoc]
    exact Nat.mul_le_mul_right _ (by split_ifs <;> omega)
  rw [lowerEnd, commonScale, value, ← unit_div_denominator, scaledLow, Nat.cast_mul,
    Nat.cast_sub hle, numerator]
  push_cast
  field_simp
  split_ifs <;> ring

/-- At zero there is nothing below the magnitude, and its significand is even. -/
theorem scaledLow_of_zero (h : v.significand = 0) : v.scaledLow d = 0 := by
  simp [scaledLow, numerator, h]

end Covers

/-- A decimal is covered by a magnitude exactly if it lies in its interval. -/
theorem covers_iff {d : Decimal} : v.covers d = true ↔ v.Spans d.value := by
  have hscale := v.commonScale_pos d
  have hcovers : v.covers d =
      if v.significand % 2 = 0 then
        decide (v.scaledLow d ≤ v.scaledPoint d) && decide (v.scaledPoint d ≤ v.scaledHigh d)
      else
        decide (v.scaledLow d < v.scaledPoint d) && decide (v.scaledPoint d < v.scaledHigh d) := rfl
  have hbelow : v.scaledPoint d ≤ v.scaledHigh d ↔ d.value ≤ v.upperEnd := by
    rw [← Nat.cast_le (α := ℚ), cast_scaledPoint, cast_scaledHigh, mul_le_mul_iff_left₀ hscale]
  have hbelow' : v.scaledPoint d < v.scaledHigh d ↔ d.value < v.upperEnd := by
    rw [← Nat.cast_lt (α := ℚ), cast_scaledPoint, cast_scaledHigh, mul_lt_mul_iff_left₀ hscale]
  have habove : v.scaledLow d ≤ v.scaledPoint d ↔ v.lowerEnd ≤ d.value := by
    by_cases h : v.significand = 0
    · have hnegative : v.lowerEnd ≤ d.value :=
        lowerEnd_lt_value.le.trans (by simpa [value, h] using d.value_nonneg)
      simp [scaledLow_of_zero, h, hnegative]
    · rw [← Nat.cast_le (α := ℚ), cast_scaledPoint, cast_scaledLow d h, mul_le_mul_iff_left₀ hscale]
  rw [hcovers, Spans]
  split_ifs with heven
  · rw [Bool.and_eq_true, decide_eq_true_eq, decide_eq_true_eq, habove, hbelow]
  · have hne : v.significand ≠ 0 := fun h => heven (by rw [h])
    have habove' : v.scaledLow d < v.scaledPoint d ↔ v.lowerEnd < d.value := by
      rw [← Nat.cast_lt (α := ℚ), cast_scaledPoint, cast_scaledLow d hne,
        mul_lt_mul_iff_left₀ hscale]
    rw [Bool.and_eq_true, decide_eq_true_eq, decide_eq_true_eq, habove', hbelow']

end Magnitude

end ClassView.Number
