import ClassView.Proofs.Number.Value
import Mathlib.Algebra.Order.Floor.Semifield
import Mathlib.Data.Rat.Floor

/-!
# The shortest decimal

The search for a decimal looks at one grid after the other, each ten times finer than the one
before. Next to the magnitude it finds a decimal of the interval on the first grid that has any, and
the last grid holds the magnitude itself. A grid that is left out is too coarse for all decimals of
the interval, so none of them has fewer digits than the one that is found, and those with as many
are on its grid or further away.

* `Magnitude.leadingExponent_bounds`: the first grid is that of the leading digit;
* `Magnitude.floorOn_bounds`, `Magnitude.covers_neighbour`, `Magnitude.onGrid?_nearest`: the two
  neighbours of the magnitude on a grid, and why no others are tried;
* `Magnitude.covers_search`, **`Magnitude.covers_shortest`**: what is found reads back;
* `Magnitude.le_exponent_search`, **`Magnitude.shortest_fewest`**: nothing shorter does;
* `Magnitude.nearest_search`, **`Magnitude.shortest_nearest`**: and nothing as short is nearer.
-/

namespace ClassView.Number

/-! ## 1. Digits -/

theorem length_digits_le_iff {n k : ℕ} (hk : 0 < k) :
    (toString n).length ≤ k ↔ n < 10 ^ k := by
  rw [Nat.toString_eq_ofList_toDigits, String.length_ofList]
  exact Nat.length_toDigits_le_iff (by decide) hk

theorem length_digits_pos (n : ℕ) : 0 < (toString n).length := by
  rw [Nat.toString_eq_ofList_toDigits, String.length_ofList]
  exact Nat.length_toDigits_pos

/-- A number has as many digits as there are powers of ten up to it. -/
theorem length_digits_bounds {n : ℕ} (hn : n ≠ 0) :
    10 ^ ((toString n).length - 1) ≤ n ∧ n < 10 ^ (toString n).length := by
  have hpos := length_digits_pos n
  refine ⟨?_, (length_digits_le_iff hpos).1 le_rfl⟩
  by_cases hone : (toString n).length = 1
  · rw [hone]
    exact Nat.one_le_iff_ne_zero.2 hn
  · by_contra hlt
    have hshorter := (length_digits_le_iff (by omega)).2 (Nat.lt_of_not_le hlt)
    omega

namespace Magnitude

variable {v : Magnitude}

/-! ## 2. The leading digit -/

theorem numerator_pos (h : v.significand ≠ 0) : 0 < v.numerator :=
  Nat.mul_pos (Nat.pos_of_ne_zero h) (Nat.pow_pos (by decide))

/-- The first grid is that of the leading digit. -/
theorem leadingExponent_bounds (h : v.significand ≠ 0) :
    (10 : ℚ) ^ v.leadingExponent ≤ v.value ∧ v.value < 10 ^ (v.leadingExponent + 1) := by
  have hden := v.denominator_pos
  have hden' : 0 < v.denominator := by exact_mod_cast hden
  have hnum := numerator_pos h
  rw [value_eq_div, le_div_iff₀ hden, div_lt_iff₀ hden]
  unfold leadingExponent
  split_ifs with hle
  · obtain ⟨hlow, hhigh⟩ := length_digits_bounds (Nat.div_pos hle hden').ne'
    generalize hlength : (toString (v.numerator / v.denominator)).length = length at hlow hhigh
    have hpos : 0 < length := hlength ▸ length_digits_pos _
    rw [Nat.le_div_iff_mul_le hden'] at hlow
    rw [Nat.div_lt_iff_lt_mul hden'] at hhigh
    rw [sub_add_cancel, show (length : ℤ) - 1 = (length - 1 : ℕ) by omega, zpow_natCast,
      zpow_natCast]
    exact ⟨by exact_mod_cast hlow, by exact_mod_cast hhigh⟩
  · have hpositive : 0 < (v.denominator - 1) / v.numerator := Nat.div_pos (by omega) hnum
    obtain ⟨hlow, hhigh⟩ := length_digits_bounds hpositive.ne'
    generalize hlength : (toString ((v.denominator - 1) / v.numerator)).length = length
      at hlow hhigh
    have hpos : 0 < length := hlength ▸ length_digits_pos _
    rw [Nat.le_div_iff_mul_le hnum] at hlow
    rw [Nat.div_lt_iff_lt_mul hnum] at hhigh
    rw [show -(length : ℤ) + 1 = -((length - 1 : ℕ) : ℤ) by omega, zpow_neg, zpow_neg,
      zpow_natCast, zpow_natCast, inv_mul_le_iff₀ (by positivity), lt_inv_mul_iff₀ (by positivity)]
    have hhigh' : v.denominator ≤ 10 ^ length * v.numerator := by omega
    have hlow' : 10 ^ (length - 1) * v.numerator < v.denominator := by omega
    exact ⟨by exact_mod_cast hhigh', by exact_mod_cast hlow'⟩

/-! ## 3. Neighbours on a grid -/

/-- The value in steps of a grid is a fraction, computed from this numerator. -/
def numeratorOn (v : Magnitude) (e : ℤ) : ℕ := v.numerator * Nat.pow 10 (-e).toNat

/-- The denominator of the value in steps of a grid. -/
def denominatorOn (v : Magnitude) (e : ℤ) : ℕ := v.denominator * Nat.pow 10 e.toNat

theorem denominatorOn_pos (e : ℤ) : (0 : ℚ) < v.denominatorOn e := by
  have hden := v.denominator_pos
  unfold denominatorOn
  push_cast
  positivity

theorem cast_numeratorOn (e : ℤ) :
    (v.numeratorOn e : ℚ) = v.value / 10 ^ e * v.denominatorOn e := by
  have hden := v.denominator_pos
  rw [numeratorOn, denominatorOn, value_eq_div, zpow_eq_div (by norm_num) e]
  push_cast
  field_simp

theorem floorOn_eq (e : ℤ) : v.floorOn e = ⌊v.value / 10 ^ e⌋₊ := by
  have hfloor : v.floorOn e = v.numeratorOn e / v.denominatorOn e := rfl
  rw [hfloor, ← Nat.floor_div_eq_div (K := ℚ), cast_numeratorOn,
    mul_div_cancel_right₀ _ (denominatorOn_pos e).ne']

theorem floorOn_bounds (e : ℤ) :
    v.floorOn e * 10 ^ e ≤ v.value ∧ v.value < (v.floorOn e + 1) * 10 ^ e := by
  have hstep : (0 : ℚ) < 10 ^ e := by positivity
  have hnonneg : 0 ≤ v.value / 10 ^ e := div_nonneg v.value_nonneg hstep.le
  rw [← le_div_iff₀ hstep, ← div_lt_iff₀ hstep, floorOn_eq]
  exact ⟨Nat.floor_le hnonneg, Nat.lt_floor_add_one _⟩

theorem of_onGrid?_eq_some {e : ℤ} {d : Decimal} (h : v.onGrid? e = some d) :
    v.covers d = true ∧ d.exponent = e ∧ d.coefficient ≤ v.floorOn e + 1 := by
  unfold onGrid? at h
  dsimp only at h
  split at h
  · rename_i hbelow habove
    split_ifs at h <;> obtain rfl := Option.some.inj h
    · exact ⟨hbelow, rfl, Nat.le_succ _⟩
    · exact ⟨habove, rfl, le_rfl⟩
  · rename_i hbelow _
    obtain rfl := Option.some.inj h
    exact ⟨hbelow, rfl, Nat.le_succ _⟩
  · rename_i _ habove
    obtain rfl := Option.some.inj h
    exact ⟨habove, rfl, le_rfl⟩
  · exact absurd h (Option.some_ne_none d).symm

/-- How far the value is above its lower neighbour. -/
theorem cast_remainder (e : ℤ) :
    ((v.numeratorOn e % v.denominatorOn e : ℕ) : ℚ) * 10 ^ e =
      (v.value - v.floorOn e * 10 ^ e) * v.denominatorOn e := by
  have hgrid : (10 : ℚ) ^ e ≠ 0 := zpow_ne_zero _ (by norm_num)
  have hparts : ((v.numeratorOn e % v.denominatorOn e : ℕ) : ℚ) + v.denominatorOn e * v.floorOn e =
      v.value / 10 ^ e * v.denominatorOn e := by
    rw [← cast_numeratorOn]
    exact_mod_cast Nat.mod_add_div (v.numeratorOn e) (v.denominatorOn e)
  rw [eq_sub_of_add_eq hparts, sub_mul, mul_right_comm, div_mul_cancel₀ _ hgrid]
  ring

theorem nearerBelow_iff (e : ℤ) : v.nearerBelow e = true ↔
    v.value - v.floorOn e * 10 ^ e < (v.floorOn e + 1) * 10 ^ e - v.value := by
  have hgrid : (0 : ℚ) < 10 ^ e := by positivity
  have hnearer : v.nearerBelow e =
      decide (2 * (v.numeratorOn e % v.denominatorOn e) < v.denominatorOn e) := rfl
  rw [hnearer, decide_eq_true_eq, ← Nat.cast_lt (α := ℚ), ← mul_lt_mul_iff_left₀ hgrid,
    Nat.cast_mul, mul_assoc, cast_remainder, mul_comm (v.denominatorOn e : ℚ), Nat.cast_two,
    ← mul_assoc, mul_lt_mul_iff_left₀ (denominatorOn_pos e)]
  constructor <;> intro h <;> linarith

/-- If any decimal on a grid is covered, so is a neighbour of the magnitude, which lies between. -/
theorem covers_neighbour {d : Decimal} (hd : v.covers d = true) :
    v.covers ⟨v.floorOn d.exponent, d.exponent⟩ = true ∧
        d.value ≤ v.floorOn d.exponent * 10 ^ d.exponent ∨
      v.covers ⟨v.floorOn d.exponent + 1, d.exponent⟩ = true ∧
        (v.floorOn d.exponent + 1) * 10 ^ d.exponent ≤ d.value := by
  obtain ⟨hfloor, hceiling⟩ := v.floorOn_bounds d.exponent
  have hspans := covers_iff.1 hd
  rcases Nat.lt_or_ge (v.floorOn d.exponent) d.coefficient with hlt | hle
  · right
    have hreach : (v.floorOn d.exponent + 1) * 10 ^ d.exponent ≤ d.value := by
      unfold Decimal.value
      gcongr
      exact_mod_cast hlt
    refine ⟨covers_iff.2 (spans_value.between hspans ?_ ?_), hreach⟩
    · simpa [Decimal.value] using hceiling.le
    · simpa [Decimal.value] using hreach
  · left
    have hreach : d.value ≤ v.floorOn d.exponent * 10 ^ d.exponent := by
      unfold Decimal.value
      gcongr
    exact ⟨covers_iff.2 (hspans.between spans_value hreach hfloor), hreach⟩

/-- A grid is only passed over if it has no decimal of the interval. -/
theorem covers_of_onGrid?_eq_none {d : Decimal} (h : v.onGrid? d.exponent = none) :
    v.covers d = false := by
  have hnone : v.covers ⟨v.floorOn d.exponent, d.exponent⟩ = false ∧
      v.covers ⟨v.floorOn d.exponent + 1, d.exponent⟩ = false := by
    unfold onGrid? at h
    dsimp only at h
    split at h <;> first | exact ⟨‹_›, ‹_›⟩ | exact absurd h (Option.some_ne_none _)
  by_contra hcovers
  rcases covers_neighbour (Bool.eq_true_of_not_eq_false hcovers) with ⟨hbelow, _⟩ | ⟨habove, _⟩
  · simp [hnone.1] at hbelow
  · simp [hnone.2] at habove

/-- Of two covered neighbours the nearer is taken. -/
theorem onGrid?_nearest {e : ℤ} {d : Decimal} (h : v.onGrid? e = some d) :
    (v.covers ⟨v.floorOn e, e⟩ = true → |v.value - d.value| ≤ v.value - v.floorOn e * 10 ^ e) ∧
      (v.covers ⟨v.floorOn e + 1, e⟩ = true →
        |v.value - d.value| ≤ (v.floorOn e + 1) * 10 ^ e - v.value) := by
  obtain ⟨hfloor, hceiling⟩ := v.floorOn_bounds e
  have hbelow : |v.value - (⟨v.floorOn e, e⟩ : Decimal).value| = v.value - v.floorOn e * 10 ^ e :=
    abs_of_nonneg (by simpa [Decimal.value] using hfloor)
  have habove : |v.value - (⟨v.floorOn e + 1, e⟩ : Decimal).value| =
      (v.floorOn e + 1) * 10 ^ e - v.value := by
    rw [abs_sub_comm, Decimal.value, Nat.cast_add_one, abs_of_pos (by linarith)]
  unfold onGrid? at h
  dsimp only at h
  split at h
  · split_ifs at h with hnearer <;> obtain rfl := Option.some.inj h
    · rw [hbelow]
      exact ⟨fun _ => le_rfl, fun _ => (nearerBelow_iff e).1 hnearer |>.le⟩
    · rw [habove]
      exact ⟨fun _ => le_of_not_gt fun hlt => hnearer ((nearerBelow_iff e).2 hlt), fun _ => le_rfl⟩
  · rename_i hnot
    obtain rfl := Option.some.inj h
    rw [hbelow]
    exact ⟨fun _ => le_rfl, fun hcovers => by simp [hnot] at hcovers⟩
  · rename_i hnot _
    obtain rfl := Option.some.inj h
    rw [habove]
    exact ⟨fun hcovers => by simp [hnot] at hcovers, fun _ => le_rfl⟩
  · exact absurd h (Option.some_ne_none d).symm

/-- No decimal of the interval that is on the grid is nearer. -/
theorem nearest_of_onGrid? {d c : Decimal} (h : v.onGrid? c.exponent = some d)
    (hc : v.covers c = true) : |v.value - d.value| ≤ |v.value - c.value| := by
  obtain ⟨hbelow, habove⟩ := onGrid?_nearest h
  rcases covers_neighbour hc with ⟨hcovers, hreach⟩ | ⟨hcovers, hreach⟩
  · exact (hbelow hcovers).trans (le_trans (by linarith) (le_abs_self _))
  · exact (habove hcovers).trans (le_trans (by linarith) (neg_le_abs _))

/-! ## 4. The search -/

/-- The last grid of a search holds the magnitude itself. -/
def EndsExactly (v : Magnitude) (finer : ℕ) (e : ℤ) : Prop :=
  (⟨v.floorOn (e - finer), e - finer⟩ : Decimal).value = v.value

theorem EndsExactly.zero {e : ℤ} (h : v.EndsExactly 0 e) : (v.search 0 e).value = v.value := by
  simpa [EndsExactly, search] using h

theorem EndsExactly.next {finer : ℕ} {e : ℤ} (h : v.EndsExactly (finer + 1) e) :
    v.EndsExactly finer (e - 1) := by
  unfold EndsExactly
  rwa [show e - 1 - (finer : ℤ) = e - (finer + 1 : ℕ) by omega]

theorem covers_search {finer : ℕ} {e : ℤ} (hlast : v.EndsExactly finer e) :
    v.covers (v.search finer e) = true := by
  induction finer generalizing e with
  | zero =>
    rw [covers_iff, hlast.zero]
    exact spans_value
  | succ finer ih =>
    unfold search
    split
    · rename_i d hd
      exact (of_onGrid?_eq_some hd).1
    · exact ih hlast.next

/-- On its grid nothing is nearer than what is found. -/
theorem nearest_search {finer : ℕ} {e : ℤ} (hlast : v.EndsExactly finer e) {c : Decimal}
    (hc : v.covers c = true) (hexponent : c.exponent = (v.search finer e).exponent) :
    |v.value - (v.search finer e).value| ≤ |v.value - c.value| := by
  induction finer generalizing e with
  | zero =>
    rw [hlast.zero, sub_self, abs_zero]
    exact abs_nonneg _
  | succ finer ih =>
    unfold search at hexponent ⊢
    split at hexponent
    · rename_i d hd
      refine nearest_of_onGrid? ?_ hc
      rw [hexponent, (of_onGrid?_eq_some hd).2.1, hd]
    · exact ih hlast.next hexponent

/-- What is found lies on a grid that was looked at, next to the magnitude. -/
theorem search_bounds (finer : ℕ) (e : ℤ) :
    (v.search finer e).exponent ≤ e ∧
      (v.search finer e).coefficient ≤ v.floorOn (v.search finer e).exponent + 1 := by
  induction finer generalizing e with
  | zero => exact ⟨le_rfl, Nat.le_succ _⟩
  | succ finer ih =>
    unfold search
    split
    · rename_i d hd
      obtain ⟨_, hexponent, hcoefficient⟩ := of_onGrid?_eq_some hd
      exact ⟨hexponent.le, hexponent ▸ hcoefficient⟩
    · obtain ⟨hexponent, hcoefficient⟩ := ih (e - 1)
      exact ⟨by omega, hcoefficient⟩

/-- No grid with a decimal of the interval is passed over. -/
theorem le_exponent_search {d : Decimal} (hd : v.covers d = true) (finer : ℕ) {e : ℤ}
    (hle : d.exponent ≤ e) : d.exponent ≤ (v.search finer e).exponent := by
  induction finer generalizing e with
  | zero => exact hle
  | succ finer ih =>
    unfold search
    split
    · rename_i found hfound
      rw [(of_onGrid?_eq_some hfound).2.1]
      exact hle
    · rename_i hnone
      refine ih ?_
      have hne : d.exponent ≠ e := by
        rintro rfl
        simp [covers_of_onGrid?_eq_none hnone] at hd
      omega

/-! ## 5. What is found -/

/-- A magnitude is a whole number of steps of the last grid, as two divides ten. -/
theorem floorOn_last :
    (⟨v.floorOn (min v.exponent 0), min v.exponent 0⟩ : Decimal).value = v.value := by
  obtain ⟨n, hn⟩ : ∃ n : ℕ, v.value = n * 10 ^ min v.exponent 0 := by
    rcases le_total v.exponent 0 with hle | hle
    · obtain ⟨k, hk⟩ := Int.exists_eq_neg_ofNat hle
      refine ⟨v.significand * 5 ^ k, ?_⟩
      rw [min_eq_left hle, value, hk, zpow_neg, zpow_neg, zpow_natCast, zpow_natCast,
        show (10 : ℚ) = 5 * 2 by norm_num, mul_pow]
      push_cast
      field_simp
    · obtain ⟨k, hk⟩ := Int.eq_ofNat_of_zero_le hle
      refine ⟨v.significand * 2 ^ k, ?_⟩
      rw [min_eq_right hle, value, hk, zpow_natCast, zpow_zero, mul_one]
      push_cast
      rfl
  have hstep : (10 : ℚ) ^ min v.exponent 0 ≠ 0 := zpow_ne_zero _ (by norm_num)
  rw [Decimal.value, floorOn_eq, hn, mul_div_cancel_right₀ _ hstep, Nat.floor_natCast]

theorem last_le_leadingExponent (h : v.significand ≠ 0) : min v.exponent 0 ≤ v.leadingExponent := by
  have hlast := v.floorOn_last
  have hpos : 0 < v.value := spans_value.pos h
  have hone : (1 : ℚ) ≤ v.floorOn (min v.exponent 0) := by
    rw [Nat.one_le_cast, Nat.one_le_iff_ne_zero]
    intro hzero
    rw [← hlast, Decimal.value, hzero, Nat.cast_zero, zero_mul] at hpos
    exact lt_irrefl 0 hpos
  have hle : (10 : ℚ) ^ min v.exponent 0 ≤ v.value := by
    rw [← hlast]
    exact le_mul_of_one_le_left (by positivity) hone
  exact Int.lt_add_one_iff.1
    ((zpow_lt_zpow_iff_right₀ (by norm_num)).1 (hle.trans_lt (leadingExponent_bounds h).2))

theorem endsExactly_shortest (h : v.significand ≠ 0) :
    v.EndsExactly (v.leadingExponent - min v.exponent 0).toNat v.leadingExponent := by
  have hlast : v.leadingExponent - ((v.leadingExponent - min v.exponent 0).toNat : ℤ) =
      min v.exponent 0 := by
    have := last_le_leadingExponent h
    omega
  rw [EndsExactly, hlast, floorOn_last]

/-- **The shortest decimal lies in the interval of the magnitude.** -/
theorem covers_shortest (h : v.significand ≠ 0) : v.covers v.shortest = true := by
  rw [covers_iff, shortest, Decimal.value_normal, ← covers_iff]
  exact covers_search (endsExactly_shortest h)

end Magnitude

/-! ## 6. Nothing shorter, nothing nearer -/

namespace Decimal

theorem coefficient_dropZeros_le (count : ℕ) (d : Decimal) :
    (dropZeros count d).coefficient ≤ d.coefficient := by
  induction count generalizing d with
  | zero => exact le_rfl
  | succ count ih =>
    unfold dropZeros
    split
    · exact (ih _).trans (Nat.div_le_self _ _)
    · exact le_rfl

theorem coefficient_dropZeros_pow {count k : ℕ} (hk : k ≤ count) (e : ℤ) :
    (dropZeros count ⟨10 ^ k, e⟩).coefficient = 1 := by
  induction count generalizing k e with
  | zero => rw [Nat.le_zero.1 hk]; rfl
  | succ count ih =>
    cases k with
    | zero => rfl
    | succ k =>
      have hzeros : (10 ^ (k + 1) ≠ 0 ∧ 10 ^ (k + 1) % 10 = 0) :=
        ⟨(Nat.pow_pos (by decide)).ne', by rw [pow_succ, Nat.mul_mod_left]⟩
      rw [dropZeros, if_pos hzeros, pow_succ, Nat.mul_div_cancel _ (by decide)]
      exact ih (Nat.le_of_succ_le_succ hk) _

/-- Next to `k` digits the only longer coefficient is a power of ten, whose zeros are dropped. -/
theorem length_normal_le {d : Decimal} {k : ℕ} (hk : 0 < k) (h : d.coefficient ≤ 10 ^ k) :
    d.normal.digits.length ≤ k := by
  rw [digits, length_digits_le_iff hk]
  rcases h.lt_or_eq with hlt | heq
  · exact (d.coefficient_dropZeros_le _).trans_lt hlt
  · have hlonger : k ≤ d.digits.length := by
      by_contra hshort
      have := (length_digits_le_iff hk).1 (Nat.le_of_not_le hshort)
      omega
    have hone : d.normal.coefficient = 1 := by
      have hd : d = ⟨10 ^ k, d.exponent⟩ := by rw [← heq]
      rw [normal, hd]
      exact coefficient_dropZeros_pow (hd ▸ hlonger) _
    rw [hone]
    exact Nat.one_lt_pow hk.ne' (by decide)

end Decimal

namespace Magnitude

variable {v : Magnitude}

/-- A decimal of the interval with few digits tells that there is one on a coarse grid. -/
theorem exists_covers_of_digits (h : v.significand ≠ 0) {d : Decimal} (hd : v.covers d = true) :
    ∃ c : Decimal, v.covers c = true ∧ c.exponent ≤ v.leadingExponent ∧
      v.leadingExponent + 1 - c.exponent ≤ d.digits.length ∧
      |v.value - c.value| ≤ |v.value - d.value| := by
  obtain ⟨hleading, _⟩ := leadingExponent_bounds h
  have hspans := covers_iff.1 hd
  have hdigits : 0 < d.digits.length := length_digits_pos d.coefficient
  rcases lt_or_ge d.value (10 ^ v.leadingExponent) with hsmall | hlarge
  -- between the decimal and the magnitude there is the first power of ten
  · have hpower : (⟨1, v.leadingExponent⟩ : Decimal).value = 10 ^ v.leadingExponent := by
      rw [Decimal.value, Nat.cast_one, one_mul]
    refine ⟨⟨1, v.leadingExponent⟩, covers_iff.2 ?_, le_rfl, by dsimp only; omega, ?_⟩
    · rw [hpower]
      exact hspans.between spans_value hsmall.le hleading
    · rw [hpower, abs_of_nonneg (by linarith), abs_of_nonneg (by linarith)]
      linarith
  rcases le_or_gt v.leadingExponent d.exponent with hcoarse | hfine
  · obtain ⟨c, hexponent, hvalue⟩ := d.exists_value_eq hcoarse
    exact ⟨c, covers_iff.2 (hvalue ▸ hspans), hexponent.le, by omega, by rw [hvalue]⟩
  · refine ⟨d, hd, hfine.le, ?_, le_rfl⟩
    obtain ⟨k, hk⟩ := Int.le.dest hfine.le
    have hpower : 10 ^ k ≤ d.coefficient := by
      rw [← hk, zpow_add₀ (by norm_num), zpow_natCast, mul_comm, Decimal.value] at hlarge
      exact_mod_cast le_of_mul_le_mul_right hlarge (by positivity)
    have hlonger : k < d.digits.length := by
      by_contra hshort
      have := (length_digits_le_iff (by omega)).1 (Nat.le_of_not_lt hshort)
      omega
    omega

/-- What is found has no digits behind its grid, nor in front of the leading one. -/
theorem length_normal_search (h : v.significand ≠ 0) (finer : ℕ) :
    ((v.search finer v.leadingExponent).normal.digits.length : ℤ) ≤
      v.leadingExponent + 1 - (v.search finer v.leadingExponent).exponent := by
  obtain ⟨hexponent, hcoefficient⟩ := v.search_bounds finer v.leadingExponent
  generalize v.search finer v.leadingExponent = found at hexponent hcoefficient ⊢
  obtain ⟨k, hk⟩ := Int.le.dest (show found.exponent ≤ v.leadingExponent + 1 by omega)
  have hgrid : (0 : ℚ) < 10 ^ found.exponent := by positivity
  have hbelow :
      (v.floorOn found.exponent : ℚ) * 10 ^ found.exponent < 10 ^ k * 10 ^ found.exponent :=
    calc (v.floorOn found.exponent : ℚ) * 10 ^ found.exponent
        ≤ v.value := (v.floorOn_bounds found.exponent).1
      _ < 10 ^ (v.leadingExponent + 1) := (leadingExponent_bounds h).2
      _ = 10 ^ k * 10 ^ found.exponent := by
          rw [← hk, add_comm, zpow_add₀ (by norm_num), zpow_natCast]
  have hfloor : v.floorOn found.exponent < 10 ^ k := by
    exact_mod_cast lt_of_mul_lt_mul_right hbelow hgrid.le
  have hshort := Decimal.length_normal_le (d := found) (k := k) (by omega) (by omega)
  omega

/-- **No decimal of the interval has fewer digits than the shortest.** -/
theorem shortest_fewest (h : v.significand ≠ 0) {d : Decimal} (hd : v.covers d = true) :
    v.shortest.digits.length ≤ d.digits.length := by
  obtain ⟨c, hc, hle, hdigits, _⟩ := exists_covers_of_digits h hd
  have hfound := le_exponent_search hc (v.leadingExponent - min v.exponent 0).toNat hle
  have hshort := v.length_normal_search h (v.leadingExponent - min v.exponent 0).toNat
  rw [shortest]
  omega

/-- **Of those with as few digits none is nearer to the magnitude.** -/
theorem shortest_nearest (h : v.significand ≠ 0) {d : Decimal} (hd : v.covers d = true)
    (hlength : d.digits.length ≤ v.shortest.digits.length) :
    |v.value - v.shortest.value| ≤ |v.value - d.value| := by
  obtain ⟨c, hc, hle, hdigits, hnear⟩ := exists_covers_of_digits h hd
  have hfound := le_exponent_search hc (v.leadingExponent - min v.exponent 0).toNat hle
  have hshort := v.length_normal_search h (v.leadingExponent - min v.exponent 0).toNat
  rw [shortest] at hlength
  have hnearest := nearest_search (endsExactly_shortest h) hc (by omega)
  rw [shortest, Decimal.value_normal]
  exact hnearest.trans hnear

end Magnitude

end ClassView.Number
