import ClassView.Proofs.Number.Value
import Mathlib.Data.Int.Log
import Mathlib.Data.Rat.Floor

/-!
# Rounding to a binary format

The bits of a number without its sign are a whole number, its pattern, and the values of a format
grow with their patterns. A number is rounded on the grid whose step is the unit in its last place,
where consecutive values have consecutive patterns. What would be rounded beyond the largest value
is rounded to infinity, whose pattern counts as that of the next power of two.

* `BinaryFormat.magnitudeAt`, `BinaryFormat.valueAt`, `FloatValue.ofBits_eq`: patterns and values;
* `roundToEven`, **`BinaryFormat.round`**: rounding, to the nearest and of two to the even one;
* `BinaryFormat.valueAt_add`, `BinaryFormat.valueAt_succ`: a pattern on the grid of a unit;
* `BinaryFormat.IsNearest`, **`BinaryFormat.isNearest_round`**: what rounding promises;
* `BinaryFormat.isNearest_iff_spans`, **`BinaryFormat.round_eq_iff_spans`**: the numbers that round
  to a value are those of its interval.
-/

namespace ClassView.Number

/-! ## 1. Patterns -/

namespace BinaryFormat

variable (f : BinaryFormat)

/-- The pattern of the smallest normal value. -/
def leading : ℕ := 2 ^ f.fractionBits

/-- The exponent of the smallest unit. -/
def lowest : ℤ := 1 - f.bias - f.fractionBits

/-- The pattern of infinity. -/
def infinity : ℕ := (2 ^ f.exponentBits - 1) * f.leading

/-- The bit that tells the sign. -/
def signBit : ℕ := f.leading * 2 ^ f.exponentBits

/-- The magnitude with a pattern. -/
def magnitudeAt (k : ℕ) : Magnitude where
  significand := if k / f.leading = 0 then k % f.leading else f.leading + k % f.leading
  exponent := f.lowest + (k / f.leading - 1 : ℕ)
  narrowBelow := k % f.leading == 0 && decide (1 < k / f.leading)

/-- The value with a pattern. -/
def valueAt (k : ℕ) : ℚ := (f.magnitudeAt k).value

theorem leading_pos : 0 < f.leading := Nat.two_pow_pos _

end BinaryFormat

/-- The bits of a number are its sign and its pattern. -/
theorem FloatValue.ofBits_eq (f : BinaryFormat) (bits : ℕ) :
    FloatValue.ofBits f bits =
      if bits % f.signBit < f.infinity then
        .finite (bits / f.signBit % 2 == 1) (f.magnitudeAt (bits % f.signBit))
      else if bits % f.signBit = f.infinity then .infinite (bits / f.signBit % 2 == 1)
      else .notANumber := by
  have hleading := f.leading_pos
  have hfraction : bits % f.signBit % f.leading = bits % f.leading := Nat.mod_mul_right_mod ..
  have hstored : bits % f.signBit / f.leading = bits / f.leading % 2 ^ f.exponentBits :=
    Nat.mod_mul_right_div_self ..
  have hlt : bits / f.leading % 2 ^ f.exponentBits < 2 ^ f.exponentBits :=
    Nat.mod_lt _ (Nat.two_pow_pos _)
  have hfinite : bits % f.signBit < f.infinity ↔
      bits / f.leading % 2 ^ f.exponentBits < 2 ^ f.exponentBits - 1 := by
    rw [BinaryFormat.infinity, ← Nat.div_lt_iff_lt_mul hleading, hstored]
  have hinfinite : bits % f.signBit = f.infinity ↔
      bits / f.leading % 2 ^ f.exponentBits = 2 ^ f.exponentBits - 1 ∧ bits % f.leading = 0 := by
    rw [← hstored, ← hfraction, Nat.div_mod_unique hleading, BinaryFormat.infinity, Nat.mul_comm,
      Nat.zero_add]
    exact ⟨fun h => ⟨h.symm, hleading⟩, fun h => h.1.symm⟩
  have hunfold : FloatValue.ofBits f bits =
      if bits / f.leading % 2 ^ f.exponentBits = 2 ^ f.exponentBits - 1 then
        if bits % f.leading = 0 then .infinite (bits / f.signBit % 2 == 1) else .notANumber
      else if bits / f.leading % 2 ^ f.exponentBits = 0 then
        .finite (bits / f.signBit % 2 == 1) ⟨bits % f.leading, f.lowest, false⟩
      else
        .finite (bits / f.signBit % 2 == 1)
          ⟨f.leading + bits % f.leading,
            f.lowest + (bits / f.leading % 2 ^ f.exponentBits - 1 : ℕ),
            bits % f.leading == 0 && decide (1 < bits / f.leading % 2 ^ f.exponentBits)⟩ := rfl
  rw [hunfold]
  by_cases hall : bits / f.leading % 2 ^ f.exponentBits = 2 ^ f.exponentBits - 1
  · have hnot : ¬ bits % f.signBit < f.infinity := by rw [hfinite]; omega
    rw [if_pos hall, if_neg hnot]
    exact if_congr (by rw [hinfinite]; simp [hall]) rfl rfl
  · have hmagnitude : bits % f.signBit < f.infinity := by rw [hfinite]; omega
    rw [if_neg hall, if_pos hmagnitude, BinaryFormat.magnitudeAt, hfraction, hstored]
    split_ifs with hzero
    · simp [hzero]
    · rfl

namespace BinaryFormat

variable {f : BinaryFormat}

/-! ## 2. Neighbours -/

theorem parts_eq {k stored fraction : ℕ} (h : fraction + stored * f.leading = k)
    (hlt : fraction < f.leading) : k / f.leading = stored ∧ k % f.leading = fraction :=
  (Nat.div_mod_unique f.leading_pos).2 ⟨by rw [← h, Nat.mul_comm], hlt⟩

theorem valueAt_of_parts {k stored fraction : ℕ} (h : fraction + stored * f.leading = k)
    (hlt : fraction < f.leading) :
    f.valueAt k = ((if stored = 0 then fraction else f.leading + fraction : ℕ) : ℚ) *
      2 ^ (f.lowest + (stored - 1 : ℕ)) := by
  obtain ⟨hstored, hfraction⟩ := parts_eq h hlt
  rw [valueAt, magnitudeAt, Magnitude.value, hstored, hfraction]

/-- On the grid of a unit the patterns are consecutive, the first values of the next grid included.
    Only the smallest unit has values below its leading one. -/
theorem valueAt_add {n a : ℕ} (ha : a = 0 ∨ f.leading ≤ n) (hn : n ≤ 2 * f.leading) :
    f.valueAt (n + a * f.leading) = n * 2 ^ (f.lowest + a) := by
  by_cases hsmall : n < f.leading
  · have hzero : a = 0 := by omega
    rw [valueAt_of_parts rfl hsmall, if_pos hzero, hzero]
  by_cases hlast : n < 2 * f.leading
  · have hsum : n - f.leading + (a + 1) * f.leading = n + a * f.leading := by
      rw [Nat.add_mul]; omega
    rw [valueAt_of_parts hsum (by omega), if_neg a.succ_ne_zero, Nat.add_sub_cancel,
      Nat.add_sub_cancel' (Nat.le_of_not_lt hsmall)]
  · have htwice : n = 2 * f.leading := by omega
    have hsum : 0 + (a + 2) * f.leading = n + a * f.leading := by rw [Nat.add_mul]; omega
    have hexponent : f.lowest + ((a + 2 - 1 : ℕ) : ℤ) = f.lowest + a + 1 := by push_cast; omega
    rw [valueAt_of_parts hsum f.leading_pos, if_neg (by omega), hexponent, htwice,
      zpow_add_one₀ two_ne_zero]
    push_cast
    ring

/-- How many units the value with a pattern has. -/
theorem significand_bounds (f : BinaryFormat) (k : ℕ) :
    (k / f.leading - 1 = 0 ∨ f.leading ≤ (f.magnitudeAt k).significand) ∧
      (f.magnitudeAt k).significand < 2 * f.leading ∧
      k = (f.magnitudeAt k).significand + (k / f.leading - 1) * f.leading := by
  have hlt := Nat.mod_lt k f.leading_pos
  have hparts := Nat.mod_add_div' k f.leading
  unfold magnitudeAt
  dsimp only
  split_ifs with hzero
  · rw [hzero, Nat.zero_mul] at hparts
    rw [hzero, Nat.zero_sub, Nat.zero_mul]
    omega
  · obtain ⟨stored, hstored⟩ : ∃ stored, k / f.leading = stored + 1 :=
      ⟨_, (Nat.succ_pred hzero).symm⟩
    rw [hstored, Nat.add_mul] at hparts
    rw [hstored, Nat.add_sub_cancel]
    omega

/-- The next value is one unit further. -/
theorem valueAt_succ (k : ℕ) :
    f.valueAt (k + 1) = f.valueAt k + 2 ^ (f.magnitudeAt k).exponent := by
  obtain ⟨hleast, hmost, hk⟩ := f.significand_bounds k
  have hnext : k + 1 = (f.magnitudeAt k).significand + 1 + (k / f.leading - 1) * f.leading := by
    omega
  rw [hnext, valueAt_add (hleast.imp_right Nat.le_succ_of_le) hmost, valueAt, Magnitude.value,
    magnitudeAt]
  push_cast
  ring

theorem valueAt_strictMono (f : BinaryFormat) : StrictMono f.valueAt :=
  strictMono_nat_of_lt_succ fun k => by
    have hpos : (0 : ℚ) < 2 ^ (f.magnitudeAt k).exponent := by positivity
    rw [valueAt_succ]
    linarith

end BinaryFormat

/-! ## 3. Rounding -/

/-- The whole number nearest to a number, of two that are equally near the even one. -/
def roundToEven (x : ℚ) : ℕ :=
  if x - ⌊x⌋₊ < 1 / 2 then ⌊x⌋₊
  else if 1 / 2 < x - ⌊x⌋₊ then ⌊x⌋₊ + 1
  else if ⌊x⌋₊ % 2 = 0 then ⌊x⌋₊ else ⌊x⌋₊ + 1

theorem roundToEven_error {x : ℚ} (hx : 0 ≤ x) :
    |x - roundToEven x| ≤ 1 / 2 ∧ (|x - roundToEven x| = 1 / 2 → roundToEven x % 2 = 0) := by
  have hle := Nat.floor_le hx
  have hlt := Nat.lt_floor_add_one x
  unfold roundToEven
  split_ifs with hbelow habove heven
  · rw [abs_of_nonneg (by linarith)]
    exact ⟨hbelow.le, fun h => absurd h hbelow.ne⟩
  · push_cast
    rw [abs_of_neg (by linarith)]
    exact ⟨by linarith, fun h => by linarith⟩
  · rw [abs_of_nonneg (by linarith)]
    exact ⟨by linarith, fun _ => heven⟩
  · push_cast
    rw [abs_of_neg (by linarith)]
    exact ⟨by linarith, fun _ => by omega⟩

/-- Any other whole number is one or more away from the one that is rounded to. -/
theorem roundToEven_nearest {x : ℚ} (hx : 0 ≤ x) {n : ℕ} (hne : n ≠ roundToEven x) :
    |x - roundToEven x| < |x - n| ∨ |x - roundToEven x| = |x - n| ∧ roundToEven x % 2 = 0 := by
  obtain ⟨herror, heven⟩ := roundToEven_error hx
  have happart : (1 : ℚ) ≤ |(n : ℚ) - roundToEven x| := by
    have hwhole : (1 : ℤ) ≤ |(n : ℤ) - roundToEven x| :=
      Int.one_le_abs (sub_ne_zero.2 (by exact_mod_cast hne))
    exact_mod_cast hwhole
  have htriangle := abs_sub_le (n : ℚ) x (roundToEven x)
  rw [abs_sub_comm (n : ℚ) x] at htriangle
  rcases lt_or_eq_of_le (show |x - roundToEven x| ≤ |x - n| by linarith) with hlt | heq
  · exact .inl hlt
  · exact .inr ⟨heq, heven (by linarith)⟩

theorem le_roundToEven {x : ℚ} {n : ℕ} (h : (n : ℚ) ≤ x) : n ≤ roundToEven x := by
  have hfloor := Nat.le_floor h
  unfold roundToEven
  split_ifs <;> omega

theorem roundToEven_le {x : ℚ} {n : ℕ} (hx : 0 ≤ x) (h : x < n) : roundToEven x ≤ n := by
  have hfloor := (Nat.floor_lt hx).2 h
  unfold roundToEven
  split_ifs <;> omega

namespace BinaryFormat

/-- The exponent of the unit in the last place of a number. -/
def unitExponent (f : BinaryFormat) (x : ℚ) : ℤ :=
  if x = 0 then f.lowest else max f.lowest (Int.log 2 x - f.fractionBits)

/-- The pattern on the grid of the unit in the last place, if there were no largest one. -/
def gridPattern (f : BinaryFormat) (x : ℚ) : ℕ :=
  roundToEven (x / 2 ^ f.unitExponent x) + (f.unitExponent x - f.lowest).toNat * f.leading

/-- The pattern of the value that a number is rounded to. -/
def round (f : BinaryFormat) (x : ℚ) : ℕ := min f.infinity (f.gridPattern x)

/-- No pattern has a value nearer to the number, and of two with equally near values this one is
    even. -/
structure IsNearest (f : BinaryFormat) (x : ℚ) (k : ℕ) : Prop where
  le_infinity : k ≤ f.infinity
  nearer : ∀ j ≤ f.infinity, j ≠ k →
    |x - f.valueAt k| < |x - f.valueAt j| ∨ |x - f.valueAt k| = |x - f.valueAt j| ∧ k % 2 = 0

variable {f : BinaryFormat}

theorem IsNearest.le {x : ℚ} {k j : ℕ} (h : f.IsNearest x k) (hj : j ≤ f.infinity) :
    |x - f.valueAt k| ≤ |x - f.valueAt j| := by
  by_cases hne : j = k
  · rw [hne]
  · exact (h.nearer j hj hne).elim le_of_lt fun heq => heq.1.le

/-- Two patterns at the same distance are both even, and the one between them is nearer. -/
theorem IsNearest.not_lt {x : ℚ} {k l : ℕ} (hk : f.IsNearest x k) (hl : f.IsNearest x l) :
    ¬ k < l := by
  intro hlt
  have heq : |x - f.valueAt k| = |x - f.valueAt l| :=
    le_antisymm (hk.le hl.le_infinity) (hl.le hk.le_infinity)
  have hkeven := ((hk.nearer l hl.le_infinity hlt.ne').resolve_left heq.not_lt).2
  have hleven := ((hl.nearer k hk.le_infinity hlt.ne).resolve_left heq.symm.not_lt).2
  have hbetween : k + 1 < l := by omega
  have hnext := hk.le (hbetween.le.trans hl.le_infinity)
  have hleft := f.valueAt_strictMono (Nat.lt_succ_self k)
  have hright := f.valueAt_strictMono hbetween
  have hmiddle : x - f.valueAt k = -(x - f.valueAt l) :=
    (abs_eq_abs.1 heq).resolve_left fun h => by linarith
  have hcloser : |x - f.valueAt (k + 1)| < x - f.valueAt k :=
    abs_lt.2 ⟨by linarith, by linarith⟩
  rw [abs_of_pos (by linarith)] at hnext
  linarith

theorem IsNearest.unique {x : ℚ} {k l : ℕ} (hk : f.IsNearest x k) (hl : f.IsNearest x l) :
    k = l :=
  Nat.le_antisymm (Nat.le_of_not_lt (hl.not_lt hk)) (Nat.le_of_not_lt (hk.not_lt hl))

/-! ## 4. The grid of a number -/

theorem cast_leading : (f.leading : ℚ) = 2 ^ (f.fractionBits : ℤ) := by
  rw [leading, zpow_natCast]
  norm_cast

/-- In units of its last place a number has at most one bit more than the fraction, and no less
    unless its unit is the smallest. -/
theorem unitExponent_bounds {x : ℚ} (hx : 0 ≤ x) :
    f.lowest ≤ f.unitExponent x ∧
      (f.unitExponent x = f.lowest ∨ (f.leading : ℚ) ≤ x / 2 ^ f.unitExponent x) ∧
      x / 2 ^ f.unitExponent x < (2 * f.leading : ℕ) := by
  have hleading : (0 : ℚ) < f.leading := by exact_mod_cast f.leading_pos
  unfold unitExponent
  split_ifs with hzero
  · refine ⟨le_rfl, .inl rfl, ?_⟩
    rw [hzero, zero_div]
    exact_mod_cast Nat.mul_pos two_pos f.leading_pos
  have hpos : 0 < x := lt_of_le_of_ne hx (Ne.symm hzero)
  have hlog : (2 : ℚ) ^ Int.log 2 x ≤ x := by
    exact_mod_cast Int.zpow_log_le_self (b := 2) one_lt_two hpos
  have hlog' : x < (2 : ℚ) ^ (Int.log 2 x + 1) := by
    exact_mod_cast Int.lt_zpow_succ_log_self (b := 2) one_lt_two x
  refine ⟨le_max_left _ _, ?_, ?_⟩
  · rcases le_total (Int.log 2 x - f.fractionBits) f.lowest with hle | hle
    · exact .inl (max_eq_left hle)
    · right
      rw [max_eq_right hle, le_div_iff₀ (by positivity), cast_leading, ← zpow_add₀ two_ne_zero,
        add_sub_cancel]
      exact hlog
  · rw [div_lt_iff₀ (by positivity), Nat.cast_mul, cast_leading, Nat.cast_two,
      ← zpow_one_add₀ two_ne_zero, ← zpow_add₀ two_ne_zero]
    refine hlog'.trans_le (zpow_le_zpow_right₀ one_le_two ?_)
    omega

theorem valueAt_gridPattern {x : ℚ} (hx : 0 ≤ x) :
    f.valueAt (f.gridPattern x) =
      roundToEven (x / 2 ^ f.unitExponent x) * 2 ^ f.unitExponent x := by
  obtain ⟨hlowest, hleast, hmost⟩ := f.unitExponent_bounds hx
  have hnonneg : 0 ≤ x / 2 ^ f.unitExponent x := by positivity
  have hexponent : f.lowest + (f.unitExponent x - f.lowest).toNat = f.unitExponent x := by omega
  rw [gridPattern, valueAt_add _ (roundToEven_le hnonneg hmost), hexponent]
  exact hleast.imp (fun h => by omega) le_roundToEven

/-- A value on the grid of a number is a multiple of its unit, and any other value is smaller than
    all that have the unit of the number. -/
theorem valueAt_on_grid {x : ℚ} (hx : 0 ≤ x) (j : ℕ) :
    (∃ m : ℕ, f.valueAt j = m * 2 ^ f.unitExponent x) ∨
      f.valueAt j < f.leading * 2 ^ f.unitExponent x ∧
        f.leading * 2 ^ f.unitExponent x ≤ x := by
  obtain ⟨_, hleast, _⟩ := f.unitExponent_bounds hx
  obtain ⟨_, hmost, _⟩ := f.significand_bounds j
  rw [valueAt, Magnitude.value]
  rcases le_or_gt (f.unitExponent x) (f.magnitudeAt j).exponent with hle | hlt
  · left
    obtain ⟨k, hk⟩ := Int.le.dest hle
    refine ⟨(f.magnitudeAt j).significand * 2 ^ k, ?_⟩
    rw [← hk, add_comm, zpow_add₀ two_ne_zero, zpow_natCast]
    push_cast
    ring
  · right
    have hlowest : f.lowest ≤ (f.magnitudeAt j).exponent := by
      unfold magnitudeAt
      dsimp only
      omega
    have hnormal := hleast.resolve_left (by omega)
    rw [le_div_iff₀ (by positivity)] at hnormal
    refine ⟨?_, hnormal⟩
    calc ((f.magnitudeAt j).significand : ℚ) * 2 ^ (f.magnitudeAt j).exponent
        < (2 * f.leading : ℕ) * 2 ^ (f.magnitudeAt j).exponent := by gcongr
      _ ≤ (2 * f.leading : ℕ) * 2 ^ (f.unitExponent x - 1) := by
          gcongr
          · exact one_le_two
          · omega
      _ = f.leading * 2 ^ f.unitExponent x := by
          rw [zpow_sub_one₀ two_ne_zero]
          push_cast
          ring

/-- The distance from a multiple of a unit, in units. -/
theorem abs_sub_units (x : ℚ) (m : ℕ) (e : ℤ) :
    |x - m * 2 ^ e| = |x / 2 ^ e - m| * 2 ^ e := by
  have hpos : (0 : ℚ) < 2 ^ e := by positivity
  rw [← abs_of_pos hpos, ← abs_mul, abs_of_pos hpos, sub_mul, div_mul_cancel₀ _ hpos.ne']

theorem leading_even (hfraction : 0 < f.fractionBits) : f.leading % 2 = 0 :=
  Nat.mod_eq_zero_of_dvd (dvd_pow_self 2 hfraction.ne')

theorem add_leading_mod_two (hfraction : 0 < f.fractionBits) (n a : ℕ) :
    (n + a * f.leading) % 2 = n % 2 := by
  rw [Nat.add_mod, Nat.mul_mod, leading_even hfraction, Nat.mul_zero, Nat.zero_mod, Nat.add_zero,
    Nat.mod_mod]

theorem gridPattern_nearest (hfraction : 0 < f.fractionBits) {x : ℚ} (hx : 0 ≤ x) {j : ℕ}
    (hne : j ≠ f.gridPattern x) :
    |x - f.valueAt (f.gridPattern x)| < |x - f.valueAt j| ∨
      |x - f.valueAt (f.gridPattern x)| = |x - f.valueAt j| ∧ f.gridPattern x % 2 = 0 := by
  have hunit : (0 : ℚ) < 2 ^ f.unitExponent x := by positivity
  have hnonneg : 0 ≤ x / 2 ^ f.unitExponent x := by positivity
  have hgrid := valueAt_gridPattern (f := f) hx
  rw [hgrid]
  rcases valueAt_on_grid (f := f) hx j with ⟨m, hm⟩ | ⟨hbelow, hle⟩
  · have hother : m ≠ roundToEven (x / 2 ^ f.unitExponent x) := fun h =>
      hne (f.valueAt_strictMono.injective (by rw [hm, hgrid, h]))
    rw [hm, abs_sub_units, abs_sub_units, gridPattern, add_leading_mod_two hfraction,
      mul_lt_mul_iff_left₀ hunit, mul_left_inj' hunit.ne']
    exact roundToEven_nearest hnonneg hother
  · left
    have hleading : |x - roundToEven (x / 2 ^ f.unitExponent x) * 2 ^ f.unitExponent x| ≤
        |x - f.leading * 2 ^ f.unitExponent x| := by
      rw [abs_sub_units, abs_sub_units, mul_le_mul_iff_left₀ hunit]
      by_cases heq : f.leading = roundToEven (x / 2 ^ f.unitExponent x)
      · rw [← heq]
      · exact (roundToEven_nearest hnonneg heq).elim le_of_lt fun h => h.1.le
    refine hleading.trans_lt ?_
    rw [abs_of_nonneg (by linarith), abs_of_nonneg (by linarith)]
    linarith

/-- **Rounding finds the nearest value**, and of two that are equally near the one with an even
    pattern. Infinity counts as the next power of two. -/
theorem isNearest_round (hfraction : 0 < f.fractionBits) {x : ℚ} (hx : 0 ≤ x) :
    f.IsNearest x (f.round x) := by
  rcases le_or_gt (f.gridPattern x) f.infinity with hle | hlt
  · rw [round, min_eq_right hle]
    exact ⟨hle, fun j _ hne => gridPattern_nearest hfraction hx hne⟩
  · rw [round, min_eq_left hlt.le]
    refine ⟨le_rfl, fun j hj hne => .inl ?_⟩
    -- infinity is nearer to a pattern beyond it than to any value before it
    have hbeyond := f.valueAt_strictMono hlt
    have hbefore := f.valueAt_strictMono (lt_of_le_of_ne hj hne)
    have hnearest : |x - f.valueAt (f.gridPattern x)| ≤ |x - f.valueAt f.infinity| :=
      (gridPattern_nearest hfraction hx hlt.ne).elim le_of_lt fun h => h.1.le
    have hpast : f.valueAt f.infinity < x := by
      by_contra hnot
      rw [abs_of_nonpos (by linarith), abs_of_nonpos (by linarith)] at hnearest
      linarith
    rw [abs_of_pos (by linarith), abs_of_pos (by linarith)]
    linarith

/-- `2 ^ 53 + 1` is half way between two values. -/
example : double.round (2 ^ 53 + 1) = double.round (2 ^ 53) := by decide +kernel

/-! ## 5. Intervals -/

/-- A magnitude that is not infinite reaches half way to its neighbours. -/
theorem upperEnd_magnitudeAt (k : ℕ) :
    (f.magnitudeAt k).upperEnd = (f.valueAt k + f.valueAt (k + 1)) / 2 := by
  rw [valueAt_succ, Magnitude.upperEnd, valueAt]
  ring

/-- The unit doubles where a value has a narrow neighbour below. -/
theorem exponent_magnitudeAt_succ (k : ℕ) :
    (f.magnitudeAt (k + 1)).exponent =
      (f.magnitudeAt k).exponent + if (f.magnitudeAt (k + 1)).narrowBelow then 1 else 0 := by
  have hlt := Nat.mod_lt k f.leading_pos
  have hparts := Nat.mod_add_div' k f.leading
  unfold magnitudeAt
  dsimp only
  by_cases hlast : k % f.leading + 1 = f.leading
  · have hsum : 0 + (k / f.leading + 1) * f.leading = k + 1 := by rw [Nat.add_mul]; omega
    obtain ⟨hstored, hfraction⟩ := parts_eq hsum f.leading_pos
    rw [hstored, hfraction]
    simp only [beq_self_eq_true, Bool.true_and, decide_eq_true_eq]
    split_ifs <;> omega
  · have hsum : k % f.leading + 1 + k / f.leading * f.leading = k + 1 := by omega
    obtain ⟨hstored, hfraction⟩ := parts_eq hsum (by omega)
    rw [hstored, hfraction]
    simp

theorem lowerEnd_magnitudeAt (k : ℕ) :
    (f.magnitudeAt (k + 1)).lowerEnd = (f.valueAt k + f.valueAt (k + 1)) / 2 := by
  have hexponent := f.exponent_magnitudeAt_succ k
  have hnext := f.valueAt_succ k
  have hvalue : (f.magnitudeAt (k + 1)).value = f.valueAt (k + 1) := rfl
  rw [Magnitude.lowerEnd, hvalue, hexponent]
  split_ifs
  · rw [zpow_add_one₀ two_ne_zero]
    linarith
  · rw [add_zero]
    linarith

theorem significand_mod_two (hfraction : 0 < f.fractionBits) (k : ℕ) :
    (f.magnitudeAt k).significand % 2 = k % 2 := by
  conv_rhs => rw [(f.significand_bounds k).2.2]
  rw [add_leading_mod_two hfraction]

theorem abs_sub_eq_iff {a b x : ℚ} (hne : a ≠ b) : |x - a| = |x - b| ↔ x = (a + b) / 2 := by
  rw [abs_eq_abs]
  constructor
  · rintro (h | h)
    · exact absurd (by linarith) hne
    · linarith
  · intro h
    right
    linarith

theorem nearer_below_iff {a b x : ℚ} {p : Prop} (hab : a < b) :
    |x - a| < |x - b| ∨ |x - a| = |x - b| ∧ p ↔ x < (a + b) / 2 ∨ x = (a + b) / 2 ∧ p := by
  have hlt : |x - a| < |x - b| ↔ x < (a + b) / 2 := by
    rw [← sq_lt_sq]
    constructor <;> intro h <;> nlinarith
  rw [hlt, abs_sub_eq_iff hab.ne]

theorem nearer_above_iff {a b x : ℚ} {p : Prop} (hab : a < b) :
    |x - b| < |x - a| ∨ |x - b| = |x - a| ∧ p ↔ (a + b) / 2 < x ∨ x = (a + b) / 2 ∧ p := by
  have hlt : |x - b| < |x - a| ↔ (a + b) / 2 < x := by
    rw [← sq_lt_sq]
    constructor <;> intro h <;> nlinarith
  rw [hlt, abs_sub_eq_iff hab.ne', add_comm b a]

/-- A pattern is nearest if it is nearer than its two neighbours. -/
theorem isNearest_iff_spans (hfraction : 0 < f.fractionBits) {x : ℚ} (hx : 0 ≤ x) {k : ℕ}
    (hk : k < f.infinity) : f.IsNearest x k ↔ (f.magnitudeAt k).Spans x := by
  rw [Magnitude.spans_iff, significand_mod_two hfraction]
  have hmono := f.valueAt_strictMono
  constructor
  · intro h
    constructor
    · cases k with
      | zero =>
        left
        have hzero : (f.magnitudeAt 0).value = 0 := by simp [magnitudeAt, Magnitude.value]
        exact (hzero ▸ Magnitude.lowerEnd_lt_value).trans_le hx
      | succ k =>
        rw [lowerEnd_magnitudeAt, ← nearer_above_iff (hmono k.lt_succ_self)]
        exact h.nearer k (by omega) (by omega)
    · rw [upperEnd_magnitudeAt, ← nearer_below_iff (hmono k.lt_succ_self)]
      exact h.nearer (k + 1) hk (by omega)
  · rintro ⟨hlower, hupper⟩
    refine ⟨hk.le, fun j _ hne => ?_⟩
    rcases lt_or_gt_of_ne hne with hlt | hgt
    · obtain ⟨k, rfl⟩ : ∃ i, k = i + 1 := ⟨k - 1, by omega⟩
      have hle := hmono.monotone (show j ≤ k by omega)
      rw [lowerEnd_magnitudeAt] at hlower
      rw [nearer_above_iff (hmono hlt)]
      rcases hlower with h | ⟨h, heven⟩
      · left
        linarith
      · rcases hle.lt_or_eq with hfar | hnext
        · left
          linarith
        · exact .inr ⟨by rw [hnext]; exact h, heven⟩
    · have hle := hmono.monotone (show k + 1 ≤ j by omega)
      rw [upperEnd_magnitudeAt] at hupper
      rw [nearer_below_iff (hmono hgt)]
      rcases hupper with h | ⟨h, heven⟩
      · left
        linarith
      · rcases hle.lt_or_eq with hfar | hnext
        · left
          linarith
        · exact .inr ⟨by rw [← hnext]; exact h, heven⟩

/-- **The numbers that are rounded to a value are those of its interval.** -/
theorem round_eq_iff_spans (hfraction : 0 < f.fractionBits) {x : ℚ} (hx : 0 ≤ x) {k : ℕ}
    (hk : k < f.infinity) : f.round x = k ↔ (f.magnitudeAt k).Spans x := by
  rw [← isNearest_iff_spans hfraction hx hk]
  constructor
  · rintro rfl
    exact isNearest_round hfraction hx
  · exact (isNearest_round hfraction hx).unique

end BinaryFormat

end ClassView.Number
