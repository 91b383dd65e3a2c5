import ClassView.Listing.Phrase
import ClassView.Proofs.Number.Notation
import ClassView.Proofs.Number.Shortest

/-!
# Floating-point constants in a listing

A listing writes a floating-point constant with the fewest digits that are still read back as the
same bits, and the nearest of these, positionally from a thousandth up to ten million and with a
power of ten otherwise. So no two constants of one width are written alike, unless both are no
number.

* `Magnitude.spelled`, `Magnitude.spans_spelled`, `Magnitude.spelled_fewest`,
  `Magnitude.spelled_nearest`: the decimal behind a text;
* `isPositional_listingFloats_iff`: the bounds of the positional form;
* `thousandth_le_iff`, `withinThresholds_iff`: the exact bounds and the nearest numbers of eight
  bytes have the same numbers between them;
* `FloatValue.IsShownAs`: what the text of a finite number tells of it;
* `listingFloats_isShownAs`, `listingFloats_injective`: any format with no more precision than that
  of eight bytes;
* **`floatTexts_readBack`**: the texts of four and of eight bytes.
-/

namespace ClassView

open Number

/-! ## 1. The decimal that is spelled -/

namespace Number.Magnitude

variable (v : Magnitude)

/-- The decimal whose digits are in the text of a magnitude. -/
def spelled : Decimal := if v.isZero then ⟨0, 0⟩ else v.shortest

variable {v}

theorem significand_ne_zero (h : ¬ v.isZero = true) : v.significand ≠ 0 := fun hzero =>
  h (beq_iff_eq.2 hzero)

variable (v)

theorem value_zero_of_isZero (h : v.isZero = true) : (⟨0, 0⟩ : Decimal).value = v.value := by
  rw [v.isZero_iff.1 h]
  exact zero_mul _

theorem spans_spelled : v.Spans v.spelled.value := by
  unfold spelled
  split_ifs with hzero
  · rw [v.value_zero_of_isZero hzero]
    exact spans_value
  · exact covers_iff.1 (covers_shortest (significand_ne_zero hzero))

theorem spelled_fewest {d : Decimal} (hd : v.Spans d.value) :
    v.spelled.digits.length ≤ d.digits.length := by
  unfold spelled
  split_ifs with hzero
  · exact length_digits_pos d.coefficient
  · exact shortest_fewest (significand_ne_zero hzero) (covers_iff.2 hd)

theorem spelled_nearest {d : Decimal} (hd : v.Spans d.value)
    (hlength : d.digits.length ≤ v.spelled.digits.length) :
    |v.value - v.spelled.value| ≤ |v.value - d.value| := by
  unfold spelled at hlength ⊢
  split_ifs at hlength ⊢ with hzero
  · rw [v.value_zero_of_isZero hzero, sub_self, abs_zero]
    exact abs_nonneg _
  · exact shortest_nearest (significand_ne_zero hzero) (covers_iff.2 hd) hlength

theorem spelled_ne_zero (h : ¬ v.isZero = true) : v.spelled.coefficient ≠ 0 := by
  intro hzero
  have hpos := v.spans_spelled.pos (significand_ne_zero h)
  rw [Decimal.value, hzero, Nat.cast_zero, zero_mul] at hpos
  exact lt_irrefl 0 hpos

end Number.Magnitude

theorem listingFloats_magnitude (v : Magnitude) :
    listingFloats.magnitude v =
      if v.isZero = true ∨ v.within 1 1000 10000000 = true then v.spelled.positional
      else v.spelled.scientific := by
  unfold FloatLayout.magnitude Magnitude.spelled
  by_cases hzero : v.isZero = true
  · rw [if_pos hzero, if_pos (.inl hzero), if_pos hzero]
    rfl
  · simp only [hzero, false_or, if_false, Bool.false_eq_true]
    rfl

/-! ## 2. Where the positional form ends -/

/-- The number of eight bytes that is nearest to a thousandth is a little larger. -/
theorem thousandth_nearest :
    double.valueAt (double.round (1 / 1000)) = 4611686018427388 / 2 ^ 62 := by decide +kernel

theorem tenMillion_nearest : double.valueAt (double.round (10 ^ 7)) = 10 ^ 7 := by decide +kernel

/-- No number with the precision of eight bytes lies between a thousandth and the nearest one. -/
theorem thousandth_le_iff {v : Magnitude} (hprecision : v.significand < 2 ^ 53) :
    double.valueAt (double.round (1 / 1000)) ≤ v.value ↔ 1 / 1000 ≤ v.value := by
  rw [thousandth_nearest]
  refine ⟨fun h => le_trans (by norm_num) h, fun h => ?_⟩
  rw [Magnitude.value] at h ⊢
  rcases le_or_gt (-62) v.exponent with hle | hlt
  -- the value is a whole number of steps of `2 ^ -62`, and no fewer steps reach a thousandth
  · obtain ⟨k, hk⟩ := Int.le.dest hle
    have hvalue : (v.significand : ℚ) * 2 ^ v.exponent = (v.significand * 2 ^ k : ℕ) / 2 ^ 62 := by
      rw [← hk, zpow_add₀ two_ne_zero, zpow_natCast, show (-62 : ℤ) = -(62 : ℕ) from rfl, zpow_neg,
        zpow_natCast]
      push_cast
      ring
    rw [hvalue, div_le_div_iff₀ (by norm_num) (by norm_num), one_mul] at h
    have hwhole : 2 ^ 62 ≤ v.significand * 2 ^ k * 1000 := by exact_mod_cast h
    have hsteps : 4611686018427388 ≤ v.significand * 2 ^ k := by omega
    rw [hvalue]
    gcongr
    exact_mod_cast hsteps
  -- with a finer unit the value has too few bits to reach it
  · have hunit : (2 : ℚ) ^ v.exponent ≤ 2 ^ (-63 : ℤ) :=
      zpow_le_zpow_right₀ one_le_two (by omega)
    have hsignificand : (v.significand : ℚ) < 2 ^ 53 := by exact_mod_cast hprecision
    have hsmall : (v.significand : ℚ) * 2 ^ v.exponent < 1 / 1000 :=
      calc (v.significand : ℚ) * 2 ^ v.exponent ≤ v.significand * 2 ^ (-63 : ℤ) := by gcongr
        _ < 2 ^ 53 * 2 ^ (-63 : ℤ) := by gcongr
        _ < 1 / 1000 := by norm_num
    exact absurd h hsmall.not_ge

/-- The bounds of the positional form can be told exactly or by the nearest numbers of eight
    bytes. -/
theorem withinThresholds_iff {v : Magnitude} (hprecision : v.significand < 2 ^ 53) :
    1 / 1000 ≤ v.value ∧ v.value < 10 ^ 7 ↔
      double.valueAt (double.round (1 / 1000)) ≤ v.value ∧
        v.value < double.valueAt (double.round (10 ^ 7)) := by
  rw [thousandth_le_iff hprecision, tenMillion_nearest]

/-- Where the listing writes a magnitude positionally. -/
theorem isPositional_listingFloats_iff {v : Magnitude} :
    v.isZero = true ∨ v.within 1 1000 10000000 = true ↔
      v.value = 0 ∨ 1 / 1000 ≤ v.value ∧ v.value < 10 ^ 7 := by
  rw [Magnitude.isZero_iff, Magnitude.within_iff _ (by decide)]
  norm_num

/-! ## 3. One text -/

/-- What the text of a finite number tells of it. -/
structure Number.FloatValue.IsShownAs (f : BinaryFormat) (bits : ℕ) (v : Magnitude)
    (text : String) : Prop where
  /-- The text is read back as the same bits, the sign of zero included. -/
  readsBack : f.bitsOfText? text = some bits
  /-- The text has the digits of a decimal. Of those that are rounded to the number none has fewer
      digits, and none with as few digits is nearer. -/
  shortest : ∃ (negative : Bool) (d : Decimal),
    (text = FloatLayout.signed negative d.positional ∨
      text = FloatLayout.signed negative d.scientific) ∧
    ∀ c : Decimal, f.round c.value = bits % f.signBit →
      d.digits.length ≤ c.digits.length ∧
        (c.digits.length = d.digits.length → |v.value - d.value| ≤ |v.value - c.value|)
  positional_iff : IsPositional text ↔ v.value = 0 ∨ 1 / 1000 ≤ v.value ∧ v.value < 10 ^ 7
  scientific : ¬ IsPositional text → IsScientific text
  /-- The bounds are the numbers of eight bytes that are nearest to them. -/
  thresholds : 1 / 1000 ≤ v.value ∧ v.value < 10 ^ 7 ↔
    double.valueAt (double.round (1 / 1000)) ≤ v.value ∧
      v.value < double.valueAt (double.round (10 ^ 7))

section Format

variable {f : BinaryFormat} {bits : ℕ}

theorem ofBits_eq_finite_iff {negative : Bool} {v : Magnitude} :
    FloatValue.ofBits f bits = .finite negative v ↔
      bits % f.signBit < f.infinity ∧ (bits / f.signBit % 2 == 1) = negative ∧
        f.magnitudeAt (bits % f.signBit) = v := by
  rw [FloatValue.ofBits_eq]
  split_ifs with hfinite <;> simp [hfinite]

theorem ofBits_eq_infinite_iff {negative : Bool} :
    FloatValue.ofBits f bits = .infinite negative ↔
      bits % f.signBit = f.infinity ∧ (bits / f.signBit % 2 == 1) = negative := by
  rw [FloatValue.ofBits_eq]
  split_ifs with hfinite hinfinite
  · simp [hfinite.ne]
  · simp [hinfinite]
  · simp [hinfinite]

/-- The bits are the sign and the pattern. -/
theorem sign_add_pattern (hbits : bits < 2 * f.signBit) :
    (if bits / f.signBit % 2 == 1 then f.signBit else 0) + bits % f.signBit = bits := by
  have hparts := Nat.mod_add_div bits f.signBit
  have hsign : bits / f.signBit < 2 := Nat.div_lt_of_lt_mul (by rwa [Nat.mul_comm])
  rcases Nat.le_one_iff_eq_zero_or_eq_one.1 (Nat.le_of_lt_succ hsign) with h | h
  · rw [h] at hparts ⊢
    simpa using hparts
  · rw [h] at hparts ⊢
    simpa [Nat.add_comm] using hparts

theorem significand_lt (hprecision : f.fractionBits ≤ 52) (k : ℕ) :
    (f.magnitudeAt k).significand < 2 ^ 53 :=
  calc (f.magnitudeAt k).significand < 2 * f.leading := (f.significand_bounds k).2.1
    _ ≤ 2 * 2 ^ 52 := Nat.mul_le_mul_left 2 (Nat.pow_le_pow_right two_pos hprecision)
    _ = 2 ^ 53 := by norm_num

theorem listingFloats_isShownAs (hfraction : 0 < f.fractionBits) (hprecision : f.fractionBits ≤ 52)
    (hbits : bits < 2 * f.signBit) {negative : Bool} {v : Magnitude}
    (h : FloatValue.ofBits f bits = .finite negative v) :
    FloatValue.IsShownAs f bits v (listingFloats.text f bits) := by
  have htext : listingFloats.text f bits =
      FloatLayout.signed negative (listingFloats.magnitude v) := by
    rw [FloatLayout.text, h]
  obtain ⟨hfinite, hsign, hmagnitude⟩ := ofBits_eq_finite_iff.1 h
  have hround : ∀ c : Decimal, f.round c.value = bits % f.signBit ↔ v.Spans c.value := fun c => by
    rw [← hmagnitude]
    exact BinaryFormat.round_eq_iff_spans hfraction c.value_nonneg hfinite
  have hbits' : (if negative then f.signBit else 0) + f.round v.spelled.value = bits := by
    rw [(hround _).2 v.spans_spelled, ← hsign]
    exact sign_add_pattern hbits
  have hshortest : ∀ c : Decimal, f.round c.value = bits % f.signBit →
      v.spelled.digits.length ≤ c.digits.length ∧
        (c.digits.length = v.spelled.digits.length →
          |v.value - v.spelled.value| ≤ |v.value - c.value|) := fun c hc =>
    ⟨v.spelled_fewest ((hround c).1 hc), fun hlength =>
      v.spelled_nearest ((hround c).1 hc) hlength.le⟩
  have hthresholds := withinThresholds_iff (v := v) (hmagnitude ▸ significand_lt hprecision _)
  rw [htext, listingFloats_magnitude]
  split_ifs with hshown
  · have hform := isPositional_signed negative v.spelled
    exact {
      readsBack := by rw [bitsOfText?_positional, hbits']
      shortest := ⟨negative, v.spelled, .inl rfl, hshortest⟩
      positional_iff := iff_of_true hform (isPositional_listingFloats_iff.1 hshown)
      scientific := fun hnot => absurd hform hnot
      thresholds := hthresholds }
  · have hdigits : v.spelled.coefficient ≠ 0 := v.spelled_ne_zero fun hzero => hshown (.inl hzero)
    have hform := isScientific_signed negative hdigits
    exact {
      readsBack := by rw [bitsOfText?_scientific f negative hdigits, hbits']
      shortest := ⟨negative, v.spelled, .inr rfl, hshortest⟩
      positional_iff := iff_of_false (not_isPositional_of_isScientific hform)
        fun hvalue => hshown (isPositional_listingFloats_iff.2 hvalue)
      scientific := fun _ => hform
      thresholds := hthresholds }

theorem text_of_infinite {negative : Bool} (h : FloatValue.ofBits f bits = .infinite negative) :
    listingFloats.text f bits = if negative then "-Infinity" else "Infinity" := by
  rw [FloatLayout.text, h]
  rfl

/-- The words for the infinities are not read as numbers. -/
theorem bitsOfText?_of_infinite {negative : Bool}
    (h : FloatValue.ofBits f bits = .infinite negative) :
    f.bitsOfText? (listingFloats.text f bits) = none := by
  rw [text_of_infinite h]
  cases negative <;> rfl

theorem bits_of_infinite (hbits : bits < 2 * f.signBit) {negative : Bool}
    (h : FloatValue.ofBits f bits = .infinite negative) :
    bits = (if negative then f.signBit else 0) + f.infinity := by
  obtain ⟨hpattern, hsign⟩ := ofBits_eq_infinite_iff.1 h
  rw [← hsign, ← hpattern, sign_add_pattern hbits]

theorem finite_or_infinite (h : isNotANumber f bits = false) :
    (∃ negative v, FloatValue.ofBits f bits = .finite negative v) ∨
      ∃ negative, FloatValue.ofBits f bits = .infinite negative := by
  cases hvalue : FloatValue.ofBits f bits with
  | notANumber => simp [isNotANumber, hvalue] at h
  | infinite negative => exact .inr ⟨negative, rfl⟩
  | finite negative v => exact .inl ⟨negative, v, rfl⟩

theorem listingFloats_injective (hfraction : 0 < f.fractionBits) (hprecision : f.fractionBits ≤ 52)
    {a b : ℕ} (ha : a < 2 * f.signBit) (hb : b < 2 * f.signBit)
    (hanumber : isNotANumber f a = false) (hbnumber : isNotANumber f b = false)
    (h : listingFloats.text f a = listingFloats.text f b) : a = b := by
  have hread : f.bitsOfText? (listingFloats.text f a) = f.bitsOfText? (listingFloats.text f b) :=
    congrArg _ h
  rcases finite_or_infinite hanumber with ⟨_, _, hafinite⟩ | ⟨anegative, hainfinite⟩ <;>
    rcases finite_or_infinite hbnumber with ⟨_, _, hbfinite⟩ | ⟨bnegative, hbinfinite⟩
  · rw [(listingFloats_isShownAs hfraction hprecision ha hafinite).readsBack,
      (listingFloats_isShownAs hfraction hprecision hb hbfinite).readsBack] at hread
    exact Option.some.inj hread
  · rw [(listingFloats_isShownAs hfraction hprecision ha hafinite).readsBack,
      bitsOfText?_of_infinite hbinfinite] at hread
    exact absurd hread (Option.some_ne_none a)
  · rw [bitsOfText?_of_infinite hainfinite,
      (listingFloats_isShownAs hfraction hprecision hb hbfinite).readsBack] at hread
    exact absurd hread.symm (Option.some_ne_none b)
  · rw [text_of_infinite hainfinite, text_of_infinite hbinfinite] at h
    have hsign : anegative = bnegative := by
      revert h
      cases anegative <;> cases bnegative <;> decide
    rw [bits_of_infinite ha hainfinite, bits_of_infinite hb hbinfinite, hsign]

end Format

/-- **The text of a floating-point constant is read back as the same bits.** It has as few digits
    as it can and the nearest of these, is positional exactly from a thousandth up to ten million
    and for zero, and no other number of its width has the same text. -/
theorem floatTexts_readBack :
    (∀ (bits : UInt64) (negative : Bool) (v : Magnitude),
      FloatValue.ofBits double bits.toNat = .finite negative v →
        FloatValue.IsShownAs double bits.toNat v (doubleText bits)) ∧
    (∀ (bits : UInt32) (negative : Bool) (v : Magnitude),
      FloatValue.ofBits single bits.toNat = .finite negative v →
        FloatValue.IsShownAs single bits.toNat v (floatText bits)) ∧
    (∀ a b : UInt64, isNotANumber double a.toNat = false → isNotANumber double b.toNat = false →
      doubleText a = doubleText b → a = b) ∧
    ∀ a b : UInt32, isNotANumber single a.toNat = false → isNotANumber single b.toNat = false →
      floatText a = floatText b → a = b := by
  have hdouble : ∀ bits : UInt64, bits.toNat < 2 * double.signBit := fun bits => bits.toNat_lt
  have hsingle : ∀ bits : UInt32, bits.toNat < 2 * single.signBit := fun bits => bits.toNat_lt
  refine ⟨fun bits negative v h => ?_, fun bits negative v h => ?_, fun a b ha hb h => ?_,
    fun a b ha hb h => ?_⟩
  · exact listingFloats_isShownAs (by decide) (by decide) (hdouble bits) h
  · exact listingFloats_isShownAs (by decide) (by decide) (hsingle bits) h
  · exact UInt64.toNat_inj.1
      (listingFloats_injective (by decide) (by decide) (hdouble a) (hdouble b) ha hb h)
  · exact UInt32.toNat_inj.1
      (listingFloats_injective (by decide) (by decide) (hsingle a) (hsingle b) ha hb h)

/-- `10 ^ 23` is half way between two numbers of eight bytes and is the text of the even one. In
    four bytes there are the smallest number and the one nearest to a thousandth. Both zeros have a
    text of their own, and so have both infinities. -/
theorem floatTexts_readBack_edges :
    FloatValue.ofBits double 0xC4B52D02C7E14AF6 = .finite true ⟨5960464477539062, 24, false⟩ ∧
      FloatValue.IsShownAs double 0xC4B52D02C7E14AF6 ⟨5960464477539062, 24, false⟩ "-1.0E23" ∧
      FloatValue.ofBits single 1 = .finite false ⟨1, -149, false⟩ ∧
      FloatValue.IsShownAs single 1 ⟨1, -149, false⟩ "1.0E-45" ∧
      FloatValue.ofBits single 0x3A83126F = .finite false ⟨0x83126F, -33, false⟩ ∧
      FloatValue.IsShownAs single 0x3A83126F ⟨0x83126F, -33, false⟩ "0.001" ∧
      doubleText 0x8000000000000000 ≠ doubleText 0 ∧
      floatText 0xFF800000 ≠ floatText 0x7F800000 := by
  obtain ⟨hdouble, hsingle, hdoubles, hsingles⟩ := floatTexts_readBack
  have hlarge : doubleText 0xC4B52D02C7E14AF6 = "-1.0E23" := by decide +kernel
  have hsmallest : floatText 1 = "1.0E-45" := by decide +kernel
  have hthousandth : floatText 0x3A83126F = "0.001" := by decide +kernel
  refine ⟨rfl, ?_, rfl, ?_, rfl, ?_, fun h => ?_, fun h => ?_⟩
  · rw [← hlarge]
    exact hdouble 0xC4B52D02C7E14AF6 true ⟨5960464477539062, 24, false⟩ rfl
  · rw [← hsmallest]
    exact hsingle 1 false ⟨1, -149, false⟩ rfl
  · rw [← hthousandth]
    exact hsingle 0x3A83126F false ⟨0x83126F, -33, false⟩ rfl
  · exact absurd (hdoubles 0x8000000000000000 0 rfl rfl h) (by decide)
  · exact absurd (hsingles 0xFF800000 0x7F800000 rfl rfl h) (by decide)

end ClassView
