import ClassView.Number.Layout
import ClassView.Proofs.Number.Rounding

/-!
# Reading numbers

A number in decimal notation is digits with a point between them, and then perhaps a power of ten
behind the letter `E`. It is read as the decimal that it spells, exactly, and only then rounded.

* `Decimal.ofChars?`, **`BinaryFormat.bitsOfText?`**: reading a text, and the bits it stands for;
* `IsPositional`, `IsScientific`: the two forms of a text, `not_isPositional_of_isScientific`;
* `ofChars?_positional`, `ofChars?_scientific`: one text of each form;
* `Decimal.exists_positional`, `Decimal.exists_scientific`: a decimal is read back from both of its
  notations, as the number that it was.
-/

namespace ClassView.Number

/-! ## 1. Reading -/

/-- At least one digit, and nothing else. -/
def IsDigits (cs : List Char) : Prop := cs ≠ [] ∧ ∀ c ∈ cs, c.isDigit = true

instance (cs : List Char) : Decidable (IsDigits cs) :=
  decidable_of_iff (cs.isEmpty = false ∧ cs.all Char.isDigit = true) (by simp [IsDigits])

/-- The number that digits spell. -/
def number? (cs : List Char) : Option ℕ :=
  if IsDigits cs then some (Nat.ofDigitChars 10 cs 0) else none

/-- The sign in front of a number. -/
def minus (negative : Bool) : List Char := if negative then ['-'] else []

/-- Whether there is a minus sign in front, and what is behind it. -/
def cutMinus : List Char → Bool × List Char
  | '-' :: cs => (true, cs)
  | cs => (false, cs)

/-- The whole number that digits spell, behind a minus sign if it is negative. -/
def wholeNumber? (cs : List Char) : Option ℤ :=
  (number? (cutMinus cs).2).map fun n => if (cutMinus cs).1 then -(n : ℤ) else n

/-- The characters in front of a mark, and those behind it if it is there. -/
def cut (mark : Char) : List Char → List Char × Option (List Char)
  | [] => ([], none)
  | c :: cs => if c = mark then ([], some cs) else ((c :: (cut mark cs).1), (cut mark cs).2)

/-- The decimal that a text without a sign spells. -/
def Decimal.ofChars? (cs : List Char) : Option Decimal := do
  let (mantissa, power) := cut 'E' cs
  let (whole, fraction) := cut '.' mantissa
  let digits ← fraction
  let exponent ← (power.map wholeNumber?).getD (some 0)
  if IsDigits whole ∧ IsDigits digits then
    some ⟨Nat.ofDigitChars 10 (whole ++ digits) 0, exponent - digits.length⟩
  else none

/-- The bits that a text stands for: its decimal, rounded, and its sign. -/
def BinaryFormat.bitsOfText? (f : BinaryFormat) (text : String) : Option ℕ :=
  (Decimal.ofChars? (cutMinus text.toList).2).map fun d =>
    (if (cutMinus text.toList).1 then f.signBit else 0) + f.round d.value

/-! ## 2. Two forms -/

/-- Digits with a point between them, and no power of ten. -/
def IsPositional (text : String) : Prop :=
  ∃ negative whole fraction, IsDigits whole ∧ IsDigits fraction ∧
    text.toList = minus negative ++ (whole ++ '.' :: fraction)

/-- One digit that is not zero, a point, more digits and a power of ten, which has no plus sign. -/
def IsScientific (text : String) : Prop :=
  ∃ negative first fraction negativePower power, first.isDigit = true ∧ first ≠ '0' ∧
    IsDigits fraction ∧ IsDigits power ∧
    text.toList = minus negative ++
      ([first] ++ '.' :: fraction ++ 'E' :: (minus negativePower ++ power))

theorem IsDigits.not_mem {cs : List Char} (h : IsDigits cs) {c : Char} (hc : c.isDigit = false) :
    c ∉ cs := by
  intro hmem
  rw [h.2 c hmem] at hc
  exact Bool.noConfusion hc

theorem IsDigits.append {cs ds : List Char} (hc : IsDigits cs) (hd : ∀ c ∈ ds, c.isDigit = true) :
    IsDigits (cs ++ ds) :=
  ⟨by simp [hc.1], fun c h => (List.mem_append.1 h).elim (hc.2 c) (hd c)⟩

theorem IsDigits.take {cs : List Char} (h : IsDigits cs) {n : ℕ} (hn : 0 < n) :
    IsDigits (cs.take n) :=
  ⟨by simp [h.1, hn.ne'], fun c hc => h.2 c (List.mem_of_mem_take hc)⟩

theorem IsDigits.drop {cs : List Char} (h : IsDigits cs) {n : ℕ} (hn : n < cs.length) :
    IsDigits (cs.drop n) :=
  ⟨by simpa using hn, fun c hc => h.2 c (List.mem_of_mem_drop hc)⟩

theorem not_mem_minus (negative : Bool) {c : Char} (hc : c ≠ '-') : c ∉ minus negative := by
  cases negative with
  | true => simpa [minus] using hc
  | false => exact List.not_mem_nil

/-- Only the scientific form has the letter. -/
theorem not_isPositional_of_isScientific {text : String} (h : IsScientific text) :
    ¬ IsPositional text := by
  rintro ⟨negative, whole, fraction, hwhole, hfraction, htext⟩
  obtain ⟨_, _, _, _, _, _, _, _, _, htext'⟩ := h
  have hletter : 'E' ∈ text.toList := by rw [htext']; simp
  have hnone : 'E' ∉ text.toList := by
    rw [htext]
    simp [not_mem_minus, hwhole.not_mem, hfraction.not_mem]
  exact hnone hletter

/-! ## 3. One text of each form -/

theorem cut_of_not_mem {mark : Char} {cs : List Char} (h : mark ∉ cs) :
    cut mark cs = (cs, none) := by
  induction cs with
  | nil => rfl
  | cons c cs ih =>
    obtain ⟨hne, hrest⟩ := not_or.1 (List.mem_cons.not.1 h)
    rw [cut, if_neg (Ne.symm hne), ih hrest]

theorem cut_append {mark : Char} {cs : List Char} (h : mark ∉ cs) (behind : List Char) :
    cut mark (cs ++ mark :: behind) = (cs, some behind) := by
  induction cs with
  | nil => simp [cut]
  | cons c cs ih =>
    obtain ⟨hne, hrest⟩ := not_or.1 (List.mem_cons.not.1 h)
    rw [List.cons_append, cut, if_neg (Ne.symm hne), ih hrest]

variable {whole fraction : List Char}

theorem letter_not_mem (hwhole : IsDigits whole) (hfraction : IsDigits fraction) :
    'E' ∉ whole ++ '.' :: fraction := by
  simp [hwhole.not_mem, hfraction.not_mem]

theorem ofChars?_positional (hwhole : IsDigits whole) (hfraction : IsDigits fraction) :
    Decimal.ofChars? (whole ++ '.' :: fraction) =
      some ⟨Nat.ofDigitChars 10 (whole ++ fraction) 0, -fraction.length⟩ := by
  rw [Decimal.ofChars?, cut_of_not_mem (letter_not_mem hwhole hfraction)]
  simp [cut_append (hwhole.not_mem (c := '.') rfl), hwhole, hfraction]

theorem ofChars?_scientific (hwhole : IsDigits whole) (hfraction : IsDigits fraction)
    {power : List Char} {exponent : ℤ} (hpower : wholeNumber? power = some exponent) :
    Decimal.ofChars? (whole ++ '.' :: fraction ++ 'E' :: power) =
      some ⟨Nat.ofDigitChars 10 (whole ++ fraction) 0, exponent - fraction.length⟩ := by
  rw [Decimal.ofChars?, cut_append (letter_not_mem hwhole hfraction)]
  simp [cut_append (hwhole.not_mem (c := '.') rfl), hwhole, hfraction, hpower]

theorem IsDigits.cutMinus_append (hwhole : IsDigits whole) (negative : Bool) (rest : List Char) :
    cutMinus (minus negative ++ (whole ++ rest)) = (negative, whole ++ rest) := by
  cases negative with
  | true => rfl
  | false =>
    cases whole with
    | nil => exact absurd rfl hwhole.1
    | cons c cs =>
      have hc : c ≠ '-' := fun h =>
        hwhole.not_mem (c := '-') rfl (by rw [h]; exact List.mem_cons_self)
      rw [minus, if_neg Bool.false_ne_true, List.nil_append, List.cons_append, cutMinus]
      exact fun _ h => hc (List.cons.inj h).1

theorem bitsOfText?_of_chars {f : BinaryFormat} {text : String} {negative : Bool} {cs : List Char}
    {d : Decimal} (hcut : cutMinus text.toList = (negative, cs))
    (hd : Decimal.ofChars? cs = some d) :
    f.bitsOfText? text = some ((if negative then f.signBit else 0) + f.round d.value) := by
  rw [BinaryFormat.bitsOfText?, hcut]
  dsimp only
  rw [hd]
  rfl

/-! ## 4. Digits of a number -/

theorem toList_digits (n : ℕ) : (toString n).toList = Nat.toDigits 10 n := by
  rw [Nat.toString_eq_ofList_toDigits, String.toList_ofList]

theorem isDigits_digits (n : ℕ) : IsDigits (toString n).toList := by
  rw [toList_digits]
  exact ⟨Nat.toDigits_ne_nil, fun c hc => Nat.isDigit_of_mem_toDigits (by decide) (by decide) hc⟩

theorem ofDigitChars_digits (n : ℕ) : Nat.ofDigitChars 10 (toString n).toList 0 = n := by
  rw [toList_digits, Nat.ofDigitChars_ten_toDigits]

theorem number?_digits (n : ℕ) : number? (toString n).toList = some n := by
  rw [number?, if_pos (isDigits_digits n), ofDigitChars_digits]

/-- The digits of a number other than zero do not begin with a zero. -/
theorem head?_digits_ne_zero {n : ℕ} (hn : n ≠ 0) : (toString n).toList.head? ≠ some '0' := by
  rw [toList_digits]
  induction n using Nat.strongRecOn with
  | ind n ih =>
    rcases Nat.lt_or_ge n 10 with hlt | hle
    · have hdigit : ∀ m < 10, m ≠ 0 → Nat.digitChar m ≠ '0' := by decide
      rw [Nat.toDigits_of_lt_base hlt]
      exact fun h => hdigit n hlt hn (Option.some.inj h)
    · rw [Nat.toDigits_of_base_le (by decide) hle,
        List.head?_append_of_ne_nil _ Nat.toDigits_ne_nil]
      exact ih (n / 10) (by omega) (by omega)

theorem wholeNumber?_int (z : ℤ) : ∃ negative power, IsDigits power ∧
    (toString z).toList = minus negative ++ power ∧
      wholeNumber? (toString z).toList = some z := by
  have hread : ∀ (negative : Bool) (n : ℕ), wholeNumber? (minus negative ++ (toString n).toList) =
      some (if negative then -(n : ℤ) else n) := by
    intro negative n
    have hcut := (isDigits_digits n).cutMinus_append negative []
    rw [List.append_nil] at hcut
    rw [wholeNumber?, hcut, number?_digits]
    rfl
  cases z with
  | ofNat n => exact ⟨false, (toString n).toList, isDigits_digits n, rfl, hread false n⟩
  | negSucc n =>
    have htext : (toString (Int.negSucc n)).toList = minus true ++ (toString (n + 1)).toList := by
      exact String.toList_append
    refine ⟨true, (toString (n + 1)).toList, isDigits_digits _, htext, ?_⟩
    rw [htext, hread true, if_pos rfl, Int.negSucc_eq]
    rfl

/-! ## 5. Both notations -/

theorem isDigits_zero : IsDigits ['0'] := by decide

theorem isDigit_of_mem_zeros {n : ℕ} {c : Char} (h : c ∈ List.replicate n '0') :
    c.isDigit = true := by
  rw [List.eq_of_mem_replicate h]
  rfl

theorem isDigits_zeros_append (n : ℕ) {cs : List Char} (h : IsDigits cs) :
    IsDigits (List.replicate n '0' ++ cs) :=
  ⟨by simp [h.1], fun c hc => (List.mem_append.1 hc).elim isDigit_of_mem_zeros (h.2 c)⟩

theorem toList_zeros (n : ℕ) : (zeros n).toList = List.replicate n '0' := String.toList_ofList

/-- A zero behind the point changes nothing. -/
theorem ofDigitChars_append_zero (cs : List Char) :
    Nat.ofDigitChars 10 (cs ++ ['0']) 0 = 10 * Nat.ofDigitChars 10 cs 0 := by
  rw [Nat.ofDigitChars_append, Nat.ofDigitChars_cons, Nat.ofDigitChars_nil]
  rfl

/-- Zeros in front change nothing. -/
theorem ofDigitChars_zeros_append (n : ℕ) (cs : List Char) :
    Nat.ofDigitChars 10 (['0'] ++ (List.replicate n '0' ++ cs)) 0 = Nat.ofDigitChars 10 cs 0 := by
  rw [Nat.ofDigitChars_append, Nat.ofDigitChars_append, Nat.ofDigitChars_replicate_zero,
    Nat.ofDigitChars_cons, Nat.ofDigitChars_nil]
  rfl

namespace Decimal

theorem isDigits (d : Decimal) : IsDigits d.digits.toList := isDigits_digits d.coefficient

theorem ofDigitChars_digits (d : Decimal) :
    Nat.ofDigitChars 10 d.digits.toList 0 = d.coefficient :=
  Number.ofDigitChars_digits d.coefficient

theorem exists_positional (d : Decimal) : ∃ whole fraction, IsDigits whole ∧ IsDigits fraction ∧
    d.positional.toList = whole ++ '.' :: fraction ∧
      (⟨Nat.ofDigitChars 10 (whole ++ fraction) 0, -fraction.length⟩ : Decimal).value =
        d.value := by
  have hdigits := d.isDigits
  have hread := d.ofDigitChars_digits
  unfold positional
  dsimp only
  generalize hplaces : (-d.exponent).toNat = places
  split_ifs with hwhole hmiddle
  · refine ⟨d.digits.toList ++ List.replicate d.exponent.toNat '0', ['0'],
      hdigits.append fun _ => isDigit_of_mem_zeros, isDigits_zero, ?_, ?_⟩
    · rw [String.toList_append, String.toList_append, toList_zeros]
      rfl
    · obtain ⟨k, hk⟩ := Int.eq_ofNat_of_zero_le (show 0 ≤ d.exponent by omega)
      rw [ofDigitChars_append_zero, Nat.ofDigitChars_append, hread,
        Nat.ofDigitChars_replicate_zero, value, value, hk, Int.toNat_natCast, List.length_singleton,
        Nat.cast_one, zpow_neg_one, zpow_natCast]
      push_cast
      ring
  · have hlength : (d.digits.toList.drop (d.digits.toList.length - places)).length = places := by
      rw [List.length_drop]
      omega
    refine ⟨d.digits.toList.take (d.digits.toList.length - places),
      d.digits.toList.drop (d.digits.toList.length - places), hdigits.take (by omega),
      hdigits.drop (by omega), ?_, ?_⟩
    · simp only [String.toList_append, String.toList_ofList, List.append_assoc]
      rfl
    · rw [List.take_append_drop, hread, hlength, ← hplaces, Int.toNat_of_nonneg (by omega), neg_neg]
  · have hlength :
        (List.replicate (places - d.digits.toList.length) '0' ++ d.digits.toList).length =
          places := by
      rw [List.length_append, List.length_replicate]
      omega
    refine ⟨['0'], List.replicate (places - d.digits.toList.length) '0' ++ d.digits.toList,
      isDigits_zero, isDigits_zeros_append _ hdigits, ?_, ?_⟩
    · rw [String.toList_append, String.toList_append, toList_zeros, List.append_assoc]
      rfl
    · rw [ofDigitChars_zeros_append, hread, hlength, ← hplaces, Int.toNat_of_nonneg (by omega),
        neg_neg]

theorem exists_scientific {d : Decimal} (hd : d.coefficient ≠ 0) :
    ∃ first fraction, first.isDigit = true ∧ first ≠ '0' ∧ IsDigits fraction ∧
      d.scientific.toList = [first] ++ '.' :: fraction ++
        'E' :: (toString (d.exponent + d.digits.toList.length - 1 : ℤ)).toList ∧
      (⟨Nat.ofDigitChars 10 ([first] ++ fraction) 0,
        d.exponent + d.digits.toList.length - 1 - fraction.length⟩ : Decimal).value = d.value := by
  have hdigits := d.isDigits
  have hread := d.ofDigitChars_digits
  have hfirst : d.digits.toList.head? ≠ some '0' := head?_digits_ne_zero hd
  unfold scientific
  dsimp only
  generalize toString (d.exponent + d.digits.toList.length - 1 : ℤ) = power
  cases hcs : d.digits.toList with
  | nil => exact absurd hcs hdigits.1
  | cons first rest =>
    rw [hcs] at hdigits hread hfirst
    cases rest with
    | nil =>
      refine ⟨first, ['0'], hdigits.2 _ List.mem_cons_self, fun h => hfirst (congrArg some h),
        isDigits_zero, ?_, ?_⟩
      · simp [String.toList_append]
      · rw [ofDigitChars_append_zero, hread, value, value, List.length_singleton,
          List.length_singleton, Nat.cast_one, add_sub_cancel_right, zpow_sub_one₀ (by norm_num)]
        push_cast
        ring
    | cons second rest =>
      refine ⟨first, second :: rest, hdigits.2 _ List.mem_cons_self,
        fun h => hfirst (congrArg some h), hdigits.drop (n := 1) (by simp), ?_, ?_⟩
      · simp [String.toList_append]
      · have hexponent : d.exponent + ((first :: second :: rest).length : ℤ) - 1 -
            (second :: rest).length = d.exponent := by
          rw [List.length_cons]
          omega
        rw [List.singleton_append, hread, hexponent]

end Decimal

/-! ## 6. Texts with a sign -/

theorem toList_signed (negative : Bool) (text : String) :
    (FloatLayout.signed negative text).toList = minus negative ++ text.toList := by
  cases negative with
  | true => exact String.toList_append
  | false => rfl

theorem isPositional_signed (negative : Bool) (d : Decimal) :
    IsPositional (FloatLayout.signed negative d.positional) := by
  obtain ⟨whole, fraction, hwhole, hfraction, htext, _⟩ := d.exists_positional
  exact ⟨negative, whole, fraction, hwhole, hfraction, by rw [toList_signed, htext]⟩

theorem bitsOfText?_positional (f : BinaryFormat) (negative : Bool) (d : Decimal) :
    f.bitsOfText? (FloatLayout.signed negative d.positional) =
      some ((if negative then f.signBit else 0) + f.round d.value) := by
  obtain ⟨whole, fraction, hwhole, hfraction, htext, hvalue⟩ := d.exists_positional
  rw [← hvalue]
  refine bitsOfText?_of_chars ?_ (ofChars?_positional hwhole hfraction)
  rw [toList_signed, htext, hwhole.cutMinus_append]

theorem isScientific_signed (negative : Bool) {d : Decimal} (hd : d.coefficient ≠ 0) :
    IsScientific (FloatLayout.signed negative d.scientific) := by
  obtain ⟨first, fraction, hdigit, hfirst, hfraction, htext, _⟩ := Decimal.exists_scientific hd
  obtain ⟨negativePower, power, hpower, hspelled, _⟩ :=
    wholeNumber?_int (d.exponent + d.digits.toList.length - 1)
  refine ⟨negative, first, fraction, negativePower, power, hdigit, hfirst, hfraction, hpower, ?_⟩
  rw [toList_signed, htext, hspelled]

theorem bitsOfText?_scientific (f : BinaryFormat) (negative : Bool) {d : Decimal}
    (hd : d.coefficient ≠ 0) :
    f.bitsOfText? (FloatLayout.signed negative d.scientific) =
      some ((if negative then f.signBit else 0) + f.round d.value) := by
  obtain ⟨first, fraction, hdigit, _, hfraction, htext, hvalue⟩ := Decimal.exists_scientific hd
  obtain ⟨_, _, _, _, hpower⟩ := wholeNumber?_int (d.exponent + d.digits.toList.length - 1)
  have hwhole : IsDigits [first] := ⟨List.cons_ne_nil _ _, by simpa using hdigit⟩
  rw [← hvalue]
  refine bitsOfText?_of_chars ?_ (ofChars?_scientific hwhole hfraction hpower)
  rw [toList_signed, htext, List.append_assoc, hwhole.cutMinus_append]

example : single.bitsOfText? "-1.5E-5" = some 0xB77BA882 := by decide +kernel

end ClassView.Number
