import ClassView.Text.ModifiedUtf8

/-!
# Two encodings of a text

A text can be written in standard UTF-8 and in the modified form of the class file, and a byte
string is taken in the standard form where it is valid there. The two agree on the characters from
U+0001 to U+FFFF. On the others they do not, but then no byte string in the standard form even
starts as the modified form of the character does; so whichever of the two a text is written in, it
is the one that is read.

* `Text.modifiedBytes`, `Text.standardBytes`: a text in the modified and in the standard form;
* `Text.Sequence`, `Text.Sequences`: the rules of the modified form, which byte sequence is taken
  for which character;
* `Text.sequence_iff`: what they take is the modified form of the character, and no other;
* `Text.eq_of_standard_of_modified`: a byte string that is in both forms has one text;
* `TextReader.TakesBothForms`: a reader of texts that follows the rules of both forms;
* **`TextReader.TakesBothForms.eq_some_iff`**: to such a reader a byte string has a text exactly if
  it is one of the text's two forms;
* **`TextReader.TakesBothForms.form`**: which of the two it is;
* `Text.text?_takesBothForms`: `Text.text?` is such a reader.
-/

namespace ClassView.Text

/-! ## 1. Writing -/

/-- A byte that continues a sequence: `80` and the lowest six bits of the number. -/
def continuation (n : Nat) : UInt8 := UInt8.ofNat (0x80 + n % 64)

/-- The two bytes of a number of at most eleven bits. -/
def twoBytes (n : Nat) : List UInt8 := [UInt8.ofNat (0xc0 + n / 64), continuation n]

/-- The three bytes of a number of at most sixteen bits. -/
def threeBytes (n : Nat) : List UInt8 :=
  [UInt8.ofNat (0xe0 + n / 4096), continuation (n / 64), continuation n]

/-- The first half of the surrogate pair of a supplementary character. -/
def highSurrogate (n : Nat) : Nat := 0xd800 + (n - 0x10000) / 0x400

/-- The second half of it. -/
def lowSurrogate (n : Nat) : Nat := 0xdc00 + (n - 0x10000) % 0x400

/-- A character in modified UTF-8. -/
def modifiedCharacter (c : Char) : List UInt8 :=
  if 0 < c.toNat ∧ c.toNat < 0x80 then [UInt8.ofNat c.toNat]
  else if c.toNat < 0x800 then twoBytes c.toNat
  else if c.toNat < 0x10000 then threeBytes c.toNat
  else threeBytes (highSurrogate c.toNat) ++ threeBytes (lowSurrogate c.toNat)

/-- A text in modified UTF-8. -/
def modifiedBytes (s : String) : List UInt8 := s.toList.flatMap modifiedCharacter

/-- A text in standard UTF-8. -/
def standardBytes (s : String) : List UInt8 := s.toUTF8.data.toList

/-- The byte string is valid in standard UTF-8. -/
def IsStandard (bytes : List UInt8) : Prop := bytes.toByteArray.IsValidUTF8

/-! ## 2. Shapes of bytes as numbers -/

section Shapes

variable {a b c : UInt8} {n : Nat}

theorem isContinuation_iff : isContinuation b = true ↔ 0x80 ≤ b.toNat ∧ b.toNat ≤ 0xbf := by
  unfold isContinuation
  rw [Bool.and_eq_true, decide_eq_true_iff, decide_eq_true_iff, UInt8.le_iff_toNat_le,
    UInt8.le_iff_toNat_le]
  exact Iff.rfl

theorem toNat_continuation (n : Nat) : (continuation n).toNat = 0x80 + n % 64 :=
  UInt8.toNat_ofNat_of_lt' (by unfold UInt8.size; omega)

theorem isContinuation_continuation (n : Nat) : isContinuation (continuation n) = true := by
  rw [isContinuation_iff, toNat_continuation]
  omega

theorem payload_continuation (n : Nat) : payload (continuation n) = n % 64 := by
  rw [payload, toNat_continuation]
  omega

/-- A byte that continues a sequence is told by its lowest six bits. -/
theorem eq_continuation_iff :
    b = continuation n ↔ isContinuation b = true ∧ payload b = n % 64 := by
  constructor
  · rintro rfl
    exact ⟨isContinuation_continuation n, payload_continuation n⟩
  · rintro ⟨hb, hn⟩
    rw [isContinuation_iff] at hb
    rw [← UInt8.toNat_inj, toNat_continuation]
    unfold payload at hn
    omega

theorem eq_ofNat_iff (hn : n < 256) : a = UInt8.ofNat n ↔ a.toNat = n := by
  rw [← UInt8.toNat_inj, UInt8.toNat_ofNat_of_lt' hn]

/-- Three bytes are those of a number of sixteen bits exactly if they have the shape for it, and it
    is their unit. -/
theorem eq_threeBytes_iff (hn : n < 0x10000) : [a, b, c] = threeBytes n ↔
    (0xe0 ≤ a.toNat ∧ a.toNat ≤ 0xef) ∧ isContinuation b = true ∧ isContinuation c = true ∧
      threeByteUnit a b c = n := by
  have hpayload : ∀ x : UInt8, payload x < 64 := fun x => Nat.mod_lt _ (by decide)
  have hb := hpayload b
  have hc := hpayload c
  unfold threeBytes threeByteUnit
  rw [List.cons.injEq, List.cons.injEq, List.cons.injEq, eq_ofNat_iff (by omega),
    eq_continuation_iff, eq_continuation_iff]
  constructor
  · rintro ⟨ha, ⟨hcontb, hbn⟩, ⟨hcontc, hcn⟩, _⟩
    exact ⟨by omega, hcontb, hcontc, by omega⟩
  · rintro ⟨ha, hcontb, hcontc, hunit⟩
    exact ⟨by omega, ⟨hcontb, by omega⟩, ⟨hcontc, by omega⟩, rfl⟩

/-- The three bytes of a number have the shape for it, and it is their unit. -/
theorem threeBytes_eq (hn : n < 0x10000) : ∃ a b c, threeBytes n = [a, b, c] ∧
    (0xe0 ≤ a.toNat ∧ a.toNat ≤ 0xef) ∧ isContinuation b = true ∧ isContinuation c = true ∧
      threeByteUnit a b c = n :=
  ⟨_, _, _, rfl, (eq_threeBytes_iff hn).1 rfl⟩

theorem threeByteUnit_lt : threeByteUnit a b c < 0x10000 := by
  unfold threeByteUnit payload
  omega

/-- What is not a shorter sequence's and no surrogate. -/
theorem isThreeByte_iff : isThreeByte a b c = true ↔
    (0xe0 ≤ a.toNat ∧ a.toNat ≤ 0xef) ∧ isContinuation b = true ∧ isContinuation c = true ∧
      0x800 ≤ threeByteUnit a b c ∧ (threeByteUnit a b c).isValidChar := by
  unfold isThreeByte threeByteUnit payload Nat.isValidChar
  simp only [Bool.and_eq_true, Bool.or_eq_true, decide_eq_true_iff, beq_iff_eq,
    UInt8.le_iff_toNat_le, ← UInt8.toNat_inj, UInt8.reduceToNat, isContinuation_iff]
  omega

theorem isHighSurrogate_iff : isHighSurrogate a b c = true ↔
    (0xe0 ≤ a.toNat ∧ a.toNat ≤ 0xef) ∧ isContinuation b = true ∧ isContinuation c = true ∧
      0xd800 ≤ threeByteUnit a b c ∧ threeByteUnit a b c < 0xdc00 := by
  unfold isHighSurrogate threeByteUnit payload
  simp only [Bool.and_eq_true, decide_eq_true_iff, beq_iff_eq, UInt8.le_iff_toNat_le,
    ← UInt8.toNat_inj, UInt8.reduceToNat, isContinuation_iff]
  omega

theorem isLowSurrogate_iff : isLowSurrogate a b c = true ↔
    (0xe0 ≤ a.toNat ∧ a.toNat ≤ 0xef) ∧ isContinuation b = true ∧ isContinuation c = true ∧
      0xdc00 ≤ threeByteUnit a b c ∧ threeByteUnit a b c < 0xe000 := by
  unfold isLowSurrogate threeByteUnit payload
  simp only [Bool.and_eq_true, decide_eq_true_iff, beq_iff_eq, UInt8.le_iff_toNat_le,
    ← UInt8.toNat_inj, UInt8.reduceToNat, isContinuation_iff]
  omega

end Shapes

/-! ## 3. Sequences of one character -/

/-- The rules of the modified form: which byte sequences are taken for a character, and for which.
    U+0000 is `C0 80` and not a zero byte, a supplementary character is both halves of its surrogate
    pair, and neither a half alone nor a sequence of four bytes is taken for anything. -/
inductive Sequence : List UInt8 → Char → Prop
  | one {a : UInt8} (ha : a < 0x80) (hne : a ≠ 0) : Sequence [a] (Char.ofNat a.toNat)
  | zero : Sequence [0xc0, 0x80] '\x00'
  | two {a b : UInt8} (ha : 0xc2 ≤ a ∧ a ≤ 0xdf) (hb : isContinuation b = true) :
      Sequence [a, b] (twoByteCharacter a b)
  | three {a b c : UInt8} (h : isThreeByte a b c = true) :
      Sequence [a, b, c] (Char.ofNat (threeByteUnit a b c))
  | pair {a b c d e f : UInt8} (high : isHighSurrogate a b c = true)
      (low : isLowSurrogate d e f = true) :
      Sequence [a, b, c, d, e, f] (surrogatePair (threeByteUnit a b c) (threeByteUnit d e f))

/-- The rules for a whole byte string: it is cut into sequences, each of which is a character. -/
inductive Sequences : List UInt8 → List Char → Prop
  | nil : Sequences [] []
  | cons {front rest : List UInt8} {c : Char} {cs : List Char} (first : Sequence front c)
      (others : Sequences rest cs) : Sequences (front ++ rest) (c :: cs)

theorem toNat_lt (c : Char) : c.toNat < 0x110000 := by
  have hvalid : c.toNat.isValidChar := c.valid
  unfold Nat.isValidChar at hvalid
  omega

theorem toNat_ofNat {n : Nat} (h : n.isValidChar) : (Char.ofNat n).toNat = n := by
  rw [Char.ofNat, dif_pos h]
  rfl

/-- What is taken for a character is its modified form. -/
theorem Sequence.eq_modifiedCharacter {front : List UInt8} {c : Char} (h : Sequence front c) :
    front = modifiedCharacter c := by
  unfold modifiedCharacter
  cases h with
  | @one a ha hne =>
    have hlt : a.toNat < 0x80 := ha
    have hpos : 0 < a.toNat := by
      rw [Nat.pos_iff_ne_zero]
      exact fun h0 => hne (UInt8.toNat_inj.1 h0)
    rw [toNat_ofNat (.inl (by omega)), if_pos ⟨hpos, hlt⟩, UInt8.ofNat_toNat]
  | zero => rfl
  | @two a b ha hb =>
    have hlow : 0xc2 ≤ a.toNat := ha.1
    have hhigh : a.toNat ≤ 0xdf := ha.2
    have hpayload : payload b < 64 := Nat.mod_lt _ (by decide)
    have hn : (twoByteCharacter a b).toNat = a.toNat % 32 * 64 + payload b :=
      toNat_ofNat (.inl (by omega))
    rw [hn, if_neg (by omega), if_pos (by omega)]
    unfold twoBytes
    rw [List.cons.injEq, List.cons.injEq, eq_ofNat_iff (by omega), eq_continuation_iff]
    exact ⟨by omega, ⟨hb, by omega⟩, rfl⟩
  | @three a b c h =>
    obtain ⟨ha, hb, hc, hle, hvalid⟩ := isThreeByte_iff.1 h
    have hlt : threeByteUnit a b c < 0x10000 := threeByteUnit_lt
    rw [toNat_ofNat hvalid, if_neg (by omega), if_neg (by omega), if_pos hlt]
    exact (eq_threeBytes_iff hlt).2 ⟨ha, hb, hc, rfl⟩
  | @pair a b c d e f high low =>
    obtain ⟨ha, hb, hc, hhigh⟩ := isHighSurrogate_iff.1 high
    obtain ⟨hd, he, hf, hlow⟩ := isLowSurrogate_iff.1 low
    generalize hm : threeByteUnit a b c = m at hhigh
    generalize hn : threeByteUnit d e f = n at hlow
    have hpair : (surrogatePair m n).toNat = 0x10000 + (m - 0xd800) * 0x400 + (n - 0xdc00) :=
      toNat_ofNat (.inr (by omega))
    have hfront : [a, b, c] = threeBytes (highSurrogate (surrogatePair m n).toNat) := by
      rw [hpair, eq_threeBytes_iff (by unfold highSurrogate; omega), hm]
      exact ⟨ha, hb, hc, by unfold highSurrogate; omega⟩
    have hback : [d, e, f] = threeBytes (lowSurrogate (surrogatePair m n).toNat) := by
      rw [hpair, eq_threeBytes_iff (by unfold lowSurrogate; omega), hn]
      exact ⟨hd, he, hf, by unfold lowSurrogate; omega⟩
    rw [if_neg (by omega), if_neg (by omega), if_neg (by omega), ← hfront, ← hback]
    rfl

section Forms

variable {c : Char}

theorem sequence_one (h : 0 < c.toNat ∧ c.toNat < 0x80) : Sequence [UInt8.ofNat c.toNat] c := by
  have hbyte : (UInt8.ofNat c.toNat).toNat = c.toNat :=
    UInt8.toNat_ofNat_of_lt' (by unfold UInt8.size; omega)
  have hsequence := Sequence.one (a := UInt8.ofNat c.toNat)
    (by rw [UInt8.lt_iff_toNat_lt, hbyte]; exact h.2)
    (fun hzero => Nat.ne_of_gt h.1 (hbyte.symm.trans (congrArg UInt8.toNat hzero)))
  rwa [hbyte, Char.ofNat_toNat] at hsequence

theorem sequence_two (h : 0x80 ≤ c.toNat ∧ c.toNat < 0x800) : Sequence (twoBytes c.toNat) c := by
  have hbyte : (UInt8.ofNat (0xc0 + c.toNat / 64)).toNat = 0xc0 + c.toNat / 64 :=
    UInt8.toNat_ofNat_of_lt' (by unfold UInt8.size; omega)
  have hlow : 0xc2 ≤ 0xc0 + c.toNat / 64 := by omega
  have hhigh : 0xc0 + c.toNat / 64 ≤ 0xdf := by omega
  have hsequence := Sequence.two (a := UInt8.ofNat (0xc0 + c.toNat / 64))
    ⟨by rw [UInt8.le_iff_toNat_le, hbyte]; exact hlow,
      by rw [UInt8.le_iff_toNat_le, hbyte]; exact hhigh⟩
    (isContinuation_continuation c.toNat)
  have hunit : (0xc0 + c.toNat / 64) % 32 * 64 + c.toNat % 64 = c.toNat := by omega
  unfold twoByteCharacter at hsequence
  rwa [hbyte, payload_continuation, hunit, Char.ofNat_toNat] at hsequence

theorem sequence_three (h : 0x800 ≤ c.toNat ∧ c.toNat < 0x10000) :
    Sequence (threeBytes c.toNat) c := by
  obtain ⟨x, y, z, hbytes, hx, hy, hz, hunit⟩ := threeBytes_eq h.2
  have hvalid : (threeByteUnit x y z).isValidChar := hunit ▸ c.valid
  have hsequence := Sequence.three (isThreeByte_iff.2 ⟨hx, hy, hz, hunit ▸ h.1, hvalid⟩)
  rw [hbytes]
  rwa [hunit, Char.ofNat_toNat] at hsequence

theorem sequence_pair (h : 0x10000 ≤ c.toNat) :
    Sequence (threeBytes (highSurrogate c.toNat) ++ threeBytes (lowSurrogate c.toNat)) c := by
  have hlast := toNat_lt c
  have hhigh : 0xd800 ≤ highSurrogate c.toNat ∧ highSurrogate c.toNat < 0xdc00 := by
    unfold highSurrogate
    omega
  have hlow : 0xdc00 ≤ lowSurrogate c.toNat ∧ lowSurrogate c.toNat < 0xe000 := by
    unfold lowSurrogate
    omega
  have hpair : 0x10000 + (highSurrogate c.toNat - 0xd800) * 0x400 +
      (lowSurrogate c.toNat - 0xdc00) = c.toNat := by
    unfold highSurrogate lowSurrogate
    omega
  obtain ⟨u, v, w, hfront, hu, hv, hw, hm⟩ := threeBytes_eq (n := highSurrogate c.toNat) (by omega)
  obtain ⟨x, y, z, hback, hx, hy, hz, hn⟩ := threeBytes_eq (n := lowSurrogate c.toNat) (by omega)
  rw [← hm] at hhigh
  rw [← hn] at hlow
  have hsequence := Sequence.pair (isHighSurrogate_iff.2 ⟨hu, hv, hw, hhigh⟩)
    (isLowSurrogate_iff.2 ⟨hx, hy, hz, hlow⟩)
  rw [hfront, hback]
  rwa [hm, hn, surrogatePair, hpair, Char.ofNat_toNat] at hsequence

end Forms

/-- The byte sequences that are taken for a character are its modified form, and no other. -/
theorem sequence_iff {front : List UInt8} {c : Char} :
    Sequence front c ↔ front = modifiedCharacter c := by
  constructor
  · exact Sequence.eq_modifiedCharacter
  · rintro rfl
    unfold modifiedCharacter
    split
    case isTrue hone => exact sequence_one hone
    case isFalse hone =>
    split
    case isTrue htwo =>
      by_cases hzero : c.toNat = 0
      · obtain rfl : c = '\x00' := Char.toNat_inj.1 hzero
        exact .zero
      · exact sequence_two ⟨by omega, htwo⟩
    case isFalse htwo =>
    split
    case isTrue hthree => exact sequence_three ⟨Nat.le_of_not_lt htwo, hthree⟩
    case isFalse hthree => exact sequence_pair (Nat.le_of_not_lt hthree)

/-- What is taken for characters is their modified forms in a row, and no other. -/
theorem sequences_iff {bytes : List UInt8} {cs : List Char} :
    Sequences bytes cs ↔ bytes = cs.flatMap modifiedCharacter := by
  constructor
  · intro h
    induction h with
    | nil => rfl
    | cons first _ ih => rw [List.flatMap_cons, ← ih, sequence_iff.1 first]
  · rintro rfl
    induction cs with
    | nil => exact .nil
    | cons c cs ih => exact .cons (sequence_iff.2 rfl) ih

/-! ## 4. Reading by the rules -/

section Reading

variable {bytes front rest : List UInt8} {done out : List Char} {c : Char}

/-- A sequence is read as its character. -/
theorem readModified_sequence (h : Sequence front c) :
    readModified (front ++ rest) done = readModified rest (c :: done) := by
  have hwide : ∀ {a : UInt8}, 0xc0 ≤ a.toNat → ¬ a < 0x80 := fun ha hlt =>
    absurd (Nat.lt_of_le_of_lt ha hlt) (by decide)
  have hnotTwo : ∀ {a : UInt8}, 0xe0 ≤ a.toNat → a ≠ 0xc0 ∧ ¬ (0xc2 ≤ a ∧ a ≤ 0xdf) := by
    intro a ha
    refine ⟨?_, fun htwo => absurd (Nat.le_trans ha htwo.2) (by decide)⟩
    rintro rfl
    exact absurd ha (by decide)
  -- the reader asks for one shape after the other, so each case rules out those before its own
  rw [readModified.eq_def]
  cases h with
  | one ha hne => exact (if_pos ha).trans (if_neg hne)
  | zero => exact (if_neg (by decide)).trans ((if_pos rfl).trans (if_pos rfl))
  | @two a b ha hb =>
    have hlow : 0xc2 ≤ a.toNat := ha.1
    have hother : a ≠ 0xc0 := by
      rintro rfl
      exact absurd hlow (by decide)
    exact (if_neg (hwide (by omega))).trans
      ((if_neg hother).trans ((if_pos ha).trans (if_pos hb)))
  | @three a b d h =>
    obtain ⟨⟨ha, _⟩, _⟩ := isThreeByte_iff.1 h
    obtain ⟨hother, hrange⟩ := hnotTwo ha
    exact (if_neg (hwide (by omega))).trans
      ((if_neg hother).trans ((if_neg hrange).trans (if_pos h)))
  | @pair a b d e f g high low =>
    obtain ⟨⟨ha, _⟩, _, _, hunit⟩ := isHighSurrogate_iff.1 high
    obtain ⟨hother, hrange⟩ := hnotTwo ha
    have hthree : ¬ isThreeByte a b d = true := by
      rw [isThreeByte_iff]
      unfold Nat.isValidChar
      omega
    exact (if_neg (hwide (by omega))).trans ((if_neg hother).trans ((if_neg hrange).trans
      ((if_neg hthree).trans ((if_pos high).trans (if_pos low)))))

/-- What is read behind a sequence that is read. -/
theorem exists_of_sequence (h : Sequence front c)
    (hrest : readModified rest (c :: done) = some out →
      ∃ cs, out = (c :: done).reverse ++ cs ∧ Sequences rest cs)
    (hout : readModified rest (c :: done) = some out) :
    ∃ cs, out = done.reverse ++ cs ∧ Sequences (front ++ rest) cs := by
  obtain ⟨cs, rfl, hcs⟩ := hrest hout
  refine ⟨c :: cs, ?_, .cons h hcs⟩
  rw [List.reverse_cons, List.append_assoc, List.singleton_append]

/-- **The reader follows the rules**: it takes sequences in a row, and nothing else. -/
theorem readModified_eq_some_iff : readModified bytes done = some out ↔
    ∃ cs, out = done.reverse ++ cs ∧ Sequences bytes cs := by
  constructor
  · fun_induction readModified bytes done with
    | case1 done =>
      exact fun h => ⟨[], (Option.some.inj h).symm.trans (List.append_nil _).symm, .nil⟩
    | case3 a rest done ha hne ih => exact exists_of_sequence (.one ha hne) ih
    | case5 done rest _ ih => exact exists_of_sequence .zero ih
    | case7 a done _ b rest _ ha hb ih => exact exists_of_sequence (.two ha hb) ih
    | case10 a done _ b _ _ d rest h ih => exact exists_of_sequence (.three h) ih
    | case11 a done _ b _ _ d _ high e f g rest low ih =>
      exact exists_of_sequence (.pair high low) ih
    | _ => exact fun h => nomatch h -- in the other cases nothing is read
  · rintro ⟨cs, rfl, hcs⟩
    induction hcs generalizing done with
    | nil => rw [List.append_nil, readModified.eq_def]
    | cons first _ ih =>
      rw [readModified_sequence first, ih, List.reverse_cons, List.append_assoc,
        List.singleton_append]

theorem modified?_eq_some_iff {s : String} :
    modified? bytes = some s ↔ Sequences bytes s.toList := by
  unfold modified?
  rw [Option.map_eq_some_iff]
  constructor
  · rintro ⟨out, hout, rfl⟩
    obtain ⟨cs, rfl, hcs⟩ := readModified_eq_some_iff.1 hout
    rwa [String.toList_ofList]
  · intro h
    exact ⟨s.toList, readModified_eq_some_iff.2 ⟨s.toList, rfl, h⟩, String.ofList_toList⟩

end Reading

/-! ## 5. The standard form -/

section Standard

variable {bytes x y : List UInt8} {c d : Char} {s : String}

theorem standardBytes_eq (s : String) :
    standardBytes s = s.toList.flatMap String.utf8EncodeChar := by
  show s.toByteArray.data.toList = _
  rw [← String.utf8Encode_toList, List.utf8Encode, List.toList_data_toByteArray]

theorem eq_standardBytes_iff : bytes = standardBytes s ↔ bytes.toByteArray = s.toByteArray := by
  unfold standardBytes
  constructor
  · rintro rfl
    rw [ByteArray.ext_iff, List.data_toByteArray]
    rfl
  · intro h
    rw [← List.toList_data_toByteArray (l := bytes), h]
    rfl

theorem isStandard_iff : IsStandard bytes ↔ ∃ s, bytes = standardBytes s := by
  constructor
  · exact fun h => ⟨String.fromUTF8 _ h, eq_standardBytes_iff.2 rfl⟩
  · rintro ⟨s, hs⟩
    have hvalid := s.isValidUTF8
    rwa [← eq_standardBytes_iff.1 hs] at hvalid

theorem fromUTF8_eq_iff (h : IsStandard bytes) :
    String.fromUTF8 bytes.toByteArray h = s ↔ bytes = standardBytes s := by
  rw [eq_standardBytes_iff, ← String.toByteArray_inj]
  exact Iff.rfl

theorem fromUTF8?_of_isStandard (h : IsStandard bytes) :
    String.fromUTF8? bytes.toByteArray = some (String.fromUTF8 bytes.toByteArray h) := dif_pos h

theorem fromUTF8?_of_not_isStandard (h : ¬ IsStandard bytes) :
    String.fromUTF8? bytes.toByteArray = none := dif_neg h

theorem fromUTF8?_eq_some_iff :
    String.fromUTF8? bytes.toByteArray = some s ↔ bytes = standardBytes s := by
  by_cases h : IsStandard bytes
  · rw [fromUTF8?_of_isStandard h, Option.some.injEq, fromUTF8_eq_iff h]
  · rw [fromUTF8?_of_not_isStandard h]
    exact ⟨fun hs => (nomatch hs), fun hs => absurd (isStandard_iff.2 ⟨s, hs⟩) h⟩

/-- What a byte string in the standard form starts with is settled by its bytes. -/
theorem utf8EncodeChar_append_inj
    (h : String.utf8EncodeChar c ++ x = String.utf8EncodeChar d ++ y) : c = d ∧ x = y := by
  have hdecode : ∀ (c : Char) (x : List UInt8),
      (String.utf8EncodeChar c ++ x).toByteArray.utf8DecodeChar? 0 = some c := by
    intro c x
    rw [List.toByteArray_append]
    exact ByteArray.utf8DecodeChar?_utf8EncodeChar_append
  have hchar : c = d := by
    have hsome := hdecode c x
    rw [h, hdecode d y] at hsome
    exact (Option.some.inj hsome).symm
  subst hchar
  exact ⟨rfl, List.append_cancel_left h⟩

/-- In the standard form no character starts with `C0` or as the sequence of a surrogate does. -/
theorem utf8EncodeChar_starts {a b : UInt8} (h : String.utf8EncodeChar c ++ x = a :: b :: y) :
    a.toNat ≠ 0xc0 ∧ ¬ (a.toNat = 0xed ∧ 0xa0 ≤ b.toNat) := by
  have hvalid : c.val.toNat < 0xd800 ∨ 0xdfff < c.val.toNat ∧ c.val.toNat < 0x110000 := c.valid
  unfold String.utf8EncodeChar at h
  generalize c.val.toNat = n at h hvalid
  dsimp only at h
  split at h
  case isTrue hone =>
    have ha := (eq_ofNat_iff (by omega)).1 (List.cons.inj h).1.symm
    omega
  case isFalse hone =>
  split at h
  case isTrue htwo =>
    have ha := (eq_ofNat_iff (by omega)).1 (List.cons.inj h).1.symm
    omega
  case isFalse htwo =>
  split at h
  case isTrue hthree =>
    have ha := (eq_ofNat_iff (by omega)).1 (List.cons.inj h).1.symm
    have hb := (eq_ofNat_iff (by omega)).1 (List.cons.inj (List.cons.inj h).2).1.symm
    omega
  case isFalse hthree =>
    have ha := (eq_ofNat_iff (by omega)).1 (List.cons.inj h).1.symm
    omega

end Standard

/-! ## 6. Bytes in both forms -/

section Both

variable {bytes rest : List UInt8} {c : Char} {cs ds : List Char} {s t : String}

/-- From U+0001 to U+FFFF the two forms are the same. -/
theorem modifiedCharacter_eq_utf8EncodeChar (h : 0 < c.toNat ∧ c.toNat < 0x10000) :
    modifiedCharacter c = String.utf8EncodeChar c := by
  have hnumber : c.val.toNat = c.toNat := rfl
  unfold modifiedCharacter String.utf8EncodeChar twoBytes threeBytes continuation
  rw [hnumber]
  generalize c.toNat = n at h
  dsimp only
  by_cases hone : n < 0x80
  · rw [if_pos ⟨h.1, hone⟩, if_pos (by omega)]
  rw [if_neg (by omega), if_neg (by omega : ¬ n ≤ 127)]
  by_cases htwo : n < 0x800
  · have hlead : n / 64 % 32 + 192 = 0xc0 + n / 64 := by omega
    rw [if_pos htwo, if_pos (by omega), hlead, Nat.add_comm (n % 64)]
  · have hlead : n / 4096 % 16 + 224 = 0xe0 + n / 4096 := by omega
    rw [if_neg htwo, if_pos h.2, if_neg (by omega), if_pos (by omega), hlead,
      Nat.add_comm (n / 64 % 64), Nat.add_comm (n % 64)]

/-- Elsewhere the modified form starts as no character does in the standard form. -/
theorem modifiedCharacter_append_ne (h : ¬ (0 < c.toNat ∧ c.toNat < 0x10000)) :
    modifiedCharacter c ++ rest ≠ ds.flatMap String.utf8EncodeChar := by
  have hstart : ∃ a b y, modifiedCharacter c ++ rest = a :: b :: y ∧
      (a.toNat = 0xc0 ∨ a.toNat = 0xed ∧ 0xa0 ≤ b.toNat) := by
    by_cases hzero : c.toNat = 0
    · obtain rfl : c = '\x00' := Char.toNat_inj.1 hzero
      exact ⟨0xc0, 0x80, rest, rfl, .inl rfl⟩
    · have hlast := toNat_lt c
      have hlead : highSurrogate c.toNat / 4096 = 13 := by
        unfold highSurrogate
        omega
      have hnext : 32 ≤ highSurrogate c.toNat / 64 % 64 := by
        unfold highSurrogate
        omega
      unfold modifiedCharacter
      rw [if_neg (by omega), if_neg (by omega), if_neg (by omega), List.append_assoc]
      refine ⟨_, _, _, rfl, .inr ⟨?_, ?_⟩⟩
      · rw [hlead]
        rfl
      · rw [toNat_continuation]
        omega
  obtain ⟨a, b, y, hfront, hab⟩ := hstart
  intro heq
  rw [hfront] at heq
  cases ds with
  | nil => exact nomatch heq
  | cons d ds =>
    rw [List.flatMap_cons] at heq
    obtain ⟨hzero, hsurrogate⟩ := utf8EncodeChar_starts heq.symm
    exact hab.elim hzero hsurrogate

/-- The induction is on the characters in modified form: as long as they have the same bytes in both
    forms, these settle the next character, and the first other one rules the standard form out. -/
theorem eq_of_flatMap_eq
    (h : cs.flatMap modifiedCharacter = ds.flatMap String.utf8EncodeChar) : cs = ds := by
  induction cs generalizing ds with
  | nil =>
    cases ds with
    | nil => rfl
    | cons d ds =>
      have hempty := (List.append_eq_nil_iff.1 h.symm).1
      exact absurd hempty String.utf8EncodeChar_ne_nil
  | cons c cs ih =>
    rw [List.flatMap_cons] at h
    by_cases hboth : 0 < c.toNat ∧ c.toNat < 0x10000
    · rw [modifiedCharacter_eq_utf8EncodeChar hboth] at h
      cases ds with
      | nil => exact absurd (List.append_eq_nil_iff.1 h).1 String.utf8EncodeChar_ne_nil
      | cons d ds =>
        obtain ⟨rfl, hrest⟩ := utf8EncodeChar_append_inj h
        rw [ih hrest]
    · exact absurd h (modifiedCharacter_append_ne hboth)

/-- A byte string that is in both forms has one text. -/
theorem eq_of_standard_of_modified (hs : bytes = standardBytes s) (ht : bytes = modifiedBytes t) :
    s = t := by
  rw [hs, standardBytes_eq, modifiedBytes] at ht
  exact String.toList_inj.1 (eq_of_flatMap_eq ht.symm).symm

theorem length_utf8EncodeChar_le (c : Char) :
    (String.utf8EncodeChar c).length ≤ (modifiedCharacter c).length := by
  by_cases hboth : 0 < c.toNat ∧ c.toNat < 0x10000
  · exact Nat.le_of_eq (congrArg List.length (modifiedCharacter_eq_utf8EncodeChar hboth).symm)
  by_cases hzero : c.toNat = 0
  · obtain rfl : c = '\x00' := Char.toNat_inj.1 hzero
    decide
  · unfold modifiedCharacter
    rw [if_neg (by omega), if_neg (by omega), if_neg (by omega), String.length_utf8EncodeChar]
    exact Nat.le_trans c.utf8Size_le_four (by decide : 4 ≤ 6)

/-- The standard form is not the longer one. -/
theorem length_standardBytes_le (s : String) :
    (standardBytes s).length ≤ (modifiedBytes s).length := by
  rw [standardBytes_eq, modifiedBytes]
  induction s.toList with
  | nil => exact Nat.le_refl 0
  | cons c cs ih =>
    rw [List.flatMap_cons, List.flatMap_cons, List.length_append, List.length_append]
    exact Nat.add_le_add (length_utf8EncodeChar_le c) ih

end Both

end ClassView.Text

/-! ## 7. Readers of both forms -/

namespace ClassView

open Text

/-- A reader of texts that follows the rules of both forms. -/
structure TextReader.TakesBothForms (texts : TextReader) : Prop where
  /-- Bytes that are valid in the standard form are taken in it. -/
  standard : ∀ (bytes : List UInt8) (h : IsStandard bytes),
    texts bytes = some (String.fromUTF8 bytes.toByteArray h)
  /-- Any others are taken by the rules of the modified form, or not at all. -/
  modified : ∀ bytes : List UInt8, ¬ IsStandard bytes → ∀ s : String,
    texts bytes = some s ↔ Sequences bytes s.toList

namespace TextReader.TakesBothForms

variable {texts : TextReader} {bytes : List UInt8} {s : String}

/-- **A byte string has a text exactly if it is one of the two forms of the text.** -/
theorem eq_some_iff (h : texts.TakesBothForms) :
    texts bytes = some s ↔ bytes = standardBytes s ∨ bytes = modifiedBytes s := by
  by_cases hvalid : IsStandard bytes
  · rw [h.standard bytes hvalid, Option.some.injEq, fromUTF8_eq_iff hvalid]
    refine ⟨.inl, fun hforms => hforms.elim id fun hs => ?_⟩
    obtain ⟨t, ht⟩ := isStandard_iff.1 hvalid
    rwa [← eq_of_standard_of_modified ht hs]
  · have hnot : bytes ≠ standardBytes s := fun hs => hvalid (isStandard_iff.2 ⟨s, hs⟩)
    rw [h.modified bytes hvalid, sequences_iff]
    exact (or_iff_right hnot).symm

/-- **The text is written again as it was read**: in the standard form where the bytes are valid
    there, and else in the modified one. -/
theorem form (h : texts.TakesBothForms) (hs : texts bytes = some s) :
    (IsStandard bytes ∧ bytes = standardBytes s) ∨
      (¬ IsStandard bytes ∧ bytes = modifiedBytes s) := by
  by_cases hvalid : IsStandard bytes
  · rw [h.standard bytes hvalid, Option.some.injEq, fromUTF8_eq_iff hvalid] at hs
    exact .inl ⟨hvalid, hs⟩
  · have hnot : bytes ≠ standardBytes s := fun hs => hvalid (isStandard_iff.2 ⟨s, hs⟩)
    exact .inr ⟨hvalid, (h.eq_some_iff.1 hs).resolve_left hnot⟩

end TextReader.TakesBothForms

/-- The reader of a run of the program follows the rules. -/
theorem Text.text?_takesBothForms : TextReader.TakesBothForms text? where
  standard bytes h := by rw [text?, fromUTF8?_of_isStandard h]
  modified bytes h s := by
    rw [text?, fromUTF8?_of_not_isStandard h]
    exact modified?_eq_some_iff

end ClassView
