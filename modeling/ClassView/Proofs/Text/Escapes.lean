import ClassView.Text.Literal

/-!
# Reading literals back

Inside a literal every character is spelled in one of three ways: as itself, by a backslash and one
letter, or by a backslash, the letter `u` and four hexadecimal digits. From the front each spelling
can be told from all others, so the text of a literal is read back from it, and no literal ends
before its closing quote, whatever the text holds.

* `shortEscape?`, `hexCharacter?`, `readEscaped`, `unescape?`: reading an escaped text;
* `Spelled`, `spelled_literalCharacter`: the three ways to spell a character;
* `IsEscaped`, `IsClosed`, `QuotesEscaped`: which characters of a text are behind a backslash that
  counts for them, told place by place;
* `readEscaped_spelled`, `Spelled.isClosed`, `Spelled.quotesEscaped`: one character, in front of any
  others;
* **`escape_reversible`**: an escaped text has no control character and no open quote, and is read
  back; a literal ends with its first open quote.
-/

namespace ClassView.Text

/-! ## 1. Reading -/

/-- The character that a backslash and one letter stand for. -/
def shortEscape? : Char → Option Char
  | '"' => some '"'
  | '\\' => some '\\'
  | 'n' => some '\n'
  | 'r' => some '\r'
  | 't' => some '\t'
  | 'b' => some '\x08'
  | 'f' => some '\x0c'
  | _ => none

/-- The value of a hexadecimal digit. -/
def hexDigit? (c : Char) : Option Nat :=
  if '0' ≤ c ∧ c ≤ '9' then some (c.toNat - '0'.toNat)
  else if 'a' ≤ c ∧ c ≤ 'f' then some (c.toNat - 'a'.toNat + 10)
  else if 'A' ≤ c ∧ c ≤ 'F' then some (c.toNat - 'A'.toNat + 10)
  else none

/-- The character whose code point has these four hexadecimal digits. -/
def hexCharacter? (a b c d : Char) : Option Char := do
  let n := (((← hexDigit? a) * 16 + (← hexDigit? b)) * 16 + (← hexDigit? c)) * 16 + (← hexDigit? d)
  if n.isValidChar then some (Char.ofNat n) else none

/-- Reads an escaped text: `u` behind a backslash takes exactly four digits, any other letter there
    stands for a character by itself. -/
def readEscaped : List Char → Option (List Char)
  | [] => some []
  | '\\' :: 'u' :: a :: b :: c :: d :: rest =>
    (hexCharacter? a b c d).bind fun e => (readEscaped rest).map (e :: ·)
  | '\\' :: letter :: rest => (shortEscape? letter).bind fun c => (readEscaped rest).map (c :: ·)
  | ['\\'] => none
  | c :: rest => (readEscaped rest).map (c :: ·)

/-- The text that an escaped text stands for. -/
def unescape? (s : String) : Option String := (readEscaped s.toList).map String.ofList

/-! ## 2. Spellings -/

/-- The character stands for itself inside a literal. -/
def isPlain (c : Char) : Bool := !isControl c && c != '"' && c != '\\'

/-- How a character can be spelled inside a literal. -/
inductive Spelled (c : Char) : List Char → Prop
  | plain (plain : isPlain c = true) : Spelled c [c]
  | short {letter : Char} (known : shortEscape? letter = some c) : Spelled c ['\\', letter]
  | hex {x y z w : Char} (known : hexCharacter? x y z w = some c)
      (plain : ∀ digit ∈ [x, y, z, w], isPlain digit = true) : Spelled c ['\\', 'u', x, y, z, w]

/-- The digits are four, stand for themselves and are read as the code point. -/
def isSpelledInHex (n : Nat) (digits : List Char) : Bool :=
  match digits with
  | [x, y, z, w] =>
    hexCharacter? x y z w == some (Char.ofNat n) && [x, y, z, w].all isPlain
  | _ => false

theorem toList_hexPadded (width n : Nat) : (hexPadded width n).toList =
    List.replicate (width - (Nat.toDigits 16 n).length) '0' ++ Nat.toDigits 16 n :=
  String.toList_ofList

theorem isSpelledInHex_of_lt : ∀ n < 0xa0, isSpelledInHex n
    (List.replicate (4 - (Nat.toDigits 16 n).length) '0' ++ Nat.toDigits 16 n) = true := by
  decide +kernel

theorem spelled_of_control {c : Char} (h : isControl c = true) :
    Spelled c ('\\' :: 'u' :: (hexPadded 4 c.toNat).toList) := by
  have hlt : c.toNat < 0xa0 := by
    simp only [isControl, Bool.or_eq_true, Bool.and_eq_true, decide_eq_true_eq] at h
    omega
  have hspelled := isSpelledInHex_of_lt c.toNat hlt
  rw [← toList_hexPadded] at hspelled
  unfold isSpelledInHex at hspelled
  split at hspelled
  · rename_i x y z w hdigits
    obtain ⟨hcode, hplain⟩ := Bool.and_eq_true_iff.1 hspelled
    rw [hdigits]
    refine .hex ?_ (List.all_eq_true.1 hplain)
    rw [eq_of_beq hcode, Char.ofNat_toNat]
  · exact nomatch hspelled

/-- **Inside a literal every character is spelled in one of the three ways.** -/
theorem spelled_literalCharacter (c : Char) : Spelled c (literalCharacter c) := by
  unfold literalCharacter
  split
  · exact .short rfl
  · exact .short rfl
  · exact .short rfl
  · exact .short rfl
  · exact .short rfl
  · exact .short rfl
  · exact .short rfl
  · rename_i hquote hbackslash _ _ _ _ _
    split
    · rename_i hcontrol
      exact spelled_of_control hcontrol
    · rename_i hcontrol
      refine .plain ?_
      simpa [isPlain, hcontrol] using ⟨hquote, hbackslash⟩

/-! ## 3. Reading back -/

variable {c : Char} {unit rest cs ds front back : List Char} {i : Nat}

theorem ne_of_isPlain (h : isPlain c = true) : isControl c = false ∧ c ≠ '"' ∧ c ≠ '\\' := by
  simpa [isPlain, and_assoc] using h

/-- **A spelled character is read back, whatever follows it.** -/
theorem readEscaped_spelled (h : Spelled c unit) (rest : List Char) :
    readEscaped (unit ++ rest) = (readEscaped rest).map (c :: ·) := by
  cases h with
  | plain hplain =>
    obtain ⟨_, _, hbackslash⟩ := ne_of_isPlain hplain
    simp [readEscaped, hbackslash]
  | short hknown =>
    have hletter : ∀ letter, shortEscape? letter = some c → letter ≠ 'u' := by
      rintro _ hknown rfl
      exact nomatch hknown
    simp [readEscaped, hletter _ hknown, hknown]
  | hex hknown => simp [readEscaped, hknown]

theorem readEscaped_flatMap (cs : List Char) :
    readEscaped (cs.flatMap literalCharacter) = some cs := by
  induction cs with
  | nil => rfl
  | cons c cs ih =>
    rw [List.flatMap_cons, readEscaped_spelled (spelled_literalCharacter c), ih]
    rfl

theorem toList_escape (s : String) : (escape s).toList = s.toList.flatMap literalCharacter :=
  String.toList_ofList

/-- **An escaped text is read back.** -/
theorem unescape?_escape (s : String) : unescape? (escape s) = some s := by
  unfold unescape?
  rw [toList_escape, readEscaped_flatMap, Option.map_some, String.ofList_toList]

theorem escape_injective : Function.Injective escape := by
  intro s t h
  have hread := unescape?_escape s
  rw [h, unescape?_escape] at hread
  exact (Option.some.inj hread).symm

theorem toList_literal (s : String) :
    (literal s).toList = '"' :: (s.toList.flatMap literalCharacter ++ ['"']) := by
  unfold literal
  rw [String.toList_append, String.toList_append, toList_escape]
  rfl

theorem literal_injective : Function.Injective literal := by
  intro s t h
  have hlists := congrArg String.toList h
  rw [toList_literal, toList_literal, ← toList_escape, ← toList_escape] at hlists
  have hinner := List.append_cancel_right (List.cons.inj hlists).2
  exact escape_injective (String.toList_inj.1 hinner)

/-! ## 4. Escaped places -/

/-- The character at a place is escaped: in front of it stands a backslash that is not escaped
    itself. -/
def IsEscaped (cs : List Char) : Nat → Prop
  | 0 => False
  | i + 1 => cs[i]? = some '\\' ∧ ¬ IsEscaped cs i

/-- Nothing in the text escapes the character behind it. -/
def IsClosed (cs : List Char) : Prop := ¬ IsEscaped cs cs.length

/-- Every quote in the text is escaped. -/
def QuotesEscaped (cs : List Char) : Prop := ∀ i, cs[i]? = some '"' → IsEscaped cs i

/-- The first quote behind the opening one that is not escaped stands at the place `close`. -/
structure EndsAt (cs : List Char) (close : Nat) : Prop where
  opening : cs[0]? = some '"'
  closing : cs[close]? = some '"'
  unescaped : ¬ IsEscaped cs close
  first : ∀ i, 0 < i → i < close → cs[i]? = some '"' → IsEscaped cs i

/-- What escapes a character stands in front of it. -/
theorem isEscaped_append_left (h : i ≤ front.length) :
    IsEscaped (front ++ back) i ↔ IsEscaped front i := by
  induction i with
  | zero => exact Iff.rfl
  | succ i ih =>
    rw [IsEscaped, IsEscaped, ih (Nat.le_of_succ_le h), List.getElem?_append_left h]

/-- What escapes a character behind a closed text stands behind that text. -/
theorem isEscaped_append_right (h : IsClosed front) (i : Nat) :
    IsEscaped (front ++ back) (front.length + i) ↔ IsEscaped back i := by
  induction i with
  | zero => exact (isEscaped_append_left (Nat.le_refl _)).trans (iff_false_intro h)
  | succ i ih =>
    rw [← Nat.add_assoc, IsEscaped, IsEscaped, ih,
      List.getElem?_append_right (Nat.le_add_right _ _), Nat.add_sub_cancel_left]

theorem IsClosed.append (hfront : IsClosed front) (hback : IsClosed back) :
    IsClosed (front ++ back) := by
  unfold IsClosed
  rw [List.length_append, isEscaped_append_right hfront]
  exact hback

theorem QuotesEscaped.append (hclosed : IsClosed front) (hfront : QuotesEscaped front)
    (hback : QuotesEscaped back) : QuotesEscaped (front ++ back) := by
  intro i hi
  by_cases hlt : i < front.length
  · rw [List.getElem?_append_left hlt] at hi
    exact (isEscaped_append_left (Nat.le_of_lt hlt)).2 (hfront i hi)
  · obtain ⟨k, rfl⟩ := Nat.exists_eq_add_of_le (Nat.le_of_not_lt hlt)
    rw [List.getElem?_append_right (Nat.le_add_right _ _), Nat.add_sub_cancel_left] at hi
    exact (isEscaped_append_right hclosed k).2 (hback k hi)

/-- No spelling escapes what follows it. -/
theorem Spelled.isClosed (h : Spelled c unit) : IsClosed unit := by
  cases h with
  | plain hplain =>
    obtain ⟨_, _, hbackslash⟩ := ne_of_isPlain hplain
    simp [IsClosed, IsEscaped, hbackslash]
  | short hknown => simp [IsClosed, IsEscaped]
  | @hex x y z w hknown hplain =>
    obtain ⟨_, _, hlast⟩ := ne_of_isPlain (hplain w (by simp))
    simp [IsClosed, IsEscaped, hlast]

/-- A quote is spelled behind a backslash only. -/
theorem Spelled.quotesEscaped (h : Spelled c unit) : QuotesEscaped unit := by
  intro i hi
  cases h with
  | plain hplain =>
    obtain ⟨_, hquote, _⟩ := ne_of_isPlain hplain
    obtain ⟨_, hc⟩ := List.getElem?_eq_some_iff.1 hi
    simp at hc
    exact absurd hc hquote
  | short hknown =>
    cases i with
    | zero => simp at hi
    | succ i =>
      cases i with
      | zero => simp [IsEscaped]
      | succ i => simp at hi
  | hex hknown hplain =>
    have hmem := List.mem_of_getElem? hi
    rcases List.mem_cons.1 hmem with hmem | hmem
    · exact absurd hmem (by decide)
    rcases List.mem_cons.1 hmem with hmem | hmem
    · exact absurd hmem (by decide)
    · obtain ⟨_, hquote, _⟩ := ne_of_isPlain (hplain _ hmem)
      exact absurd rfl hquote

/-- No spelling holds a control character. -/
theorem Spelled.isControl_eq_false (h : Spelled c unit) : ∀ x ∈ unit, isControl x = false := by
  cases h with
  | plain hplain => exact List.forall_mem_singleton.2 (ne_of_isPlain hplain).1
  | @short letter hknown =>
    have hletter : isControl letter = false := by
      unfold shortEscape? at hknown
      split at hknown
      case h_8 => exact nomatch hknown
      all_goals decide
    exact List.forall_mem_cons.2 ⟨by decide, List.forall_mem_singleton.2 hletter⟩
  | hex hknown hplain =>
    refine List.forall_mem_cons.2 ⟨by decide, List.forall_mem_cons.2 ⟨by decide, ?_⟩⟩
    exact fun digit hdigit => (ne_of_isPlain (hplain digit hdigit)).1

/-- **An escaped text is closed, and all its quotes are escaped.** -/
theorem escaped_flatMap (cs : List Char) :
    IsClosed (cs.flatMap literalCharacter) ∧ QuotesEscaped (cs.flatMap literalCharacter) := by
  induction cs with
  | nil => exact ⟨fun h => h, fun i hi => nomatch hi⟩
  | cons c cs ih =>
    obtain ⟨hclosed, hquotes⟩ := ih
    have hc := spelled_literalCharacter c
    rw [List.flatMap_cons]
    exact ⟨hc.isClosed.append hclosed, hc.quotesEscaped.append hc.isClosed hquotes⟩

theorem isControl_of_mem_escape {s : String} (h : c ∈ (escape s).toList) :
    isControl c = false := by
  rw [toList_escape] at h
  obtain ⟨d, _, hc⟩ := List.mem_flatMap.1 h
  exact (spelled_literalCharacter d).isControl_eq_false c hc

/-- **A literal ends with its first open quote**, whatever follows it. -/
theorem literal_endsAt (s rest : String) :
    EndsAt (literal s ++ rest).toList ((escape s).toList.length + 1) := by
  have hopening : IsClosed ['"'] := by simp [IsClosed, IsEscaped]
  obtain ⟨hclosed, hquotes⟩ := escaped_flatMap s.toList
  rw [← toList_escape] at hclosed hquotes
  have hparts : (literal s ++ rest).toList =
      ['"'] ++ ((escape s).toList ++ '"' :: rest.toList) := by
    rw [String.toList_append, toList_literal, toList_escape]
    simp
  -- the place of a character behind the opening quote is one more than inside
  have hshift : ∀ i, IsEscaped (['"'] ++ ((escape s).toList ++ '"' :: rest.toList)) (i + 1) ↔
      IsEscaped ((escape s).toList ++ '"' :: rest.toList) i := fun i => by
    rw [Nat.add_comm]
    exact isEscaped_append_right hopening i
  rw [hparts]
  refine ⟨rfl, ?_, ?_, fun i hpos hlt hi => ?_⟩
  · simp
  · rw [hshift, isEscaped_append_left (Nat.le_refl _)]
    exact hclosed
  · obtain ⟨k, rfl⟩ := Nat.exists_eq_add_of_le' hpos
    have hk : k < (escape s).toList.length := Nat.lt_of_succ_lt_succ hlt
    rw [List.singleton_append, List.getElem?_cons_succ, List.getElem?_append_left hk] at hi
    exact (hshift k).2 ((isEscaped_append_left (Nat.le_of_lt hk)).2 (hquotes k hi))

/-- **Escaping can be undone, and keeps a text on one line and inside its quotes.** An escaped text
    has no control character and no quote but behind a backslash that escapes it; it is read back,
    so no two texts are escaped alike, and none are quoted alike; and a literal in front of any text
    ends with its own last quote. -/
theorem escape_reversible (s : String) :
    (∀ c ∈ (escape s).toList, isControl c = false) ∧ QuotesEscaped (escape s).toList ∧
    unescape? (escape s) = some s ∧ (∀ t, escape t = escape s → t = s) ∧
    (∀ t, literal t = literal s → t = s) ∧
    ∀ rest, ∃ close, close + 1 = (literal s).toList.length ∧
      EndsAt (literal s ++ rest).toList close := by
  refine ⟨fun c => isControl_of_mem_escape, ?_, unescape?_escape s,
    fun t h => escape_injective h, fun t h => literal_injective h,
    fun rest => ⟨_, ?_, literal_endsAt s rest⟩⟩
  · rw [toList_escape]
    exact (escaped_flatMap s.toList).2
  · rw [toList_literal, toList_escape]
    simp

/-- A backslash in front of what looks like a code point, a quote, and a control character from
    above the first half of the code space. -/
theorem escape_reversible_codePoint :
    let s := "\\u0041\"\u0085"
    escape s = "\\\\u0041\\\"\\u0085" ∧ unescape? (escape s) = some s ∧
    isControl 'u' = false ∧ (∀ t, literal t = literal s → t = s) ∧
    EndsAt (literal s ++ "\\\"").toList 16 := by
  intro s
  have hescape : escape s = "\\\\u0041\\\"\\u0085" := by decide +kernel
  obtain ⟨hcontrol, _, hread, _, hliteral, hends⟩ := escape_reversible s
  obtain ⟨close, hclose, hends⟩ := hends "\\\""
  have hlength : (literal s).toList.length = 17 := by decide +kernel
  obtain rfl : close = 16 := Nat.succ.inj (hclose.trans hlength)
  refine ⟨hescape, hread, hcontrol 'u' ?_, hliteral, hends⟩
  rw [hescape]
  decide

end ClassView.Text
