/-!
# Modified UTF-8

The texts of a class file are stored in a variant of UTF-8 that has no zero byte and no sequence of
four bytes: U+0000 is written as `C0 80`, and a character above U+FFFF as two sequences of three
bytes, one for each half of its surrogate pair. A byte string that is valid in the standard form is
taken in the standard form; only if it is not is it read in the modified one (`text?`).

Reading a class file does not depend on how that is done: what it takes for a text is a parameter of
it, a `TextReader`, and `text?` is the one that a run of the program uses.
-/

namespace ClassView

/-- A way to take byte strings for texts, and to refuse those that are none. -/
abbrev TextReader := List UInt8 → Option String

end ClassView

namespace ClassView.Text

/-! ## 1. Shapes of bytes -/

/-- A byte that continues a sequence: `80` to `BF`. -/
def isContinuation (b : UInt8) : Bool := 0x80 ≤ b && b ≤ 0xbf

/-- The lowest six bits, the payload of a continuation byte. -/
def payload (b : UInt8) : Nat := b.toNat % 64

/-- The character of a two-byte sequence that starts with `C2` to `DF`. -/
def twoByteCharacter (a b : UInt8) : Char :=
  Char.ofNat (a.toNat % 32 * 64 + payload b)

/-- The code point or surrogate of a three-byte sequence. -/
def threeByteUnit (a b c : UInt8) : Nat :=
  (a.toNat % 16 * 64 + payload b) * 64 + payload c

/-- A three-byte sequence for a code point of its own: it is no shorter one's and no surrogate's. -/
def isThreeByte (a b c : UInt8) : Bool :=
  isContinuation b && isContinuation c &&
    ((a == 0xe0 && 0xa0 ≤ b) || (0xe1 ≤ a && a ≤ 0xec) ||
     (a == 0xed && b ≤ 0x9f) || (a == 0xee || a == 0xef))

/-- A three-byte sequence for the first half of a surrogate pair. -/
def isHighSurrogate (a b c : UInt8) : Bool :=
  a == 0xed && 0xa0 ≤ b && b ≤ 0xaf && isContinuation c

/-- A three-byte sequence for the second half of a surrogate pair. -/
def isLowSurrogate (a b c : UInt8) : Bool :=
  a == 0xed && 0xb0 ≤ b && b ≤ 0xbf && isContinuation c

/-- The character that two halves of a surrogate pair stand for. -/
def surrogatePair (high low : Nat) : Char :=
  Char.ofNat (0x10000 + (high - 0xd800) * 0x400 + (low - 0xdc00))

/-! ## 2. Reading -/

/-- Reads modified UTF-8 behind the characters already read, which are kept last first. -/
def readModified : List UInt8 → List Char → Option (List Char)
  | [], done => some done.reverse
  | a :: rest, done =>
    if a < 0x80 then
      if a = 0 then none else readModified rest (Char.ofNat a.toNat :: done)
    else match rest with
      | [] => none
      | b :: rest =>
        if a = 0xc0 then
          if b = 0x80 then readModified rest ('\x00' :: done) else none
        else if 0xc2 ≤ a ∧ a ≤ 0xdf then
          if isContinuation b then readModified rest (twoByteCharacter a b :: done) else none
        else match rest with
          | [] => none
          | c :: rest =>
            if isThreeByte a b c then
              readModified rest (Char.ofNat (threeByteUnit a b c) :: done)
            else if isHighSurrogate a b c then
              match rest with
              | d :: e :: f :: rest =>
                if isLowSurrogate d e f then
                  readModified rest
                    (surrogatePair (threeByteUnit a b c) (threeByteUnit d e f) :: done)
                else none
              | _ => none
            else none

/-- The text of a byte string in modified UTF-8, if it is that. -/
def modified? (bytes : List UInt8) : Option String :=
  (readModified bytes []).map String.ofList

/-- The text of a byte string: in the standard form if it is valid there, else in the modified. -/
def text? : TextReader := fun bytes =>
  match String.fromUTF8? bytes.toByteArray with
  | some s => some s
  | none => modified? bytes

end ClassView.Text
