import ClassView.Text.Printable

/-!
# Quoted texts

A text in an error message and a text in the data notation are written between double quotes, with
everything that would not be seen written as an escape. One function does both; the two places
differ in one decision only, whether an apostrophe is escaped, and that is a field of `Quoting`.
-/

namespace ClassView.Text

/-! ## 1. Digits -/

/-- The digits of a number in base sixteen, lower case, without leading zeros. -/
def hexDigits (n : Nat) : String := String.ofList (Nat.toDigits 16 n)

/-- The digits of a number in base sixteen, filled up with zeros to a width. -/
def hexPadded (width n : Nat) : String :=
  let digits := Nat.toDigits 16 n
  String.ofList (List.replicate (width - digits.length) '0' ++ digits)

/-! ## 2. Quoting -/

/-- What a quoted text is free to decide. -/
structure Quoting where
  /-- An apostrophe is written with a backslash. -/
  escapesApostrophe : Bool
  deriving DecidableEq, Repr

/-- One character inside the quotes. -/
def Quoting.character (q : Quoting) (c : Char) : String :=
  match c with
  | '\x00' => "\\0"
  | '\t' => "\\t"
  | '\r' => "\\r"
  | '\n' => "\\n"
  | '"' => "\\\""
  | '\\' => "\\\\"
  | '\'' => if q.escapesApostrophe then "\\'" else "'"
  | c => if isPrintable c then c.toString else "\\u\x7b" ++ hexDigits c.toNat ++ "\x7d"

/-- A text between quotes. -/
def Quoting.quote (q : Quoting) (s : String) : String :=
  "\"" ++ String.join (s.toList.map q.character) ++ "\""

end ClassView.Text
