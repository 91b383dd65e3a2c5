import ClassView.Text.Quoted

/-!
# String literals

A listing shows the text of a constant the way it is written in a source file: quotes,
backslashes and the five control characters with a short escape get one, every other control
character is written with four hexadecimal digits, and all else stands for itself.
-/

namespace ClassView.Text

/-- A control character: the two blocks at the bottom of the code space and above its first half. -/
def isControl (c : Char) : Bool :=
  c.toNat < 0x20 || (0x7f ≤ c.toNat && c.toNat < 0xa0)

/-- One character inside a literal. -/
def literalCharacter (c : Char) : List Char :=
  match c with
  | '"' => ['\\', '"']
  | '\\' => ['\\', '\\']
  | '\n' => ['\\', 'n']
  | '\r' => ['\\', 'r']
  | '\t' => ['\\', 't']
  | '\x08' => ['\\', 'b']
  | '\x0c' => ['\\', 'f']
  | c => if isControl c then '\\' :: 'u' :: (hexPadded 4 c.toNat).toList else [c]

/-- A text as it stands inside a literal. -/
def escape (s : String) : String :=
  String.ofList (s.toList.flatMap literalCharacter)

/-- A text as a whole literal, quotes included. -/
def literal (s : String) : String := "\"" ++ escape s ++ "\""

end ClassView.Text
