/-!
# Columns

A text in a column of a given width is filled up with spaces to that width, on the right
(`padRight`) or on the left (`padLeft`). The width counts characters; a text that is wider than its
column is written whole.
-/

namespace ClassView.Text

/-- `n` spaces. -/
def spaces (n : Nat) : String := String.ofList (List.replicate n ' ')

/-- The text at the left end of a column. -/
def padRight (width : Nat) (s : String) : String := s ++ spaces (width - s.length)

/-- The text at the right end of a column. -/
def padLeft (width : Nat) (s : String) : String := spaces (width - s.length) ++ s

theorem length_spaces (n : Nat) : (spaces n).length = n := by
  simp [spaces]

/-- A padded text has the width of its column, or its own if that is larger. -/
theorem length_padRight (width : Nat) (s : String) :
    (padRight width s).length = max width s.length := by
  simp only [padRight, String.length_append, length_spaces]
  omega

theorem length_padLeft (width : Nat) (s : String) :
    (padLeft width s).length = max width s.length := by
  simp only [padLeft, String.length_append, length_spaces]
  omega

end ClassView.Text
