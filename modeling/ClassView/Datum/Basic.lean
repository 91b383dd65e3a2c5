import ClassView.Number.Layout
import ClassView.Text.Column
import ClassView.Text.Quoted

/-!
# Data notation

A `Datum` is a value of plain data: a word or number, a text, a list, a tuple, a record of named
fields, or a value under a tag. It is written in one of two forms. The compact form has no blanks
and no comma behind a last part; the indented form puts every item of a list and every field of a
record on a line of its own, four spaces deeper than what it is part of, with a comma behind it.
Tuples stay on one line, and a list without items is written `[]`, in both forms.
-/

namespace ClassView

/-! ## 1. Data -/

/-- A value of plain data. -/
inductive Datum where
  /-- A number or a word, written as it is. -/
  | atom (word : String)
  /-- A text, written between quotes. -/
  | text (value : String)
  | list (items : List Datum)
  | tuple (items : List Datum)
  /-- Named fields in order; the tag is empty for a record without one. -/
  | record (tag : String) (fields : List (String × Datum))
  /-- One value under a tag. -/
  | tagged (tag : String) (value : Datum)
  deriving Repr

namespace Datum

/-- Texts in the data notation escape apostrophes as well. -/
def quoting : Text.Quoting := ⟨true⟩

/-- Numbers in the data notation are written positionally, whatever their size. -/
def floats : Number.FloatLayout where
  isPositional := fun _ => true
  notANumber := "NaN"
  infinity := "inf"

/-! ## 2. Common values -/

/-- A whole number. -/
def int (i : Int) : Datum := .atom (toString i)

/-- A number that counts. -/
def nat (n : Nat) : Datum := .atom (toString n)

/-- A truth value. -/
def bool (b : Bool) : Datum := .atom (if b then "true" else "false")

/-- A value that may be missing. -/
def option {α : Type} (f : α → Datum) : Option α → Datum
  | some a => .tagged "Some" (f a)
  | none => .atom "None"

/-- A floating-point number by its bits. -/
def float (format : Number.BinaryFormat) (bits : Nat) : Datum := .atom (floats.text format bits)

/-! ## 3. Parts are smaller than their whole -/

theorem sizeOf_item_lt {items : List Datum} {d : Datum} (h : d ∈ items) :
    sizeOf d < sizeOf items := List.sizeOf_lt_of_mem h

theorem sizeOf_field_lt {fields : List (String × Datum)} {f : String × Datum} (h : f ∈ fields) :
    sizeOf f.2 < sizeOf fields := by
  have hf := List.sizeOf_lt_of_mem h
  have hp : sizeOf f = 1 + sizeOf f.1 + sizeOf f.2 := by cases f; rfl
  omega

/-! ## 4. The compact form -/

/-- The compact form. -/
def compact : Datum → String
  | .atom word => word
  | .text value => quoting.quote value
  | .list items => "[" ++ ",".intercalate (items.map compact) ++ "]"
  | .tuple items => "(" ++ ",".intercalate (items.map compact) ++ ")"
  | .record tag fields =>
    tag ++ "(" ++ ",".intercalate (fields.map (fun f => f.1 ++ ":" ++ compact f.2)) ++ ")"
  | .tagged tag value => tag ++ "(" ++ compact value ++ ")"
termination_by d => sizeOf d
decreasing_by
  · have := sizeOf_item_lt ‹_›; simp only [list.sizeOf_spec]; omega
  · have := sizeOf_item_lt ‹_›; simp only [tuple.sizeOf_spec]; omega
  · have := sizeOf_field_lt ‹_›; simp only [record.sizeOf_spec]; omega
  · simp only [tagged.sizeOf_spec]; omega

/-! ## 5. The indented form -/

/-- Spaces in front of a line `level` deep. -/
def indent (level : Nat) : String := Text.spaces (4 * level)

/-- Parts between brackets, each on a line of its own. -/
def block (level : Nat) (opening : String) (parts : List String) (closing : String) : String :=
  opening ++ "\n" ++ String.join (parts.map (fun part => indent (level + 1) ++ part ++ ",\n")) ++
    indent level ++ closing

/-- The indented form of what starts on a line `level` deep. -/
def indented (level : Nat) : Datum → String
  | .atom word => word
  | .text value => quoting.quote value
  | .list items =>
    if items.isEmpty then "[]"
    else block level "[" (items.map (fun d => indented (level + 1) d)) "]"
  | .tuple items => "(" ++ ", ".intercalate (items.map (fun d => indented level d)) ++ ")"
  | .record tag fields =>
    block level (tag ++ "(") (fields.map (fun f => f.1 ++ ": " ++ indented (level + 1) f.2)) ")"
  | .tagged tag value => tag ++ "(" ++ indented level value ++ ")"
termination_by d => sizeOf d
decreasing_by
  · have := sizeOf_item_lt ‹_›; simp only [list.sizeOf_spec]; omega
  · have := sizeOf_item_lt ‹_›; simp only [tuple.sizeOf_spec]; omega
  · have := sizeOf_field_lt ‹_›; simp only [record.sizeOf_spec]; omega
  · simp only [tagged.sizeOf_spec]; omega

end Datum

end ClassView
