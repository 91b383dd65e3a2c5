import ClassView.Pool.Tag
import ClassView.Attribute.Name

/-!
# What can be wrong with a class file

One inductive type holds every reason for which reading, resolving or listing a class file stops.
Each reason carries what is needed to find the fault: an offset from the start of the file, a pc
from the start of a code array, or the index of a pool slot. The texts are in
`ClassView.DecodeError.Message`.
-/

namespace ClassView

/-- Why a class file cannot be read, resolved or listed. -/
inductive DecodeError where
  /-- The input ends before the item that starts at `offset` is complete. -/
  | truncatedInput (offset : Nat)
  /-- The first four bytes are not those of a class file. -/
  | badMagic (found : UInt32)
  /-- No usable pool slot has this index. -/
  | indexOutOfRange (index : Nat)
  /-- The pool entry at this index holds something else than what the reference asks for. -/
  | tagMismatch (index : Nat) (expected actual : Tag)
  /-- The byte at `offset` should start a pool entry and is no tag. -/
  | unknownTag (tag : UInt8) (offset : Nat)
  /-- The byte at `pc` should start an instruction and is no opcode that can stand there. -/
  | unknownOpcode (opcode : UInt8) (pc : Nat)
  /-- The body of a recognised attribute breaks the rules of that attribute. -/
  | malformedAttribute (name : AttributeName)
  /-- The text entry at this index is not encoded as the format asks. -/
  | invalidText (index : Nat)
  /-- A text is used as a descriptor and is none. -/
  | invalidDescriptor (text : String)
  /-- The class ends at `offset`, and `count` more bytes follow. -/
  | trailingBytes (offset count : Nat)
  deriving DecidableEq, Repr

/-- The outcome of reading or resolving something: a value or the reason there is none. -/
abbrev Outcome (α : Type) : Type := Except DecodeError α

end ClassView
