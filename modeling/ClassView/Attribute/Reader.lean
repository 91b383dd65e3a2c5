import ClassView.Attribute.Basic
import ClassView.Pool.Resolve

/-!
# Reading attributes

An attribute is stored as a frame: the index of its name, the length of its body, and the body. The
whole frame is taken before anything in it is looked at, so an attribute that does not fit is a
truncated file whatever its name. The body of a recognised attribute is then read on its own and
must be used up exactly: bytes left over or missing make that attribute malformed, and no other.

Code carries attributes, so the readers nest. A nested list lies inside its parent's body, hence
`attributes` counts down a `room` that is at least the number of bytes ahead.
-/

namespace ClassView

namespace Attribute

/-! ## 1. Bodies -/

/-- Reads a row of an exception table. -/
def readHandler : Read ExceptionHandler := do
  return ⟨← Cursor.u16, ← Cursor.u16, ← Cursor.u16, ← Cursor.u16⟩

/-- Reads a row of a table of line numbers. -/
def readLineNumber : Read LineNumber := do
  return ⟨← Cursor.u16, ← Cursor.u16⟩

/-- Reads a row of a table of local variables. -/
def readLocalVariable : Read LocalVariable := do
  return ⟨← Cursor.u16, ← Cursor.u16, ← Cursor.u16, ← Cursor.u16, ← Cursor.u16⟩

/-- Reads a body of code; there is at least one byte of it and fewer than `65536`. -/
def readCode (nested : Read (List Attribute)) : Read Code := do
  let maxStack ← Cursor.u16
  let maxLocals ← Cursor.u16
  let length ← Cursor.u32
  if length = 0 ∨ 65536 ≤ length then throw (.malformedAttribute .code)
  let bytes ← Cursor.take length.toNat
  let handlers ← Cursor.table readHandler
  let attributes ← nested
  return ⟨maxStack, maxLocals, bytes, handlers, attributes⟩

/-- Reads the body of a recognised attribute. -/
def readBody (nested : Read (List Attribute)) : AttributeName → Read Attribute
  | .code => .code <$> readCode nested
  | .constantValue => .constantValue <$> Cursor.u16
  | .exceptions => .exceptions <$> Cursor.table Cursor.u16
  | .sourceFile => .sourceFile <$> Cursor.u16
  | .signature => .signature <$> Cursor.u16
  | .lineNumberTable => .lineNumberTable <$> Cursor.table readLineNumber
  | .localVariableTable => .localVariableTable <$> Cursor.table readLocalVariable
  | .deprecated => pure .deprecated
  | .synthetic => pure .synthetic

/-! ## 2. Frames -/

/-- The attribute that a whole body is. A body that is too short or too long is malformed; any
    other fault inside it stands as it is. -/
def ofBody (nested : Read (List Attribute)) (name : AttributeName) (body : Cursor) :
    Outcome Attribute :=
  match readBody nested name body with
  | .ok (read, behind) =>
    if behind.isEmpty then .ok read else .error (.malformedAttribute name)
  | .error (.truncatedInput _) => .error (.malformedAttribute name)
  | .error e => .error e

/-- Reads one attribute. -/
def read (pool : ConstantPool) (nested : Read (List Attribute)) : Read Attribute := do
  let nameIndex ← Cursor.u16
  let length ← Cursor.u32
  let start ← get
  let body ← Cursor.take length.toNat
  let text ← pool.text nameIndex
  match AttributeName.ofText? text with
  | some name => ofBody nested name (Cursor.ofBytes body start.offset)
  | none => return .unknown nameIndex body

/-! ## 3. Lists -/

/-- Reads a list of attributes; `room` is at least the number of bytes ahead, so where it is used
    up there is nothing to read. -/
def readList (pool : ConstantPool) : (room : Nat) → Read (List Attribute)
  | 0 => fun c => .error (.truncatedInput c.offset)
  | room + 1 => Cursor.table (read pool (readList pool room))

end Attribute

end ClassView
