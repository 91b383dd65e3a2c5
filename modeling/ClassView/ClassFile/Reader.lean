import ClassView.Attribute.Reader
import ClassView.ClassFile.Basic

/-!
# Reading class files

A class file is read in one pass from front to back. `ClassFile.parse` reads a whole byte string:
the string must be used up, and what comes first decides which fault is reported. What is a text is
decided by `texts`, which is the two forms of UTF-8 unless another way is named.
-/

namespace ClassView

namespace Member

/-- Reads a field or method. -/
def read (kind : AccessKind) (attributes : Read (List Attribute)) : Read (Member kind) := do
  let access ← Cursor.u16
  let name ← Cursor.u16
  let descriptor ← Cursor.u16
  return ⟨Access.ofBits kind access, name, descriptor, ← attributes⟩

end Member

namespace ClassFile

/-- Reads the four bytes every class file starts with. -/
def readMagic : Read UInt32 := do
  let magic ← Cursor.u32
  if magic ≠ classMagic then throw (.badMagic magic)
  return magic

/-- Reads a class file off the front of the bytes ahead; `room` is at least their number. -/
def read (texts : TextReader) (room : Nat) : Read ClassFile := do
  let magic ← readMagic
  let minorVersion ← Cursor.u16
  let majorVersion ← Cursor.u16
  let pool ← ConstantPool.read texts
  let attributeList := Attribute.readList pool room
  let access ← Cursor.u16
  let thisClass ← Cursor.u16
  let superClass ← Cursor.u16
  let interfaces ← Cursor.table Cursor.u16
  let fields ← Cursor.table (Member.read .ofField attributeList)
  let methods ← Cursor.table (Member.read .ofMethod attributeList)
  let attributes ← attributeList
  return {
    magic, minorVersion, majorVersion, pool, access := Access.ofBits .ofClass access, thisClass,
    superClass, interfaces, fields, methods, attributes }

/-- The class file that a whole byte string is. -/
def parse (bytes : List UInt8) (texts : TextReader := Text.text?) : Outcome ClassFile :=
  match read texts bytes.length (Cursor.ofBytes bytes 0) with
  | .ok (c, behind) =>
    if behind.isEmpty then .ok c
    else .error (.trailingBytes behind.offset behind.remaining)
  | .error e => .error e

end ClassFile

end ClassView
