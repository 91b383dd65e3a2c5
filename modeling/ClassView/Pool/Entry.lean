import ClassView.Bytes.Cursor
import ClassView.Text.ModifiedUtf8

/-!
# Entries of the constant pool

An entry is a text, a number, or a group of indices of other entries. Its bytes are its tag and
then its fields in order; `Entry.read` reads them, and `Entry.tag` is the tag it was stored under.
Floating-point numbers stay bits: nothing here computes with them.
-/

namespace ClassView

/-! ## 1. Members -/

/-- What a member reference refers to. -/
inductive MemberKind where
  | field | method | interfaceMethod
  deriving DecidableEq, Repr

namespace MemberKind

/-- The tag of a reference to such a member. -/
def tag : MemberKind → Tag
  | .field => .fieldRef
  | .method => .methodRef
  | .interfaceMethod => .interfaceMethodRef

/-- The word a listing puts before such a member. -/
def label : MemberKind → String
  | .field => "Field"
  | .method => "Method"
  | .interfaceMethod => "InterfaceMethod"

end MemberKind

/-! ## 2. Entries -/

/-- One entry of the constant pool. Fields of type `UInt16` that are not values are indices of
    other entries, bootstrap methods apart, which are numbered by themselves. -/
inductive Entry where
  | utf8 (text : String)
  | integer (value : Int32)
  | float (bits : UInt32)
  | long (value : Int64)
  | double (bits : UInt64)
  | classRef (name : UInt16)
  | string (text : UInt16)
  | member (kind : MemberKind) (owner nameAndType : UInt16)
  | nameAndType (name descriptor : UInt16)
  | methodHandle (kind : UInt8) (member : UInt16)
  | methodType (descriptor : UInt16)
  | dynamic (bootstrap nameAndType : UInt16)
  | invokeDynamic (bootstrap nameAndType : UInt16)
  | moduleRef (name : UInt16)
  | packageRef (name : UInt16)
  deriving DecidableEq, Repr

namespace Entry

/-- The tag of an entry. -/
def tag : Entry → Tag
  | .utf8 _ => .utf8
  | .integer _ => .integer
  | .float _ => .float
  | .long _ => .long
  | .double _ => .double
  | .classRef _ => .classRef
  | .string _ => .string
  | .member kind _ _ => kind.tag
  | .nameAndType _ _ => .nameAndType
  | .methodHandle _ _ => .methodHandle
  | .methodType _ => .methodType
  | .dynamic _ _ => .dynamic
  | .invokeDynamic _ _ => .invokeDynamic
  | .moduleRef _ => .moduleRef
  | .packageRef _ => .packageRef

/-- The entry takes two slots: the numbers of eight bytes do. -/
def isWide : Entry → Bool
  | .long _ | .double _ => true
  | _ => false

/-! ## 3. Reading -/

/-- Reads a text: its length in bytes and the bytes, which `texts` takes for a text. -/
def readText (texts : TextReader) (index : Nat) : Read Entry := do
  let length ← Cursor.u16
  let bytes ← Cursor.take length.toNat
  match texts bytes with
  | some text => return .utf8 text
  | none => throw (.invalidText index)

/-- Reads what follows a tag. -/
def readFields (texts : TextReader) (index : Nat) : Tag → Read Entry
  | .utf8 => readText texts index
  | .integer => .integer <$> Cursor.i32
  | .float => .float <$> Cursor.u32
  | .long => .long <$> Cursor.i64
  | .double => .double <$> Cursor.u64
  | .classRef => .classRef <$> Cursor.u16
  | .string => .string <$> Cursor.u16
  | .fieldRef => do return .member .field (← Cursor.u16) (← Cursor.u16)
  | .methodRef => do return .member .method (← Cursor.u16) (← Cursor.u16)
  | .interfaceMethodRef => do return .member .interfaceMethod (← Cursor.u16) (← Cursor.u16)
  | .nameAndType => do return .nameAndType (← Cursor.u16) (← Cursor.u16)
  | .methodHandle => do return .methodHandle (← Cursor.u8) (← Cursor.u16)
  | .methodType => .methodType <$> Cursor.u16
  | .dynamic => do return .dynamic (← Cursor.u16) (← Cursor.u16)
  | .invokeDynamic => do return .invokeDynamic (← Cursor.u16) (← Cursor.u16)
  | .moduleRef => .moduleRef <$> Cursor.u16
  | .packageRef => .packageRef <$> Cursor.u16

/-- Reads the entry that is to fill the slot `index`. -/
def read (texts : TextReader) (index : Nat) : Read Entry := do
  let start ← get
  let byte ← Cursor.u8
  match Tag.ofByte? byte with
  | some tag => readFields texts index tag
  | none => throw (.unknownTag byte start.offset)

end Entry

end ClassView
