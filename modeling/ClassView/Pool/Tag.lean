/-!
# Tags of the constant pool

Every entry of a class file's constant pool starts with one byte, its tag, which says what the
entry holds. This file fixes the seventeen tags with the byte each is stored under (`byte`), the
name a listing shows for it (`name`), and reading a byte back (`ofByte?`). `ofByte?_byte` and
`byte_of_ofByte?` make the two directions inverse to each other.
-/

namespace ClassView

/-- What a constant pool entry holds. -/
inductive Tag where
  | utf8 | integer | float | long | double | classRef | string
  | fieldRef | methodRef | interfaceMethodRef | nameAndType
  | methodHandle | methodType | dynamic | invokeDynamic | moduleRef | packageRef
  deriving DecidableEq, Repr

namespace Tag

/-! ## 1. The byte of a tag -/

/-- The byte the tag is stored as. -/
def byte : Tag → UInt8
  | .utf8 => 1
  | .integer => 3
  | .float => 4
  | .long => 5
  | .double => 6
  | .classRef => 7
  | .string => 8
  | .fieldRef => 9
  | .methodRef => 10
  | .interfaceMethodRef => 11
  | .nameAndType => 12
  | .methodHandle => 15
  | .methodType => 16
  | .dynamic => 17
  | .invokeDynamic => 18
  | .moduleRef => 19
  | .packageRef => 20

/-- The tag a byte stands for, if any: 2, 13, 14 and everything above 20 stand for none. -/
def ofByte? (byte : UInt8) : Option Tag :=
  match byte with
  | 1 => some .utf8
  | 3 => some .integer
  | 4 => some .float
  | 5 => some .long
  | 6 => some .double
  | 7 => some .classRef
  | 8 => some .string
  | 9 => some .fieldRef
  | 10 => some .methodRef
  | 11 => some .interfaceMethodRef
  | 12 => some .nameAndType
  | 15 => some .methodHandle
  | 16 => some .methodType
  | 17 => some .dynamic
  | 18 => some .invokeDynamic
  | 19 => some .moduleRef
  | 20 => some .packageRef
  | _ => none

@[simp] theorem ofByte?_byte (t : Tag) : ofByte? t.byte = some t := by
  cases t <;> rfl

/-- **A byte that is read as a tag is that tag's byte.** -/
theorem byte_of_ofByte? {b : UInt8} {t : Tag} (h : ofByte? b = some t) : t.byte = b := by
  unfold ofByte? at h
  split at h <;> cases h <;> rfl

/-! ## 2. The name of a tag -/

/-- The name a listing and an error text show for the tag. -/
def name : Tag → String
  | .utf8 => "Utf8"
  | .integer => "Integer"
  | .float => "Float"
  | .long => "Long"
  | .double => "Double"
  | .classRef => "Class"
  | .string => "String"
  | .fieldRef => "Fieldref"
  | .methodRef => "Methodref"
  | .interfaceMethodRef => "InterfaceMethodref"
  | .nameAndType => "NameAndType"
  | .methodHandle => "MethodHandle"
  | .methodType => "MethodType"
  | .dynamic => "Dynamic"
  | .invokeDynamic => "InvokeDynamic"
  | .moduleRef => "Module"
  | .packageRef => "Package"

end Tag

end ClassView
