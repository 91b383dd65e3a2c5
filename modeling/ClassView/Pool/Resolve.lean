import ClassView.Pool.Basic

/-!
# Resolving references

An index of the pool means something only together with the tag its entry must have. Each function
here follows an index to the text, number or group of texts it stands for, checks the tag at every
step, and fails at the first step that does not fit: with the index if no entry is there, with both
tags if another entry is. Of two references in one entry the first is followed first, so the owner
of a member comes before its name and a name before its descriptor.
-/

namespace ClassView

/-! ## 1. What references stand for -/

/-- A name with the descriptor that belongs to it. -/
structure NameAndType where
  name : String
  descriptor : String
  deriving DecidableEq, Repr

/-- A member with the class it belongs to; the class is named in display form. -/
structure MemberRef where
  kind : MemberKind
  owner : String
  name : String
  descriptor : String
  deriving DecidableEq, Repr

/-- A member together with the way it is to be used. -/
structure MethodHandle where
  kind : UInt8
  member : MemberRef
  deriving DecidableEq, Repr

/-- The word for the way a handle uses its member. -/
def MethodHandle.kindName (h : MethodHandle) : String :=
  match h.kind with
  | 1 => "REF_getField"
  | 2 => "REF_getStatic"
  | 3 => "REF_putField"
  | 4 => "REF_putStatic"
  | 5 => "REF_invokeVirtual"
  | 6 => "REF_invokeStatic"
  | 7 => "REF_invokeSpecial"
  | 8 => "REF_newInvokeSpecial"
  | 9 => "REF_invokeInterface"
  | _ => "REF_unknown"

/-- A name and type that a bootstrap method gives a meaning to. -/
structure DynamicRef where
  bootstrap : UInt16
  nameAndType : NameAndType
  deriving DecidableEq, Repr

/-- A constant that an instruction can load. -/
inductive LoadableConstant where
  | integer (value : Int32)
  | long (value : Int64)
  | float (bits : UInt32)
  | double (bits : UInt64)
  /-- A class, named in display form. -/
  | classRef (name : String)
  | string (text : String)
  | methodType (descriptor : String)
  | methodHandle (handle : MethodHandle)
  | dynamic (ref : DynamicRef)
  deriving DecidableEq, Repr

/-- The display form of a class name: dots where the internal form has slashes. -/
def displayName (internal : String) : String :=
  internal.map (fun c => if c = '/' then '.' else c)

namespace ConstantPool

variable (pool : ConstantPool)

/-! ## 2. One step -/

/-- The part `pick` of the entry at an index, which must be one that has it. -/
def typed {α : Type} (index : UInt16) (expected : Tag) (pick : Entry → Option α) : Outcome α := do
  let entry ← pool.get index
  match pick entry with
  | some part => return part
  | none => throw (.tagMismatch index.toNat expected entry.tag)

/-! ## 3. Texts and names -/

/-- The text at an index. -/
def text (index : UInt16) : Outcome String :=
  pool.typed index .utf8 fun
    | .utf8 text => some text
    | _ => none

theorem text_eq_ok_iff {pool : ConstantPool} {index : UInt16} {text : String} :
    pool.text index = .ok text ↔ pool.entry? index = some (.utf8 text) := by
  unfold ConstantPool.text typed get
  cases pool.entry? index with
  | none => exact ⟨fun h => (nomatch h), fun h => (nomatch h)⟩
  | some e =>
    cases e with
    | utf8 stored =>
      show (Except.ok stored : Outcome String) = .ok text ↔ _
      simp
    | _ => exact ⟨fun h => (nomatch h), fun h => (nomatch h)⟩

/-- The internal name of the class at an index. -/
def className (index : UInt16) : Outcome String := do
  let name ← pool.typed index .classRef fun
    | .classRef name => some name
    | _ => none
  pool.text name

/-- The display name of the class at an index. -/
def classDisplayName (index : UInt16) : Outcome String :=
  displayName <$> pool.className index

/-- The name and descriptor at an index. -/
def nameAndType (index : UInt16) : Outcome NameAndType := do
  let (name, descriptor) ← pool.typed index .nameAndType fun
    | .nameAndType name descriptor => some (name, descriptor)
    | _ => none
  return ⟨← pool.text name, ← pool.text descriptor⟩

/-- The text of the string constant at an index. -/
def string (index : UInt16) : Outcome String := do
  let text ← pool.typed index .string fun
    | .string text => some text
    | _ => none
  pool.text text

/-- The descriptor of the method type at an index. -/
def methodType (index : UInt16) : Outcome String := do
  let descriptor ← pool.typed index .methodType fun
    | .methodType descriptor => some descriptor
    | _ => none
  pool.text descriptor

/-- The name of the module at an index. -/
def moduleName (index : UInt16) : Outcome String := do
  let name ← pool.typed index .moduleRef fun
    | .moduleRef name => some name
    | _ => none
  pool.text name

/-- The name of the package at an index. -/
def packageName (index : UInt16) : Outcome String := do
  let name ← pool.typed index .packageRef fun
    | .packageRef name => some name
    | _ => none
  pool.text name

/-! ## 4. Numbers -/

/-- The integer at an index. -/
def integer (index : UInt16) : Outcome Int32 :=
  pool.typed index .integer fun
    | .integer value => some value
    | _ => none

/-- The bits of the floating-point number of four bytes at an index. -/
def float (index : UInt16) : Outcome UInt32 :=
  pool.typed index .float fun
    | .float bits => some bits
    | _ => none

/-- The long integer at an index. -/
def long (index : UInt16) : Outcome Int64 :=
  pool.typed index .long fun
    | .long value => some value
    | _ => none

/-- The bits of the floating-point number of eight bytes at an index. -/
def double (index : UInt16) : Outcome UInt64 :=
  pool.typed index .double fun
    | .double bits => some bits
    | _ => none

/-! ## 5. Members -/

/-- The member of one kind at an index. -/
def memberOf (kind : MemberKind) (index : UInt16) : Outcome MemberRef := do
  let (owner, nameAndType) ← pool.typed index kind.tag fun
    | .member k owner nameAndType => if k = kind then some (owner, nameAndType) else none
    | _ => none
  let owner ← pool.classDisplayName owner
  let ⟨name, descriptor⟩ ← pool.nameAndType nameAndType
  return ⟨kind, owner, name, descriptor⟩

/-- The field at an index. -/
def fieldRef (index : UInt16) : Outcome MemberRef := pool.memberOf .field index

/-- The method of a class at an index. -/
def methodRef (index : UInt16) : Outcome MemberRef := pool.memberOf .method index

/-- The method of an interface at an index. -/
def interfaceMethodRef (index : UInt16) : Outcome MemberRef :=
  pool.memberOf .interfaceMethod index

/-- The method at an index, of a class or of an interface. -/
def invocable (index : UInt16) : Outcome MemberRef := do
  match ← pool.get index with
  | .member .interfaceMethod _ _ => pool.interfaceMethodRef index
  | _ => pool.methodRef index

/-- The member at an index, of any kind. -/
def member (index : UInt16) : Outcome MemberRef := do
  match ← pool.get index with
  | .member .field _ _ => pool.fieldRef index
  | _ => pool.invocable index

/-- The method handle at an index. -/
def methodHandle (index : UInt16) : Outcome MethodHandle := do
  let (kind, member) ← pool.typed index .methodHandle fun
    | .methodHandle kind member => some (kind, member)
    | _ => none
  return ⟨kind, ← pool.member member⟩

/-- The dynamic constant at an index. -/
def dynamic (index : UInt16) : Outcome DynamicRef := do
  let (bootstrap, nameAndType) ← pool.typed index .dynamic fun
    | .dynamic bootstrap nameAndType => some (bootstrap, nameAndType)
    | _ => none
  return ⟨bootstrap, ← pool.nameAndType nameAndType⟩

/-- The dynamic call at an index. -/
def invokeDynamic (index : UInt16) : Outcome DynamicRef := do
  let (bootstrap, nameAndType) ← pool.typed index .invokeDynamic fun
    | .invokeDynamic bootstrap nameAndType => some (bootstrap, nameAndType)
    | _ => none
  return ⟨bootstrap, ← pool.nameAndType nameAndType⟩

/-! ## 6. Constants -/

/-- The loadable constant at an index. An entry that cannot be loaded is reported as one that
    should have been a string. -/
def constant (index : UInt16) : Outcome LoadableConstant := do
  match ← pool.get index with
  | .integer value => return .integer value
  | .float bits => return .float bits
  | .long value => return .long value
  | .double bits => return .double bits
  | .string _ => .string <$> pool.string index
  | .classRef _ => .classRef <$> pool.classDisplayName index
  | .methodType _ => .methodType <$> pool.methodType index
  | .methodHandle _ _ => .methodHandle <$> pool.methodHandle index
  | .dynamic _ _ => .dynamic <$> pool.dynamic index
  | entry => throw (.tagMismatch index.toNat .string entry.tag)

end ConstantPool

end ClassView
