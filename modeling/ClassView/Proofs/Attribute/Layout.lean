import ClassView.Attribute.Reader
import ClassView.Proofs.Layout

/-!
# Attributes as bytes

The way back from attributes to the bytes they can be read from. An attribute settles its body, but
not under which index its name stands in the pool, since a pool may hold a text more than once. An
`AttributeForm` settles this for an attribute and for all that it carries.

* `Attribute.bytes`: the bytes of an attribute in a form;
* `Attribute.WellFormed`: the attributes that can be stored, at every depth;
* `AttributeForm.Fits`: a form names every attribute by its own name;
* **`Attribute.length_bytes`**: the size of an attribute does not depend on its form.
-/

namespace ClassView

/-! ## 1. Rows of tables -/

/-- The bytes of a row of an exception table. -/
def ExceptionHandler.bytes (h : ExceptionHandler) : List UInt8 :=
  BigEndian.u16 h.start ++ (BigEndian.u16 h.stop ++
    (BigEndian.u16 h.handler ++ BigEndian.u16 h.catchType))

/-- The bytes of a row of a table of line numbers. -/
def LineNumber.bytes (l : LineNumber) : List UInt8 :=
  BigEndian.u16 l.start ++ BigEndian.u16 l.line

/-- The bytes of a row of a table of local variables. -/
def LocalVariable.bytes (v : LocalVariable) : List UInt8 :=
  BigEndian.u16 v.start ++ (BigEndian.u16 v.length ++ (BigEndian.u16 v.name ++
    (BigEndian.u16 v.descriptor ++ BigEndian.u16 v.slot)))

@[simp] theorem ExceptionHandler.length_bytes (h : ExceptionHandler) : h.bytes.length = 8 := by
  simp [bytes]

@[simp] theorem LineNumber.length_bytes (l : LineNumber) : l.bytes.length = 4 := by
  simp [bytes]

@[simp] theorem LocalVariable.length_bytes (v : LocalVariable) : v.bytes.length = 10 := by
  simp [bytes]

/-! ## 2. Attributes -/

/-- What the bytes of an attribute have that the attribute does not settle: under which index its
    name stands in the pool, and the same for the attributes that it carries. -/
structure AttributeForm where
  name : UInt16
  nested : List AttributeForm
  deriving Repr

namespace Attribute

/-- The name that the body of the attribute is read by. -/
def recognised? : Attribute → Option AttributeName
  | .code _ => some .code
  | .constantValue _ => some .constantValue
  | .exceptions _ => some .exceptions
  | .sourceFile _ => some .sourceFile
  | .signature _ => some .signature
  | .lineNumberTable _ => some .lineNumberTable
  | .localVariableTable _ => some .localVariableTable
  | .deprecated => some .deprecated
  | .synthetic => some .synthetic
  | .unknown _ _ => none

/-- The attributes that the attribute carries itself. -/
def nested : Attribute → List Attribute
  | .code body => body.attributes
  | _ => []

/-- The bytes of the body, in which `carried` is where the attributes stand that it carries. -/
def body (carried : List UInt8) : Attribute → List UInt8
  | .code c => BigEndian.u16 c.maxStack ++ (BigEndian.u16 c.maxLocals ++
      (BigEndian.toBytes 4 c.bytes.length ++ (c.bytes ++
        (Layout.tableBytes ExceptionHandler.bytes c.handlers ++ carried))))
  | .constantValue constant => BigEndian.u16 constant
  | .exceptions classes => Layout.tableBytes BigEndian.u16 classes
  | .sourceFile text => BigEndian.u16 text
  | .signature text => BigEndian.u16 text
  | .lineNumberTable rows => Layout.tableBytes LineNumber.bytes rows
  | .localVariableTable rows => Layout.tableBytes LocalVariable.bytes rows
  | .deprecated | .synthetic => []
  | .unknown _ bytes => bytes

/-- The index of a name and a body behind its length. -/
def frame (name : UInt16) (body : List UInt8) : List UInt8 :=
  BigEndian.u16 name ++ (BigEndian.toBytes 4 body.length ++ body)

mutual

/-- The bytes of an attribute. -/
def bytes : AttributeForm → Attribute → List UInt8
  | ⟨name, forms⟩, a =>
    frame name (a.body (BigEndian.toBytes 2 a.nested.length ++ rowBytes forms a.nested))

/-- The bytes of attributes one after the other. -/
def rowBytes : List AttributeForm → List Attribute → List UInt8
  | form :: forms, a :: as => bytes form a ++ rowBytes forms as
  | _, _ => []

end

/-- The bytes of a list of attributes. -/
def listBytes (forms : List AttributeForm) (as : List Attribute) : List UInt8 :=
  BigEndian.toBytes 2 as.length ++ rowBytes forms as

theorem bytes_eq (form : AttributeForm) (a : Attribute) :
    bytes form a = frame form.name (a.body (listBytes form.nested a.nested)) := by
  obtain ⟨name, forms⟩ := form
  rw [bytes]
  rfl

theorem rowBytes_eq (forms : List AttributeForm) (as : List Attribute) :
    rowBytes forms as = Layout.rowBytes bytes forms as := by
  induction forms generalizing as with
  | nil =>
    rw [rowBytes]
    · rfl
    · intro _ _ _ _ h
      exact nomatch h
  | cons form forms ih =>
    cases as with
    | nil =>
      rw [rowBytes]
      · rfl
      · intro _ _ _ _ _ h
        exact nomatch h
    | cons a as =>
      rw [rowBytes, ih]
      rfl

/-! ## 3. Well-formed attributes -/

mutual

/-- The number of bytes of the body. -/
def bodyLength : Attribute → Nat
  | .code c => codeLength c
  | .constantValue _ | .sourceFile _ | .signature _ => 2
  | .exceptions classes => 2 + 2 * classes.length
  | .lineNumberTable rows => 2 + 4 * rows.length
  | .localVariableTable rows => 2 + 10 * rows.length
  | .deprecated | .synthetic => 0
  | .unknown _ bytes => bytes.length

/-- The number of bytes of a body of code. -/
def codeLength : CodeOf Attribute → Nat
  | ⟨_, _, bytes, handlers, attributes⟩ =>
    12 + bytes.length + 8 * handlers.length + rowLength attributes

/-- The number of bytes of attributes one after the other. -/
def rowLength : List Attribute → Nat
  | [] => 0
  | a :: as => 6 + bodyLength a + rowLength as

end

/-- The lists of the attribute have lengths that can be stored, and its code is not empty. -/
def IsSized : Attribute → Prop
  | .code c => 1 ≤ c.bytes.length ∧ c.bytes.length ≤ 65535 ∧
      c.handlers.length < 65536 ∧ c.attributes.length < 65536
  | .exceptions classes => classes.length < 65536
  | .lineNumberTable rows => rows.length < 65536
  | .localVariableTable rows => rows.length < 65536
  | _ => True

/-- The text at an index of the pool says what the attribute is: it is the name of a recognised
    attribute, and at the own index of any other one it is a name that is not recognised. -/
def IsNamedBy (pool : ConstantPool) (index : UInt16) (a : Attribute) : Prop :=
  ∃ text, pool.entry? index = some (.utf8 text) ∧ AttributeName.ofText? text = a.recognised? ∧
    ∀ own bytes, a = .unknown own bytes → index = own

/-- The attribute itself can be stored, whatever those that it carries. -/
structure IsProper (pool : ConstantPool) (a : Attribute) : Prop where
  named : ∃ index, a.IsNamedBy pool index
  sized : a.IsSized
  bodyLength_lt : a.bodyLength < 4294967296

/-- The attribute and all that it carries, at every depth, can be stored. -/
inductive WellFormed (pool : ConstantPool) : Attribute → Prop
  | mk {a : Attribute} (proper : a.IsProper pool) (nested : ∀ b ∈ a.nested, WellFormed pool b) :
      WellFormed pool a

/-- The list has a length that can be stored, and so have its attributes. -/
structure ListWellFormed (pool : ConstantPool) (as : List Attribute) : Prop where
  length_lt : as.length < 65536
  all : ∀ a ∈ as, WellFormed pool a

end Attribute

/-- The form names the attribute and all that it carries by their own names. -/
inductive AttributeForm.Fits (pool : ConstantPool) : AttributeForm → Attribute → Prop
  | mk {form : AttributeForm} {a : Attribute} (named : a.IsNamedBy pool form.name)
      (nested : List.Forall₂ (Fits pool) form.nested a.nested) : Fits pool form a

/-! ## 4. Sizes -/

namespace Attribute

variable {pool : ConstantPool}

theorem codeLength_eq (c : Code) : codeLength c =
    12 + c.bytes.length + 8 * c.handlers.length + rowLength c.attributes := by
  cases c
  rw [codeLength]

/-- The body has the length that is told of it. -/
theorem length_body (a : Attribute) {carried : List UInt8}
    (h : carried.length = 2 + rowLength a.nested) : (a.body carried).length = a.bodyLength := by
  cases a with
  | code c =>
    have hcarried : carried.length = 2 + rowLength c.attributes := h
    have hhandlers := Layout.length_tableBytes ExceptionHandler.length_bytes c.handlers
    simp only [body, bodyLength, codeLength_eq, List.length_append, BigEndian.length_u16,
      BigEndian.length_toBytes, hcarried, hhandlers]
    omega
  | exceptions classes =>
    rw [body, bodyLength, Layout.length_tableBytes BigEndian.length_u16]
  | lineNumberTable rows =>
    rw [body, bodyLength, Layout.length_tableBytes LineNumber.length_bytes]
  | localVariableTable rows =>
    rw [body, bodyLength, Layout.length_tableBytes LocalVariable.length_bytes]
  | constantValue | sourceFile | signature =>
    rw [body, bodyLength, BigEndian.length_u16]
  | deprecated | synthetic =>
    rw [body, bodyLength, List.length_nil]
  | unknown name bytes =>
    rw [body, bodyLength]

theorem length_frame (name : UInt16) (body : List UInt8) :
    (frame name body).length = 6 + body.length := by
  rw [frame, List.length_append, List.length_append, BigEndian.length_u16,
    BigEndian.length_toBytes, ← Nat.add_assoc]

mutual

/-- **The size of an attribute does not depend on its form.** The recursion is on the form, which
    is as deep as the attribute that it fits. -/
theorem length_bytes : ∀ (form : AttributeForm) (a : Attribute), form.Fits pool a →
    (bytes form a).length = 6 + a.bodyLength
  | ⟨name, forms⟩, a, h => by
      obtain ⟨_, hnested⟩ := h
      rw [bytes, length_frame, length_body]
      rw [List.length_append, BigEndian.length_toBytes, length_rowBytes forms a.nested hnested]

theorem length_rowBytes : ∀ (forms : List AttributeForm) (as : List Attribute),
    List.Forall₂ (AttributeForm.Fits pool) forms as → (rowBytes forms as).length = rowLength as
  | [], _, h => by
      cases h
      rfl
  | form :: forms, _, h => by
      cases h with
      | cons hform hforms =>
        rw [rowBytes, List.length_append, length_bytes form _ hform,
          length_rowBytes forms _ hforms, rowLength]

end

end Attribute

end ClassView
