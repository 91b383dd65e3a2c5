import ClassView.ClassFile.Reader
import ClassView.Proofs.Attribute.Layout
import ClassView.Proofs.Pool.Layout

/-!
# Class files as bytes

The way back from a class file to the bytes it can be read from. What a class file does not settle
is gathered in a `ClassForm`: the flags without a name, the spelling of the texts, the count of a
pool without entries, and the index of each attribute's name. There is nothing else to choose.

* `ClassFile.WellFormed`: the class files that can be stored;
* `ClassForm.Fits`: a form is one of the class file;
* `ClassFile.bytes`: the bytes of a class file in a form.
-/

namespace ClassView

/-- Only bits with a name are set. -/
def Access.IsNamed {kind : AccessKind} (a : Access kind) : Prop := a.bits &&& kind.mask = a.bits

/-! ## 1. Members -/

/-- What the bytes of a field or method have that it does not settle: the word of flags, with the
    bits that have no name, and the forms of the attributes. -/
structure MemberForm where
  word : UInt16
  attributes : List AttributeForm
  deriving Repr

namespace Member

variable {kind : AccessKind}

/-- The bytes of a field or method. -/
def bytes (form : MemberForm) (m : Member kind) : List UInt8 :=
  BigEndian.u16 form.word ++ (BigEndian.u16 m.name ++ (BigEndian.u16 m.descriptor ++
    Attribute.listBytes form.attributes m.attributes))

/-- A field or method that can be stored. -/
structure WellFormed (pool : ConstantPool) (m : Member kind) : Prop where
  access : m.access.IsNamed
  attributes : Attribute.ListWellFormed pool m.attributes

end Member

/-- The form is one of the field or method. -/
structure MemberForm.Fits {kind : AccessKind} (pool : ConstantPool) (form : MemberForm)
    (m : Member kind) : Prop where
  word : form.word &&& kind.mask = m.access.bits
  attributes : List.Forall₂ (AttributeForm.Fits pool) form.attributes m.attributes

/-! ## 2. Classes -/

/-- What the bytes of a class file have that the class file does not settle. -/
structure ClassForm where
  pool : PoolForm
  /-- The word of flags, with the bits that have no name. -/
  word : UInt16
  fields : List MemberForm
  methods : List MemberForm
  attributes : List AttributeForm
  deriving Repr

namespace ClassFile

/-- The bytes of a class file. -/
def bytes (form : ClassForm) (c : ClassFile) : List UInt8 :=
  BigEndian.u32 c.magic ++ (BigEndian.u16 c.minorVersion ++ (BigEndian.u16 c.majorVersion ++
    (c.pool.bytes form.pool ++ (BigEndian.u16 form.word ++ (BigEndian.u16 c.thisClass ++
      (BigEndian.u16 c.superClass ++ (Layout.tableBytes BigEndian.u16 c.interfaces ++
        (Layout.formTableBytes Member.bytes form.fields c.fields ++
          (Layout.formTableBytes Member.bytes form.methods c.methods ++
            Attribute.listBytes form.attributes c.attributes)))))))))

/-- A class file that can be stored. -/
structure WellFormed (c : ClassFile) : Prop where
  magic : c.magic = classMagic
  pool : c.pool.IsRegular
  access : c.access.IsNamed
  interfaces : c.interfaces.length < 65536
  fields : c.fields.length < 65536 ∧ ∀ f ∈ c.fields, f.WellFormed c.pool
  methods : c.methods.length < 65536 ∧ ∀ m ∈ c.methods, m.WellFormed c.pool
  attributes : Attribute.ListWellFormed c.pool c.attributes

end ClassFile

/-- The form is one of the class file. -/
structure ClassForm.Fits (texts : TextReader) (form : ClassForm) (c : ClassFile) : Prop where
  pool : form.pool.Fits texts c.pool
  word : form.word &&& AccessKind.ofClass.mask = c.access.bits
  fields : List.Forall₂ (MemberForm.Fits c.pool) form.fields c.fields
  methods : List.Forall₂ (MemberForm.Fits c.pool) form.methods c.methods
  attributes : List.Forall₂ (AttributeForm.Fits c.pool) form.attributes c.attributes

end ClassView
