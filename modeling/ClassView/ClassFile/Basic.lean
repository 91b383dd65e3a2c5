import ClassView.Access
import ClassView.Attribute.Basic
import ClassView.Pool.Resolve

/-!
# Class files

A class file holds a constant pool and, beside it, the class: its flags, its name and those of its
superclass and interfaces, its fields and methods, and attributes on all of them. Names are kept as
indices of the pool and looked up when they are asked for.
-/

namespace ClassView

/-! ## 1. Members -/

/-- A field or a method. -/
structure Member (kind : AccessKind) where
  access : Access kind
  name : UInt16
  descriptor : UInt16
  attributes : List Attribute
  deriving Repr

/-- A field of a class. -/
abbrev Field : Type := Member .ofField

/-- A method of a class. -/
abbrev Method : Type := Member .ofMethod

namespace Member

variable {kind : AccessKind}

/-- The name of a member. -/
def nameIn (pool : ConstantPool) (m : Member kind) : Outcome String := pool.text m.name

/-- The descriptor of a member. -/
def descriptorIn (pool : ConstantPool) (m : Member kind) : Outcome String :=
  pool.text m.descriptor

/-- The constant a field starts with. -/
def constantValue? (m : Member kind) : Option UInt16 := Attribute.constantValue? m.attributes

/-- The body of a method. -/
def code? (m : Member kind) : Option Code := Attribute.code? m.attributes

/-- The classes of the exceptions a method declares. -/
def exceptions? (m : Member kind) : Option (List UInt16) := Attribute.exceptions? m.attributes

end Member

/-! ## 2. Classes -/

/-- The four bytes every class file starts with. -/
def classMagic : UInt32 := 0xcafebabe

/-- A class file, with all indices as they are stored. -/
structure ClassFile where
  magic : UInt32
  minorVersion : UInt16
  majorVersion : UInt16
  pool : ConstantPool
  access : Access .ofClass
  thisClass : UInt16
  /-- The superclass, or zero if there is none. -/
  superClass : UInt16
  interfaces : List UInt16
  fields : List Field
  methods : List Method
  attributes : List Attribute
  deriving Repr

namespace ClassFile

variable (c : ClassFile)

/-- The display name of the class. -/
def name : Outcome String := c.pool.classDisplayName c.thisClass

/-- The display name of the superclass, if the class has one. -/
def superName : Outcome (Option String) :=
  if c.superClass = 0 then pure none else some <$> c.pool.classDisplayName c.superClass

/-- The display names of the interfaces. -/
def interfaceNames : Outcome (List String) := c.interfaces.mapM c.pool.classDisplayName

/-- The name of the source file, if the class tells one. -/
def sourceFile : Outcome (Option String) :=
  match Attribute.sourceFile? c.attributes with
  | some index => some <$> c.pool.text index
  | none => pure none

end ClassFile

end ClassView
