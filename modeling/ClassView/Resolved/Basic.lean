import ClassView.ClassFile.Reader
import ClassView.Instruction.Decoder

/-!
# Resolved classes

A resolved class is a class file with every reference followed and every method body decoded. Its
names keep the internal form, and the constant pool is carried along as it was read.

Everything is looked up whether anyone asks for it or not, so a class resolves only if all its
references do. Which fault is reported where there are several is fixed by the order of the
look-ups: the superclass and the interfaces, then the fields, then the methods, and only then the
name of the class, its signature and its source file.
-/

namespace ClassView

/-! ## 1. Types -/

/-- A version of the class file format. -/
structure Version where
  major : UInt16
  minor : UInt16
  deriving DecidableEq, Repr

/-- A field with what its indices stand for. -/
structure ResolvedField where
  access : Access .ofField
  id : NameAndType
  signature : Option String
  value : Option LoadableConstant
  deprecated : Bool
  deriving DecidableEq, Repr

/-- A handler with the class of the exceptions it catches, none if it catches everything. -/
structure ResolvedHandler where
  start : UInt16
  stop : UInt16
  handler : UInt16
  catchType : Option String
  deriving DecidableEq, Repr

/-- A local variable with its name and descriptor. -/
structure ResolvedVariable where
  id : NameAndType
  start : UInt16
  length : UInt16
  slot : UInt16
  deriving DecidableEq, Repr

/-- A decoded method body. -/
structure ResolvedCode where
  maxStack : UInt16
  maxLocals : UInt16
  instructions : List Instruction
  handlers : List ResolvedHandler
  lineNumbers : List LineNumber
  localVariables : List ResolvedVariable
  deriving DecidableEq, Repr

/-- A method with what its indices stand for. -/
structure ResolvedMethod where
  access : Access .ofMethod
  id : NameAndType
  exceptions : List String
  signature : Option String
  code : Option ResolvedCode
  deprecated : Bool
  deriving DecidableEq, Repr

/-- A class with what its indices stand for. -/
structure ResolvedClass where
  version : Version
  access : Access .ofClass
  name : String
  superName : Option String
  interfaces : List String
  signature : Option String
  sourceName : Option String
  fields : List ResolvedField
  methods : List ResolvedMethod
  pool : ConstantPool
  deriving DecidableEq, Repr

/-! ## 2. Optional look-ups -/

/-- Looks up what is there to be looked up. -/
def lookupOption {α β : Type} (look : α → Outcome β) : Option α → Outcome (Option β)
  | some a => some <$> look a
  | none => pure none

/-- The class at an index, where zero stands for no class. -/
def ConstantPool.className? (pool : ConstantPool) (index : UInt16) : Outcome (Option String) :=
  if index = 0 then pure none else some <$> pool.className index

/-- The text of the first signature, if there is one. -/
def resolveSignature (pool : ConstantPool) (attributes : List Attribute) :
    Outcome (Option String) :=
  lookupOption pool.text (Attribute.signature? attributes)

/-! ## 3. Members -/

/-- The name and descriptor of a member. -/
def Member.resolveId {kind : AccessKind} (pool : ConstantPool) (m : Member kind) :
    Outcome NameAndType := do
  return ⟨← m.nameIn pool, ← m.descriptorIn pool⟩

/-- Resolves a field: its constant, its name and descriptor, its signature. -/
def ResolvedField.of (pool : ConstantPool) (f : Field) : Outcome ResolvedField := do
  let value ← lookupOption pool.constant f.constantValue?
  let id ← f.resolveId pool
  let signature ← resolveSignature pool f.attributes
  return {
    access := f.access, id, signature, value, deprecated := Attribute.isDeprecated f.attributes }

/-- Resolves a handler. -/
def ResolvedHandler.of (pool : ConstantPool) (h : ExceptionHandler) :
    Outcome ResolvedHandler := do
  return ⟨h.start, h.stop, h.handler, ← pool.className? h.catchType⟩

/-- Resolves a local variable. -/
def ResolvedVariable.of (pool : ConstantPool) (v : LocalVariable) :
    Outcome ResolvedVariable := do
  return ⟨⟨← pool.text v.name, ← pool.text v.descriptor⟩, v.start, v.length, v.slot⟩

/-- Resolves a method body: its handlers, its local variables, its instructions. -/
def ResolvedCode.of (pool : ConstantPool) (code : Code) : Outcome ResolvedCode := do
  let handlers ← code.handlers.mapM (ResolvedHandler.of pool)
  let localVariables ← code.localVariables.mapM (ResolvedVariable.of pool)
  let instructions ← decode code.bytes
  return {
    maxStack := code.maxStack, maxLocals := code.maxLocals, instructions, handlers,
    lineNumbers := code.lineNumbers, localVariables }

/-- Resolves a method: its exceptions, its body, its name and descriptor, its signature. -/
def ResolvedMethod.of (pool : ConstantPool) (m : Method) : Outcome ResolvedMethod := do
  let exceptions ← (m.exceptions?.getD []).mapM pool.className
  let code ← lookupOption (ResolvedCode.of pool) m.code?
  let id ← m.resolveId pool
  let signature ← resolveSignature pool m.attributes
  return {
    access := m.access, id, exceptions, signature, code,
    deprecated := Attribute.isDeprecated m.attributes }

/-! ## 4. Classes -/

/-- Resolves a class. -/
def ClassFile.resolve (c : ClassFile) : Outcome ResolvedClass := do
  let superName ← c.pool.className? c.superClass
  let interfaces ← c.interfaces.mapM c.pool.className
  let fields ← c.fields.mapM (ResolvedField.of c.pool)
  let methods ← c.methods.mapM (ResolvedMethod.of c.pool)
  let name ← c.pool.className c.thisClass
  let signature ← resolveSignature c.pool c.attributes
  let sourceName ← c.sourceFile
  return {
    version := ⟨c.majorVersion, c.minorVersion⟩, access := c.access, name, superName, interfaces,
    signature, sourceName, fields, methods, pool := c.pool }

/-- The resolved class that a whole byte string is. -/
def ResolvedClass.parse (bytes : List UInt8) (texts : TextReader := Text.text?) :
    Outcome ResolvedClass := do
  let c ← ClassFile.parse bytes texts
  c.resolve

end ClassView
