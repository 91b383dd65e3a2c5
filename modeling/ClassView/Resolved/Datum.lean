import ClassView.Datum.Basic
import ClassView.Resolved.Basic

/-!
# Resolved classes as data

How a resolved class is written in the data notation: the words for every part of it, from the
operands of an instruction up to the class as a whole, and the order of its fields. A slot of the
pool that holds no entry is written as missing.
-/

namespace ClassView

namespace Datum

/-! ## 1. Small parts -/

/-- A number of two bytes. -/
def u16 (n : UInt16) : Datum := nat n.toNat

/-- Access flags. -/
def access {kind : AccessKind} (a : Access kind) : Datum := .record "" [("bits", u16 a.bits)]

/-- A name with its descriptor. -/
def nameAndType (n : NameAndType) : Datum :=
  .record "" [("name", .text n.name), ("descriptor", .text n.descriptor)]

/-- A tagged record of pool indices. -/
def indices (tag : String) (fields : List (String × UInt16)) : Datum :=
  .record tag (fields.map (fun (key, index) => (key, u16 index)))

/-! ## 2. Pool entries -/

/-- The word for a reference to a member of this kind. -/
def memberTag : MemberKind → String
  | .field => "FieldRef"
  | .method => "MethodRef"
  | .interfaceMethod => "InterfaceMethodRef"

/-- A pool entry. -/
def entry : Entry → Datum
  | .utf8 s => .tagged "Utf8" (.text s)
  | .integer v => .tagged "Integer" (int v.toInt)
  | .float bits => .tagged "Float" (float Number.single bits.toNat)
  | .long v => .tagged "Long" (int v.toInt)
  | .double bits => .tagged "Double" (float Number.double bits.toNat)
  | .classRef name => indices "Class" [("name_index", name)]
  | .string index => indices "String" [("string_index", index)]
  | .member kind owner nameAndType =>
    indices (memberTag kind) [("class_index", owner), ("name_and_type_index", nameAndType)]
  | .nameAndType name descriptor =>
    indices "NameAndType" [("name_index", name), ("descriptor_index", descriptor)]
  | .methodHandle kind member =>
    .record "MethodHandle" [("reference_kind", nat kind.toNat), ("reference_index", u16 member)]
  | .methodType descriptor => indices "MethodType" [("descriptor_index", descriptor)]
  | .dynamic bootstrap nameAndType =>
    indices "Dynamic"
      [("bootstrap_method_attr_index", bootstrap), ("name_and_type_index", nameAndType)]
  | .invokeDynamic bootstrap nameAndType =>
    indices "InvokeDynamic"
      [("bootstrap_method_attr_index", bootstrap), ("name_and_type_index", nameAndType)]
  | .moduleRef name => indices "Module" [("name_index", name)]
  | .packageRef name => indices "Package" [("name_index", name)]

/-- A constant pool, slot by slot. -/
def pool (p : ConstantPool) : Datum :=
  .record "" [("entries", .list (p.slots.toList.map (option entry)))]

/-! ## 3. Constants -/

/-- A member with the class it belongs to. -/
def memberRef (m : MemberRef) : Datum :=
  .record "" [("kind", .atom m.kind.label), ("class_name", .text m.owner),
    ("name", .text m.name), ("descriptor", .text m.descriptor)]

/-- A constant that can be loaded. -/
def constant : LoadableConstant → Datum
  | .integer v => .tagged "Integer" (int v.toInt)
  | .long v => .tagged "Long" (int v.toInt)
  | .float bits => .tagged "Float" (float Number.single bits.toNat)
  | .double bits => .tagged "Double" (float Number.double bits.toNat)
  | .classRef name => .tagged "Class" (.text name)
  | .string s => .tagged "String" (.text s)
  | .methodType descriptor => .tagged "MethodType" (.text descriptor)
  | .methodHandle handle =>
    .tagged "MethodHandle"
      (.record "" [("kind", nat handle.kind.toNat), ("member", memberRef handle.member)])
  | .dynamic ref =>
    .tagged "ConstantDynamic"
      (.record ""
        [("bootstrap_method", u16 ref.bootstrap), ("name_and_type", nameAndType ref.nameAndType)])

/-! ## 4. Instructions -/

/-- A local variable of an instruction. -/
def slot : Slot → Datum
  | .narrow i => .tagged "Narrow" (nat i.toNat)
  | .wide i => .tagged "Wide" (u16 i)

/-- The operands of an instruction. -/
def operand : Operand → Datum
  | .nothing => .atom "None"
  | .index index => .tagged "ConstantPoolIndex" (u16 index)
  | .wideIndex index => .tagged "ConstantPoolIndexWide" (u16 index)
  | .slot s => .tagged "LocalVar" (slot s)
  | .increment s amount => .record "Iinc" [("index", slot s), ("increment", int amount.toInt)]
  | .branch (.short o) => .tagged "Branch" (.tagged "Short" (int o.toInt))
  | .branch (.long o) => .tagged "Branch" (.tagged "Long" (int o.toInt))
  | .literal (.byte v) => .tagged "Literal" (.tagged "Byte" (int v.toInt))
  | .literal (.short v) => .tagged "Literal" (.tagged "Short" (int v.toInt))
  | .primitiveArray element => .tagged "NewArray" (nat element.toNat)
  | .interfaceCall index count =>
    .record "InvokeInterface" [("index", u16 index), ("count", nat count.toNat)]
  | .dynamicCall index => indices "InvokeDynamic" [("index", index)]
  | .multiArray index dimensions =>
    .record "MultiANewArray" [("index", u16 index), ("dimensions", nat dimensions.toNat)]
  | .tableSwitch default low high offsets =>
    .record "TableSwitch" [("default", int default.toInt), ("low", int low.toInt),
      ("high", int high.toInt), ("offsets", .list (offsets.map (fun o => int o.toInt)))]
  | .lookupSwitch default pairs =>
    .record "LookupSwitch" [("default", int default.toInt),
      ("pairs", .list (pairs.map (fun (key, o) => .tuple [int key.toInt, int o.toInt])))]
  | .reserved => .atom "Reserved"

/-- An instruction. -/
def instruction (i : Instruction) : Datum :=
  .record "" [("pc", nat i.pc), ("opcode", nat i.opcode.byte.toNat),
    ("mnemonic", .text i.mnemonic), ("wide", bool i.wide), ("operand", operand i.operand),
    ("width", nat i.width)]

/-! ## 5. Members -/

/-- A handler. -/
def handler (h : ResolvedHandler) : Datum :=
  .record "" [("start", u16 h.start), ("end", u16 h.stop), ("handler", u16 h.handler),
    ("catch_type", option .text h.catchType)]

/-- A row of a table of line numbers. -/
def lineNumber (l : LineNumber) : Datum :=
  .record "" [("line", u16 l.line), ("start", u16 l.start)]

/-- A local variable. -/
def localVariable (v : ResolvedVariable) : Datum :=
  .record "" [("id", nameAndType v.id), ("start", u16 v.start), ("length", u16 v.length),
    ("index", u16 v.slot)]

/-- A method body. -/
def code (c : ResolvedCode) : Datum :=
  .record "" [("max_stack", u16 c.maxStack), ("max_locals", u16 c.maxLocals),
    ("instructions", .list (c.instructions.map instruction)),
    ("try_catch_blocks", .list (c.handlers.map handler)),
    ("line_numbers", .list (c.lineNumbers.map lineNumber)),
    ("local_variables", .list (c.localVariables.map localVariable))]

/-- A field. -/
def field (f : ResolvedField) : Datum :=
  .record "" [("access", access f.access), ("id", nameAndType f.id),
    ("signature", option .text f.signature), ("value", option constant f.value),
    ("deprecated", bool f.deprecated)]

/-- A method. -/
def method (m : ResolvedMethod) : Datum :=
  .record "" [("access", access m.access), ("id", nameAndType m.id),
    ("exceptions", .list (m.exceptions.map .text)), ("signature", option .text m.signature),
    ("code", option code m.code), ("deprecated", bool m.deprecated)]

end Datum

/-! ## 6. Classes -/

/-- A resolved class as data. -/
def ResolvedClass.toDatum (c : ResolvedClass) : Datum :=
  .record "" [
    ("version",
      .record "" [("major", Datum.u16 c.version.major), ("minor", Datum.u16 c.version.minor)]),
    ("access", Datum.access c.access),
    ("name", .text c.name),
    ("super_name", Datum.option .text c.superName),
    ("interfaces", .list (c.interfaces.map .text)),
    ("signature", Datum.option .text c.signature),
    ("source_name", Datum.option .text c.sourceName),
    ("fields", .list (c.fields.map Datum.field)),
    ("methods", .list (c.methods.map Datum.method)),
    ("constant_pool", Datum.pool c.pool)]

end ClassView
