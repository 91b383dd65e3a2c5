/-!
# Opcodes

The first byte of an instruction is its opcode. It decides the instruction's mnemonic and its
`Shape`: which operands follow and how many bytes they take. Of the 256 bytes 205 are opcodes; the
two tables here agree on which (`isSome_mnemonic?`).
-/

namespace ClassView

/-! ## 1. Shapes -/

/-- What follows an opcode. -/
inductive Shape where
  /-- Nothing. -/
  | plain
  /-- Nothing: the opcode itself names the local variable. -/
  | impliedSlot
  /-- A number of one byte. -/
  | byteLiteral
  /-- A number of two bytes. -/
  | shortLiteral
  /-- A local variable. -/
  | slot
  /-- A pool index of a class. -/
  | classIndex
  /-- A pool index of a field or method. -/
  | memberIndex
  /-- A pool index of an interface method, a count, and a byte without meaning. -/
  | interfaceCall
  /-- A pool index of a dynamic call, and two bytes without meaning. -/
  | dynamicCall
  /-- A branch offset of two bytes. -/
  | branch
  /-- A branch offset of four bytes. -/
  | wideBranch
  /-- A pool index of one byte, of a constant. -/
  | constant
  /-- A pool index of two bytes, of a constant. -/
  | wideConstant
  /-- A local variable and the number added to it. -/
  | increment
  /-- The element type of a new array of numbers. -/
  | primitiveArray
  /-- A pool index of an array class, and the number of dimensions to fill. -/
  | multiArray
  /-- A table of branch offsets for consecutive keys. -/
  | tableSwitch
  /-- A table of keys and branch offsets. -/
  | lookupSwitch
  /-- Another instruction, whose operands take twice the bytes. -/
  | widePrefix
  /-- Nothing: the opcode is set aside for other use. -/
  | reserved
  deriving DecidableEq, Repr

/-- The bytes an instruction of this shape takes with its opcode, where that is the same for all. -/
def Shape.width? : Shape → Option Nat
  | .plain | .impliedSlot | .reserved => some 1
  | .byteLiteral | .slot | .constant | .primitiveArray => some 2
  | .shortLiteral | .wideConstant | .memberIndex | .classIndex | .increment | .branch => some 3
  | .multiArray => some 4
  | .interfaceCall | .dynamicCall | .wideBranch => some 5
  | .tableSwitch | .lookupSwitch | .widePrefix => none

/-! ## 2. Opcodes -/

/-- The first byte of an instruction. -/
structure Opcode where
  byte : UInt8
  deriving DecidableEq, Repr

namespace Opcode

/-- Consecutive opcodes of one shape: the first, the last and the shape. -/
def shapeRanges : List (UInt8 × UInt8 × Shape) := [
  (0, 15, .plain), (16, 16, .byteLiteral), (17, 17, .shortLiteral), (18, 18, .constant),
  (19, 20, .wideConstant), (21, 25, .slot), (26, 45, .impliedSlot), (46, 53, .plain),
  (54, 58, .slot), (59, 78, .impliedSlot), (79, 131, .plain), (132, 132, .increment),
  (133, 152, .plain), (153, 168, .branch), (169, 169, .slot), (170, 170, .tableSwitch),
  (171, 171, .lookupSwitch), (172, 177, .plain), (178, 184, .memberIndex),
  (185, 185, .interfaceCall), (186, 186, .dynamicCall), (187, 187, .classIndex),
  (188, 188, .primitiveArray), (189, 189, .classIndex), (190, 191, .plain),
  (192, 193, .classIndex), (194, 195, .plain), (196, 196, .widePrefix), (197, 197, .multiArray),
  (198, 199, .branch), (200, 201, .wideBranch), (202, 202, .reserved), (254, 255, .reserved)]

/-- The shape of an opcode, if the byte is one. -/
def shape? (op : Opcode) : Option Shape :=
  (shapeRanges.find? (fun (first, last, _) => first ≤ op.byte && op.byte ≤ last)).map (·.2.2)

/-- The mnemonics of the opcodes from 0 up. -/
def mnemonics : Array String := #[
  "nop", "aconst_null", "iconst_m1", "iconst_0", "iconst_1", "iconst_2", "iconst_3", "iconst_4",
  "iconst_5", "lconst_0", "lconst_1", "fconst_0", "fconst_1", "fconst_2", "dconst_0", "dconst_1",
  "bipush", "sipush", "ldc", "ldc_w", "ldc2_w", "iload", "lload", "fload", "dload", "aload",
  "iload_0", "iload_1", "iload_2", "iload_3", "lload_0", "lload_1", "lload_2", "lload_3",
  "fload_0", "fload_1", "fload_2", "fload_3", "dload_0", "dload_1", "dload_2", "dload_3",
  "aload_0", "aload_1", "aload_2", "aload_3", "iaload", "laload", "faload", "daload", "aaload",
  "baload", "caload", "saload", "istore", "lstore", "fstore", "dstore", "astore", "istore_0",
  "istore_1", "istore_2", "istore_3", "lstore_0", "lstore_1", "lstore_2", "lstore_3", "fstore_0",
  "fstore_1", "fstore_2", "fstore_3", "dstore_0", "dstore_1", "dstore_2", "dstore_3", "astore_0",
  "astore_1", "astore_2", "astore_3", "iastore", "lastore", "fastore", "dastore", "aastore",
  "bastore", "castore", "sastore", "pop", "pop2", "dup", "dup_x1", "dup_x2", "dup2", "dup2_x1",
  "dup2_x2", "swap", "iadd", "ladd", "fadd", "dadd", "isub", "lsub", "fsub", "dsub", "imul",
  "lmul", "fmul", "dmul", "idiv", "ldiv", "fdiv", "ddiv", "irem", "lrem", "frem", "drem", "ineg",
  "lneg", "fneg", "dneg", "ishl", "lshl", "ishr", "lshr", "iushr", "lushr", "iand", "land", "ior",
  "lor", "ixor", "lxor", "iinc", "i2l", "i2f", "i2d", "l2i", "l2f", "l2d", "f2i", "f2l", "f2d",
  "d2i", "d2l", "d2f", "i2b", "i2c", "i2s", "lcmp", "fcmpl", "fcmpg", "dcmpl", "dcmpg", "ifeq",
  "ifne", "iflt", "ifge", "ifgt", "ifle", "if_icmpeq", "if_icmpne", "if_icmplt", "if_icmpge",
  "if_icmpgt", "if_icmple", "if_acmpeq", "if_acmpne", "goto", "jsr", "ret", "tableswitch",
  "lookupswitch", "ireturn", "lreturn", "freturn", "dreturn", "areturn", "return", "getstatic",
  "putstatic", "getfield", "putfield", "invokevirtual", "invokespecial", "invokestatic",
  "invokeinterface", "invokedynamic", "new", "newarray", "anewarray", "arraylength", "athrow",
  "checkcast", "instanceof", "monitorenter", "monitorexit", "wide", "multianewarray", "ifnull",
  "ifnonnull", "goto_w", "jsr_w"]

/-- The mnemonic of an opcode, if the byte is one. -/
def mnemonic? (op : Opcode) : Option String :=
  match op.byte with
  | 202 => some "breakpoint"
  | 254 => some "impdep1"
  | 255 => some "impdep2"
  | byte => mnemonics[byte.toNat]?

/-- The mnemonic of an opcode, empty for a byte that is none. -/
def mnemonic (op : Opcode) : String := op.mnemonic?.getD ""

/-- **A byte has a mnemonic exactly when it has a shape.** -/
theorem isSome_mnemonic? (op : Opcode) : op.mnemonic?.isSome = op.shape?.isSome := by
  have h : ∀ b : Fin 256,
      (Opcode.mk (UInt8.ofFin b)).mnemonic?.isSome = (Opcode.mk (UInt8.ofFin b)).shape?.isSome := by
    decide +kernel
  have := h op.byte.toFin
  simpa using this

theorem exists_mnemonic? {op : Opcode} {shape : Shape} (h : op.shape? = some shape) :
    ∃ name, op.mnemonic? = some name := by
  rw [← Option.isSome_iff_exists, isSome_mnemonic?, h]
  rfl

/-! ## 3. Opcodes with a meaning of their own -/

/-- The pool index that follows is of a constant to load. -/
def loadsConstant (op : Opcode) : Bool := 18 ≤ op.byte && op.byte ≤ 20

/-- The pool index that follows is of a field. -/
def usesField (op : Opcode) : Bool := 178 ≤ op.byte && op.byte ≤ 181

/-- The pool index that follows is of a method of a class. -/
def callsMethod (op : Opcode) : Bool := op.byte == 182

/-- The pool index that follows is of a method of a class or an interface. -/
def callsAnyMethod (op : Opcode) : Bool := op.byte == 183 || op.byte == 184

/-- The pool index that follows is of a class. -/
def usesClass (op : Opcode) : Bool :=
  op.byte == 187 || op.byte == 189 || op.byte == 192 || op.byte == 193

end Opcode

/-! ## 4. Element types -/

/-- The element type of a new array of numbers or truth values, by its code. -/
def elementTypeName? (code : UInt8) : Option String :=
  match code with
  | 4 => some "boolean"
  | 5 => some "char"
  | 6 => some "float"
  | 7 => some "double"
  | 8 => some "byte"
  | 9 => some "short"
  | 10 => some "int"
  | 11 => some "long"
  | _ => none

end ClassView
