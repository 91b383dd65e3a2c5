import ClassView.Bytes.Cursor
import ClassView.Instruction.Basic

/-!
# Decoding a code array

A code array is a row of instructions without gaps. `Instruction.read` reads one; `decodeSteps`
reads them one after the other until the code ends or an instruction cannot be read, and keeps both
what was read and the fault; `decode` is the same, all or nothing. A `Decoder` reads one each time
it is asked, and none any more behind a fault.

The operands of a switch start at a multiple of four from the start of the code; the bytes in
between, the last byte of an interface call and the last two of a dynamic call have no meaning and
are passed over unread.
-/

namespace ClassView

/-! ## 1. Operands -/

namespace Operand

/-- Passes over the bytes up to the next multiple of four. -/
def align : Read Unit := do
  let here ← get
  Cursor.skip ((4 - here.position % 4) % 4)

/-- Reads a table switch behind its opcode. The number of cases is checked against the bytes ahead
    before the first is read. -/
def readTableSwitch : Read Operand := do
  align
  let default ← Cursor.i32
  let low ← Cursor.i32
  let high ← Cursor.i32
  if high < low then throw (.malformedAttribute .code)
  let count := (high.toInt - low.toInt + 1).toNat
  Cursor.expect (count * 4)
  let offsets ← Cursor.times count Cursor.i32
  return .tableSwitch default low high offsets

/-- Reads a lookup switch behind its opcode. -/
def readLookupSwitch : Read Operand := do
  align
  let default ← Cursor.i32
  let count ← Cursor.i32
  if count < 0 then throw (.malformedAttribute .code)
  let count := count.toInt.toNat
  Cursor.expect (count * 8)
  let pairs ← Cursor.times count do return (← Cursor.i32, ← Cursor.i32)
  return .lookupSwitch default pairs

/-- Reads the code of an element type. -/
def readPrimitiveArray : Read Operand := do
  let element ← Cursor.u8
  if (elementTypeName? element).isNone then throw (.malformedAttribute .code)
  return .primitiveArray element

/-- Reads the operands of an instruction that is not widened; a wide prefix has none of its own. -/
def read : Shape → Read Operand
  | .plain | .impliedSlot | .widePrefix => pure .nothing
  | .reserved => pure .reserved
  | .byteLiteral => (fun v => .literal (.byte v)) <$> Cursor.i8
  | .shortLiteral => (fun v => .literal (.short v)) <$> Cursor.i16
  | .slot => (fun i => .slot (.narrow i)) <$> Cursor.u8
  | .constant => (fun i => .index i.toUInt16) <$> Cursor.u8
  | .wideConstant => .wideIndex <$> Cursor.u16
  | .classIndex | .memberIndex => .index <$> Cursor.u16
  | .interfaceCall => do
    let index ← Cursor.u16
    let count ← Cursor.u8
    Cursor.skip 1
    return .interfaceCall index count
  | .dynamicCall => do
    let index ← Cursor.u16
    Cursor.skip 2
    return .dynamicCall index
  | .branch => (fun o => .branch (.short o)) <$> Cursor.i16
  | .wideBranch => (fun o => .branch (.long o)) <$> Cursor.i32
  | .increment => do
    let index ← Cursor.u8
    let amount ← Cursor.i8
    return .increment (.narrow index) amount.toInt16
  | .primitiveArray => readPrimitiveArray
  | .multiArray => do return .multiArray (← Cursor.u16) (← Cursor.u8)
  | .tableSwitch => readTableSwitch
  | .lookupSwitch => readLookupSwitch

/-- Reads the operands of a widened instruction: only those that name a local variable widen. -/
def readWide? : Shape → Option (Read Operand)
  | .slot => some ((fun i => .slot (.wide i)) <$> Cursor.u16)
  | .increment => some do return .increment (.wide (← Cursor.u16)) (← Cursor.i16)
  | _ => none

end Operand

/-! ## 2. Instructions -/

namespace Instruction

/-- The instruction at `pc` that ends where the cursor stands, unless its opcode has no mnemonic. -/
def endingHere (pc : Nat) (opcode : Opcode) (wide : Bool) (operand : Operand) :
    Read Instruction := do
  if opcode.mnemonic?.isNone then throw (.unknownOpcode opcode.byte pc)
  let here ← get
  return ⟨pc, opcode, wide, operand, here.position - pc⟩

/-- An opcode with a shape has a mnemonic, so no instruction is refused behind its operands. -/
theorem endingHere_of_shape {opcode : Opcode} {shape : Shape} (h : opcode.shape? = some shape)
    (pc : Nat) (wide : Bool) (operand : Operand) : endingHere pc opcode wide operand =
      do return ⟨pc, opcode, wide, operand, (← get).position - pc⟩ := by
  obtain ⟨name, hname⟩ := Opcode.exists_mnemonic? h
  unfold endingHere
  rw [hname]
  rfl

/-- Reads what a wide prefix at `pc` widens. -/
def readWidened (pc : Nat) : Read Instruction := do
  let inner ← get
  let opcode := Opcode.mk (← Cursor.u8)
  match opcode.shape?.bind Operand.readWide? with
  | some operand => endingHere pc opcode true (← operand)
  | none => throw (.unknownOpcode opcode.byte inner.position)

/-- Reads one instruction. -/
def read : Read Instruction := do
  let start ← get
  let opcode := Opcode.mk (← Cursor.u8)
  match opcode.shape? with
  | none => throw (.unknownOpcode opcode.byte start.position)
  | some .widePrefix => readWidened start.position
  | some shape => endingHere start.position opcode false (← Operand.read shape)

end Instruction

/-! ## 3. Code arrays -/

/-- What decoding got out of a code array: the instructions up to the first fault, and the fault. -/
structure DecodeSteps where
  instructions : List Instruction
  fault : Option DecodeError
  deriving DecidableEq, Repr

/-- Decodes on behind the instructions already decoded, which are kept last first. Each instruction
    takes at least one byte, so `room` need be no more than the number of bytes ahead. -/
def decodeOnto : (room : Nat) → Cursor → List Instruction → DecodeSteps
  | 0, _, done => ⟨done.reverse, none⟩
  | room + 1, c, done =>
    if c.isEmpty then ⟨done.reverse, none⟩
    else match Instruction.read c with
      | .ok (i, c') => decodeOnto room c' (i :: done)
      | .error e => ⟨done.reverse, some e⟩

/-- Decodes a code array up to its end or its first fault. -/
def decodeSteps (code : List UInt8) : DecodeSteps :=
  decodeOnto code.length (Cursor.ofBytes code 0) []

/-- Decodes a code array, all or nothing. -/
def decode (code : List UInt8) : Outcome (List Instruction) :=
  let steps := decodeSteps code
  match steps.fault with
  | none => .ok steps.instructions
  | some e => .error e

/-! ## 4. One instruction at a time -/

/-- A decoder within a code array. -/
structure Decoder where
  cursor : Cursor
  /-- An instruction could not be read. -/
  failed : Bool
  deriving DecidableEq, Repr

namespace Decoder

/-- A decoder in front of a code array. -/
def ofCode (code : List UInt8) : Decoder := ⟨Cursor.ofBytes code 0, false⟩

/-- What the decoder answers, and the decoder behind it: the next instruction or what is wrong with
    it, and nothing at the end of the code or behind a fault. -/
def next (d : Decoder) : Option (Outcome Instruction) × Decoder :=
  if d.failed || d.cursor.isEmpty then (none, d)
  else match Instruction.read d.cursor with
    | .ok (i, c) => (some (.ok i), ⟨c, false⟩)
    | .error e => (some (.error e), ⟨d.cursor, true⟩)

end Decoder

end ClassView
