import ClassView.Instruction.Basic
import ClassView.Proofs.Layout

/-!
# Instructions as bytes

The way back from instructions to a code array. A `Command` is an instruction that has no place
yet; at a given pc it becomes an `Instruction` (`Command.place`) and a row of bytes
(`Command.bytes`), and both depend on the pc, since a switch is padded to a multiple of four. What
stands at a place without meaning is up to a `fill`, which gives a byte to every place of the code.

* `Operand.suits`, `Operand.suitsWide`: the operands that a shape of opcode calls for;
* `Command.isWellFormed`, `Command.bytes`: a command with fitting operands, and its bytes at a pc;
* `Command.width`: how many they are, from the table of widths where that has an entry;
* `Program.place`, `Program.bytes`: commands laid out back to back.
-/

namespace ClassView

/-! ## 1. Operands -/

/-- The bytes at `count` places from `start` on. -/
def fillBytes (fill : Nat → UInt8) (start count : Nat) : List UInt8 :=
  (List.range count).map fun k => fill (start + k)

@[simp] theorem length_fillBytes (fill : Nat → UInt8) (start count : Nat) :
    (fillBytes fill start count).length = count := by
  rw [fillBytes, List.length_map, List.length_range]

/-- Every row of bytes stands in some fill. -/
theorem exists_fillBytes (start : Nat) (bytes : List UInt8) :
    ∃ fill, fillBytes fill start bytes.length = bytes := by
  refine ⟨fun place => bytes.getD (place - start) 0, List.ext_getElem (by simp) ?_⟩
  intro k _ hk
  simp [fillBytes, hk]

/-- The variable is named by two bytes. -/
@[simp] def Slot.isWide : Slot → Bool
  | .narrow _ => false
  | .wide _ => true

/-- The shape of the opcodes whose distance takes as many bytes. -/
@[simp] def BranchOffset.shape : BranchOffset → Shape
  | .short _ => .branch
  | .long _ => .wideBranch

/-- The shape of the opcodes whose number takes as many bytes. -/
@[simp] def Literal.shape : Literal → Shape
  | .byte _ => .byteLiteral
  | .short _ => .shortLiteral

namespace Operand

/-- How many bytes lie between an opcode at `pc` and the next multiple of four. -/
def padding (pc : Nat) : Nat := 3 - pc % 4

/-- The operand is one that a shape calls for without a wide prefix. -/
@[simp] def suits (shape : Shape) : Operand → Bool
  | .nothing => shape = .plain ∨ shape = .impliedSlot
  | .index i =>
    shape = .classIndex ∨ shape = .memberIndex ∨ (shape = .constant ∧ i.toNat < 256)
  | .wideIndex _ => shape = .wideConstant
  | .slot s => shape = .slot ∧ s.isWide = false
  | .increment s amount =>
    shape = .increment ∧ s.isWide = false ∧ -128 ≤ amount.toInt ∧ amount.toInt ≤ 127
  | .branch offset => shape = offset.shape
  | .literal value => shape = value.shape
  | .primitiveArray element => shape = .primitiveArray ∧ 4 ≤ element ∧ element ≤ 11
  | .interfaceCall _ _ => shape = .interfaceCall
  | .dynamicCall _ => shape = .dynamicCall
  | .multiArray _ _ => shape = .multiArray
  | .tableSwitch _ low high offsets =>
    shape = .tableSwitch ∧ low ≤ high ∧ (offsets.length : Int) = high.toInt - low.toInt + 1
  | .lookupSwitch _ pairs => shape = .lookupSwitch ∧ pairs.length < 2147483648
  | .reserved => shape = .reserved

/-- The operand is one that a shape calls for behind a wide prefix. -/
@[simp] def suitsWide (shape : Shape) : Operand → Bool
  | .slot s => shape = .slot ∧ s.isWide = true
  | .increment s _ => shape = .increment ∧ s.isWide = true
  | _ => false

/-- The key and the offset of one case. -/
def pairBytes (pair : Int32 × Int32) : List UInt8 := BigEndian.i32 pair.1 ++ BigEndian.i32 pair.2

/-- The bytes behind an opcode at `pc` that has the shape. -/
@[simp] def bytes (fill : Nat → UInt8) (pc : Nat) (shape : Shape) : Operand → List UInt8
  | .nothing | .reserved => []
  | .index i => if shape = .constant then BigEndian.u8 i.toUInt8 else BigEndian.u16 i
  | .wideIndex i => BigEndian.u16 i
  | .slot (.narrow i) => BigEndian.u8 i
  | .slot (.wide i) => BigEndian.u16 i
  | .increment (.narrow i) amount => BigEndian.u8 i ++ BigEndian.i8 amount.toInt8
  | .increment (.wide i) amount => BigEndian.u16 i ++ BigEndian.i16 amount
  | .branch (.short offset) => BigEndian.i16 offset
  | .branch (.long offset) => BigEndian.i32 offset
  | .literal (.byte value) => BigEndian.i8 value
  | .literal (.short value) => BigEndian.i16 value
  | .primitiveArray element => BigEndian.u8 element
  | .interfaceCall i count =>
    BigEndian.u16 i ++ (BigEndian.u8 count ++ fillBytes fill (pc + 4) 1)
  | .dynamicCall i => BigEndian.u16 i ++ fillBytes fill (pc + 3) 2
  | .multiArray i dimensions => BigEndian.u16 i ++ BigEndian.u8 dimensions
  | .tableSwitch default low high offsets =>
    fillBytes fill (pc + 1) (padding pc) ++ (BigEndian.i32 default ++ (BigEndian.i32 low ++
      (BigEndian.i32 high ++ offsets.flatMap BigEndian.i32)))
  | .lookupSwitch default pairs =>
    fillBytes fill (pc + 1) (padding pc) ++ (BigEndian.i32 default ++
      (BigEndian.i32 (Int32.ofNat pairs.length) ++ pairs.flatMap pairBytes))

@[simp] theorem length_pairBytes (pair : Int32 × Int32) : (pairBytes pair).length = 8 := by
  rw [pairBytes, List.length_append, BigEndian.length_i32, BigEndian.length_i32]

end Operand

/-! ## 2. Commands -/

/-- An instruction that has no place yet. -/
structure Command where
  opcode : Opcode
  /-- It stands behind a wide prefix. -/
  wide : Bool
  operand : Operand
  deriving DecidableEq, Repr

namespace Command

/-- The opcode is known, and the operand is one that its shape calls for. -/
def isWellFormed (c : Command) : Bool :=
  match c.opcode.shape? with
  | some shape => if c.wide then c.operand.suitsWide shape else c.operand.suits shape
  | none => false

theorem isWellFormed_iff {c : Command} :
    c.isWellFormed = true ↔ ∃ shape, c.opcode.shape? = some shape ∧
      (if c.wide then c.operand.suitsWide shape else c.operand.suits shape) = true := by
  unfold isWellFormed
  cases c.opcode.shape? with
  | none => simp
  | some shape => simp

/-- How many bytes a command takes at `pc`. -/
@[simp] def width (pc : Nat) (c : Command) : Nat :=
  match c.operand with
  | .slot (.wide _) => 4
  | .increment (.wide _) _ => 6
  | .tableSwitch _ low high _ =>
    1 + Operand.padding pc + 12 + 4 * (high.toInt - low.toInt + 1).toNat
  | .lookupSwitch _ pairs => 1 + Operand.padding pc + 8 + 8 * pairs.length
  | _ => (c.opcode.shape?.bind Shape.width?).getD 0

/-- The opcode that stands before the opcode of a widened command. -/
def wideOpcode : Opcode := ⟨196⟩

/-- The bytes of a command at `pc`. -/
@[simp] def bytes (fill : Nat → UInt8) (pc : Nat) (c : Command) : List UInt8 :=
  let behind := c.operand.bytes fill pc (c.opcode.shape?.getD .plain)
  if c.wide then wideOpcode.byte :: c.opcode.byte :: behind else c.opcode.byte :: behind

/-- The instruction that a command is at `pc`. -/
def place (pc : Nat) (c : Command) : Instruction :=
  ⟨pc, c.opcode, c.wide, c.operand, c.width pc⟩

end Command

/-- What an instruction is without its place. -/
def Instruction.command (i : Instruction) : Command := ⟨i.opcode, i.wide, i.operand⟩

/-! ## 3. Programs -/

namespace Program

/-- The instructions that commands are back to back from `pc` on. -/
def place : (pc : Nat) → List Command → List Instruction
  | _, [] => []
  | pc, c :: rest => c.place pc :: place (pc + c.width pc) rest

/-- The bytes of commands back to back from `pc` on. -/
def bytes (fill : Nat → UInt8) : (pc : Nat) → List Command → List UInt8
  | _, [] => []
  | pc, c :: rest => c.bytes fill pc ++ bytes fill (pc + c.width pc) rest

end Program

end ClassView
