import ClassView.Instruction.Opcode

/-!
# Instructions

One instruction of a code array: where it starts, its opcode, its operands and how many bytes it
takes. A branch offset counts from the start of its instruction, so a target is a whole number that
may lie outside the code, even before it.
-/

namespace ClassView

/-! ## 1. Operands -/

/-- A local variable, named by one byte or, behind a wide prefix, by two. -/
inductive Slot where
  | narrow (index : UInt8)
  | wide (index : UInt16)
  deriving DecidableEq, Repr

/-- The number of a local variable. -/
def Slot.index : Slot → Nat
  | .narrow i => i.toNat
  | .wide i => i.toNat

/-- The distance from a branch to its target. -/
inductive BranchOffset where
  | short (offset : Int16)
  | long (offset : Int32)
  deriving DecidableEq, Repr

/-- The distance as a whole number. -/
def BranchOffset.value : BranchOffset → Int
  | .short o => o.toInt
  | .long o => o.toInt

/-- A number that stands in the code itself. -/
inductive Literal where
  | byte (value : Int8)
  | short (value : Int16)
  deriving DecidableEq, Repr

/-- The value of a literal. -/
def Literal.value : Literal → Int
  | .byte v => v.toInt
  | .short v => v.toInt

/-- What an instruction carries behind its opcode. -/
inductive Operand where
  | nothing
  /-- A pool index, stored in two bytes or, for a short load, in one. -/
  | index (index : UInt16)
  /-- The pool index of a constant, stored in two bytes. -/
  | wideIndex (index : UInt16)
  | slot (slot : Slot)
  | increment (slot : Slot) (amount : Int16)
  | branch (offset : BranchOffset)
  | literal (value : Literal)
  /-- The code of an element type. -/
  | primitiveArray (element : UInt8)
  | interfaceCall (index : UInt16) (count : UInt8)
  | dynamicCall (index : UInt16)
  | multiArray (index : UInt16) (dimensions : UInt8)
  /-- Offsets for the keys from `low` up to `high`. -/
  | tableSwitch (default low high : Int32) (offsets : List Int32)
  /-- Keys with their offsets, in the order they are stored. -/
  | lookupSwitch (default : Int32) (pairs : List (Int32 × Int32))
  | reserved
  deriving DecidableEq, Repr

/-! ## 2. Instructions -/

/-- One decoded instruction. Behind a wide prefix, the opcode is that of the instruction that is
    widened. -/
structure Instruction where
  /-- Where it starts in the code. -/
  pc : Nat
  opcode : Opcode
  wide : Bool
  operand : Operand
  /-- The bytes it takes, with prefix and padding. -/
  width : Nat
  deriving DecidableEq, Repr

namespace Instruction

/-- The mnemonic of the opcode. -/
def mnemonic (i : Instruction) : String := i.opcode.mnemonic

/-- The mnemonic, marked if the instruction is widened. -/
def name (i : Instruction) : String := if i.wide then i.mnemonic ++ "_w" else i.mnemonic

/-- The place in the code that lies `offset` bytes from the instruction. -/
def target (i : Instruction) (offset : Int) : Int := i.pc + offset

/-- Where the instruction may continue other than behind itself: the target of a branch; of a
    switch the default and then each case in the order stored. -/
def targets? (i : Instruction) : Option (List Int) :=
  match i.operand with
  | .branch offset => some [i.target offset.value]
  | .tableSwitch default _ _ offsets =>
    some ((default :: offsets).map (fun o => i.target o.toInt))
  | .lookupSwitch default pairs =>
    some ((default :: pairs.map (·.2)).map (fun o => i.target o.toInt))
  | _ => none

end Instruction

end ClassView
