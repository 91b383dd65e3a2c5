import ClassView.Listing.Code
import ClassView.Proofs.Instruction.Decoding
import ClassView.Proofs.Pool.LookUp

/-!
# Pool operands of decoded instructions

A decoded instruction may carry an index of the pool, and its opcode says what the index has to be
of. A listing follows the index under each opcode that can carry one, so the line of a decoded
instruction fails only if the entry of its index is missing or does not fit.

* `PoolUse`, `Opcode.poolUse?`: what the index behind an opcode has to be of;
* `Instruction.HasPoolFault`: the index of an instruction does not stand for what it has to;
* **`instructionLines_fails`**: the lines of a decoded instruction fail for its index alone.
-/

namespace ClassView

open Outcome

/-! ## 1. What an index has to be of -/

/-- What an index of the pool has to be of. -/
inductive PoolUse where
  | constant | field | method | anyMethod | interfaceMethod | dynamicCall | classRef
  deriving DecidableEq, Repr

/-- The opcodes with an index of the pool behind them: the first, the last and the use. -/
def Opcode.poolUseRanges : List (UInt8 × UInt8 × PoolUse) := [
  (18, 20, .constant), (178, 181, .field), (182, 182, .method), (183, 184, .anyMethod),
  (185, 185, .interfaceMethod), (186, 186, .dynamicCall), (187, 187, .classRef),
  (189, 189, .classRef), (192, 193, .classRef), (197, 197, .classRef)]

/-- What the index behind an opcode has to be of, if there is an index behind it. -/
def Opcode.poolUse? (op : Opcode) : Option PoolUse :=
  (poolUseRanges.find? (fun (first, last, _) => first ≤ op.byte && op.byte ≤ last)).map (·.2.2)

/-- The index of the pool in an operand. -/
def Operand.poolIndex? : Operand → Option UInt16
  | .index i | .wideIndex i | .interfaceCall i _ | .dynamicCall i | .multiArray i _ => some i
  | _ => none

/-- Follows an index to what it has to be of. -/
def ConstantPool.follow (pool : ConstantPool) (index : UInt16) : PoolUse → Outcome Unit
  | .constant => (fun _ => ()) <$> pool.constant index
  | .field => (fun _ => ()) <$> pool.fieldRef index
  | .method => (fun _ => ()) <$> pool.methodRef index
  | .anyMethod => (fun _ => ()) <$> pool.invocable index
  | .interfaceMethod => (fun _ => ()) <$> pool.interfaceMethodRef index
  | .dynamicCall => (fun _ => ()) <$> pool.invokeDynamic index
  | .classRef => (fun _ => ()) <$> pool.classDisplayName index

theorem ConstantPool.follow_fails (pool : ConstantPool) (index : UInt16) (use : PoolUse) :
    (pool.follow index use).FailsOnly DecodeError.IsReference := by
  cases use with
  | constant => exact (pool.constant_fails index).map
  | field => exact (pool.memberOf_fails index .field).map
  | method => exact (pool.memberOf_fails index .method).map
  | anyMethod => exact (pool.invocable_fails index).map
  | interfaceMethod => exact (pool.memberOf_fails index .interfaceMethod).map
  | dynamicCall => exact (pool.invokeDynamic_fails index).map
  | classRef => exact (pool.classDisplayName_fails index).map

/-- The index that the instruction carries does not stand for what its opcode asks for. -/
def Instruction.HasPoolFault (pool : ConstantPool) (i : Instruction) (e : DecodeError) : Prop :=
  ∃ index use, i.operand.poolIndex? = some index ∧ i.opcode.poolUse? = some use ∧
    pool.follow index use = .error e

theorem Instruction.HasPoolFault.isReference {pool : ConstantPool} {i : Instruction}
    {e : DecodeError} (h : i.HasPoolFault pool e) : e.IsReference := by
  obtain ⟨index, use, _, _, he⟩ := h
  exact pool.follow_fails index use e he

/-! ## 2. Opcodes -/

namespace Opcode

/-- The tests of a listing on opcodes tell what the index is of. -/
theorem poolUse?_of_test (op : Opcode) :
    (op.loadsConstant = true → op.poolUse? = some .constant) ∧
    (op.usesField = true → op.poolUse? = some .field) ∧
    (op.callsMethod = true → op.poolUse? = some .method) ∧
    (op.callsAnyMethod = true → op.poolUse? = some .anyMethod) ∧
    (op.usesClass = true → op.poolUse? = some .classRef) := by
  have h : ∀ b : Fin 256, let op := Opcode.mk (UInt8.ofFin b)
      (op.loadsConstant = true → op.poolUse? = some .constant) ∧
      (op.usesField = true → op.poolUse? = some .field) ∧
      (op.callsMethod = true → op.poolUse? = some .method) ∧
      (op.callsAnyMethod = true → op.poolUse? = some .anyMethod) ∧
      (op.usesClass = true → op.poolUse? = some .classRef) := by
    decide +kernel
  simpa using h op.byte.toFin

/-- An opcode of one of the shapes with nothing but an index passes one of the tests. -/
theorem passes_test (op : Opcode) (h : op.shape? = some .classIndex ∨
    op.shape? = some .memberIndex ∨ op.shape? = some .constant ∨ op.shape? = some .wideConstant) :
    op.loadsConstant = true ∨ op.usesField = true ∨ op.callsMethod = true ∨
      op.callsAnyMethod = true ∨ op.usesClass = true := by
  have htests : ∀ b : Fin 256, let op := Opcode.mk (UInt8.ofFin b)
      (op.shape? = some .classIndex ∨ op.shape? = some .memberIndex ∨
        op.shape? = some .constant ∨ op.shape? = some .wideConstant) →
      (op.loadsConstant = true ∨ op.usesField = true ∨ op.callsMethod = true ∨
        op.callsAnyMethod = true ∨ op.usesClass = true) := by
    decide +kernel
  exact htests op.byte.toFin h

/-- What the index is of behind the opcodes with more than an index. -/
theorem poolUse?_of_shape (op : Opcode) :
    (op.shape? = some .interfaceCall → op.poolUse? = some .interfaceMethod) ∧
    (op.shape? = some .dynamicCall → op.poolUse? = some .dynamicCall) ∧
    (op.shape? = some .multiArray → op.poolUse? = some .classRef) := by
  have h : ∀ b : Fin 256, let op := Opcode.mk (UInt8.ofFin b)
      (op.shape? = some .interfaceCall → op.poolUse? = some .interfaceMethod) ∧
      (op.shape? = some .dynamicCall → op.poolUse? = some .dynamicCall) ∧
      (op.shape? = some .multiArray → op.poolUse? = some .classRef) := by
    decide +kernel
  exact h op.byte.toFin

end Opcode

/-! ## 3. Lines of decoded instructions -/

/-- A decoded instruction has the operands that the shape of its opcode calls for. -/
theorem Instruction.isWellFormed_of_mem {code : List UInt8} {row : List Instruction}
    {i : Instruction} (h : decode code = .ok row) (hi : i ∈ row) :
    i.command.isWellFormed = true := by
  obtain ⟨_, _, _, _, _, hlayout⟩ := exists_of_mem_rowLayout (decode_eq_ok_iff.1 h) hi
  obtain ⟨command, _, hwf, hplace, _⟩ := hlayout
  rw [hplace]
  exact hwf

variable {pool : ConstantPool} {i : Instruction} {index : UInt16} {use : PoolUse}

/-- The operand suits the shape of the opcode, unless it is one of those that a prefix widens. -/
theorem Instruction.exists_shape {o : Operand} (h : i.command.isWellFormed = true)
    (hoperand : i.operand = o) (hnarrow : ∀ shape, o.suitsWide shape = false) :
    ∃ shape, i.opcode.shape? = some shape ∧ o.suits shape = true := by
  obtain ⟨shape, hshape, hsuits⟩ := Command.isWellFormed_iff.1 h
  have hsuits : (if i.wide then i.operand.suitsWide shape else i.operand.suits shape) = true :=
    hsuits
  rw [hoperand, hnarrow] at hsuits
  refine ⟨shape, hshape, ?_⟩
  by_cases hwide : i.wide = true
  · rw [if_pos hwide] at hsuits
    exact nomatch hsuits
  · rwa [if_neg hwide] at hsuits

/-- A look-up that is the one its opcode asks for. -/
theorem fails_as_used {α : Type} {x : Outcome α} (hindex : i.operand.poolIndex? = some index)
    (huse : i.opcode.poolUse? = some use)
    (hfollow : pool.follow index use = (fun _ => ()) <$> x) :
    x.FailsOnly (i.HasPoolFault pool) := by
  intro e he
  refine ⟨index, use, hindex, huse, ?_⟩
  rw [hfollow]
  exact map_eq_error_iff.2 he

/-- The phrase for an index fails for the index alone: behind an opcode that can carry it, the last
    branch is not reached. -/
theorem indexPhrase_fails (hindex : i.operand.poolIndex? = some index)
    (htest : i.opcode.loadsConstant = true ∨ i.opcode.usesField = true ∨
      i.opcode.callsMethod = true ∨ i.opcode.callsAnyMethod = true ∨ i.opcode.usesClass = true) :
    (indexPhrase pool i index).FailsOnly (i.HasPoolFault pool) := by
  obtain ⟨hconstant, hfield, hmethod, hany, hclass⟩ := i.opcode.poolUse?_of_test
  unfold indexPhrase
  by_cases hc : i.opcode.loadsConstant = true
  · rw [if_pos hc]
    exact (fails_as_used hindex (hconstant hc) rfl).map
  by_cases hf : i.opcode.usesField = true
  · rw [if_neg hc, if_pos hf]
    exact (fails_as_used hindex (hfield hf) rfl).map
  by_cases hm : i.opcode.callsMethod = true
  · rw [if_neg hc, if_neg hf, if_pos hm]
    exact (fails_as_used hindex (hmethod hm) rfl).map
  by_cases ha : i.opcode.callsAnyMethod = true
  · rw [if_neg hc, if_neg hf, if_neg hm, if_pos ha]
    exact (fails_as_used hindex (hany ha) rfl).map
  by_cases hu : i.opcode.usesClass = true
  · rw [if_neg hc, if_neg hf, if_neg hm, if_neg ha, if_pos hu]
    exact (fails_as_used hindex (hclass hu) rfl).map
  · simp [hc, hf, hm, ha, hu] at htest

/-- **The lines of a decoded instruction fail for the index that it carries alone.** The cases are
    the operands; those without an index cannot fail, as an element type has a name. -/
theorem instructionLines_fails (h : i.command.isWellFormed = true) :
    (instructionLines pool i).FailsOnly (i.HasPoolFault pool) := by
  obtain ⟨hinterface, hdynamic, harray⟩ := i.opcode.poolUse?_of_shape
  unfold instructionLines
  cases hoperand : i.operand with
  | nothing | reserved | slot | increment | branch | literal | tableSwitch | lookupSwitch =>
    exact FailsOnly.pure _
  | primitiveArray element =>
    obtain ⟨shape, _, hsuits⟩ := i.exists_shape h hoperand fun _ => rfl
    obtain ⟨_, hrange⟩ := of_decide_eq_true hsuits
    have hnamed := (Operand.isSome_elementTypeName? element).2 hrange
    obtain ⟨name, hname⟩ := Option.isSome_iff_exists.1 hnamed
    simp only [hname]
    exact FailsOnly.pure _
  | index place =>
    obtain ⟨shape, hop, hsuits⟩ := i.exists_shape h hoperand fun _ => rfl
    have htest := i.opcode.passes_test
    refine (indexPhrase_fails (congrArg Operand.poolIndex? hoperand) (htest ?_)).bind fun _ _ =>
      FailsOnly.pure _
    rcases of_decide_eq_true hsuits with rfl | rfl | ⟨rfl, _⟩
    · exact .inl hop
    · exact .inr (.inl hop)
    · exact .inr (.inr (.inl hop))
  | wideIndex place =>
    obtain ⟨shape, hop, hsuits⟩ := i.exists_shape h hoperand fun _ => rfl
    obtain rfl := of_decide_eq_true hsuits
    have htest := i.opcode.passes_test (.inr (.inr (.inr hop)))
    exact (indexPhrase_fails (congrArg Operand.poolIndex? hoperand) htest).bind fun _ _ =>
      FailsOnly.pure _
  | interfaceCall place count =>
    obtain ⟨shape, hop, hsuits⟩ := i.exists_shape h hoperand fun _ => rfl
    obtain rfl := of_decide_eq_true hsuits
    have hindex := congrArg Operand.poolIndex? hoperand
    exact (fails_as_used hindex (hinterface hop) rfl).bind fun _ _ => FailsOnly.pure _
  | dynamicCall place =>
    obtain ⟨shape, hop, hsuits⟩ := i.exists_shape h hoperand fun _ => rfl
    obtain rfl := of_decide_eq_true hsuits
    have hindex := congrArg Operand.poolIndex? hoperand
    exact (fails_as_used hindex (hdynamic hop) rfl).bind fun _ _ => FailsOnly.pure _
  | multiArray place dimensions =>
    obtain ⟨shape, hop, hsuits⟩ := i.exists_shape h hoperand fun _ => rfl
    obtain rfl := of_decide_eq_true hsuits
    have hindex := congrArg Operand.poolIndex? hoperand
    exact (fails_as_used hindex (harray hop) rfl).bind fun _ _ => FailsOnly.pure _

end ClassView
