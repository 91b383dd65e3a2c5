import ClassView.Instruction.Decoder
import ClassView.Proofs.Extent
import ClassView.Proofs.Stability

/-!
# Instructions and the bytes that follow

Instructions are read from front to back, so the reader of an instruction is stable. Two steps of it
look further than they move. A switch asks for the bytes of all its cases before it reads the first
of them, and reads all of them if they are there; and the padding of a switch depends on where it
stands, but not on what lies behind.

* `Stable.expect`: bytes that are asked for before they are read;
* `Operand.stable_read`, `Operand.stable_readWide?`: the operands of all shapes;
* **`Instruction.stable_read`**: the same for an instruction;
* `Instruction.short_of_read`: where an instruction runs out, it does so behind its first byte.
-/

namespace ClassView

/-! ## 1. Bytes that are asked for -/

/-- Asking for bytes in front of a reader. -/
theorem Cursor.expect_bind_apply {α : Type} (n : Nat) (next : Unit → Read α) (c : Cursor) :
    (expect n >>= next) c =
      if n ≤ c.remaining then next () c else .error (.truncatedInput c.offset) := by
  rw [bind_apply, expect]
  by_cases h : n ≤ c.remaining
  · rw [if_pos ((c.holds_iff n).2 h), if_pos h]
  · rw [if_neg (mt (c.holds_iff n).1 h), if_neg h]

namespace Stable

variable {α : Type}

/-- What is asked for and then taken might as well not have been asked for, but for the place of the
    fault. -/
theorem expect {n : Nat} {next : Unit → Read α} (h : Stable (next ()))
    (htakes : ∀ c, Takes (next ()) n c) : Stable (Cursor.expect n >>= next) where
  passes {c _ _} hok := by
    rw [Cursor.expect_bind_apply] at hok
    split at hok
    · exact h.passes hok
    · cases hok
  ok_extend {c _ _} more hok := by
    rw [Cursor.expect_bind_apply] at hok
    split at hok
    · rename_i hn
      rw [Cursor.expect_bind_apply, Cursor.remaining_extend, if_pos (Nat.le_add_right_of_le hn)]
      exact h.ok_extend more hok
    · cases hok
  error_extend {c _} more herror he := by
    rw [Cursor.expect_bind_apply] at herror
    split at herror
    · rename_i hn
      rw [Cursor.expect_bind_apply, Cursor.remaining_extend, if_pos (Nat.le_add_right_of_le hn)]
      exact h.error_extend more herror he
    · cases herror
      exact absurd trivial he
  short {c _} herror he := by
    rw [Cursor.expect_bind_apply] at herror
    split at herror
    · exact h.short herror he
    · cases herror
      exact ⟨c.offset, rfl, Nat.le_refl _, Nat.le_add_right _ _⟩
  ok_cut {c c' _} more hok hstop := by
    rw [Cursor.expect_bind_apply] at hok
    split at hok
    · rename_i hn
      -- all of what was asked for was taken, so it lies in front of the cut
      obtain ⟨_, htaken⟩ := (htakes (c.extend more)).fits hn
      have hbehind : c' = (c.extend more).advance n :=
        (Prod.mk.inj (Except.ok.inj (hok.symm.trans htaken))).2
      have hahead : n ≤ c.remaining := by
        rw [hbehind, Cursor.offset_advance, Cursor.offset_extend, Cursor.stop] at hstop
        exact Nat.le_of_add_le_add_left hstop
      obtain ⟨mid, hmid⟩ := h.ok_cut more hok hstop
      refine ⟨mid, ?_⟩
      rw [Cursor.expect_bind_apply, if_pos hahead]
      exact hmid
    · cases hok
  error_cut {c _} more herror _ := by
    rw [Cursor.expect_bind_apply] at herror
    split at herror
    · rename_i hn
      obtain ⟨_, htaken⟩ := (htakes (c.extend more)).fits hn
      cases htaken.symm.trans herror
    · rename_i hn
      rw [Cursor.remaining_extend] at hn
      rw [Cursor.expect_bind_apply, if_neg fun hle => hn (Nat.le_add_right_of_le hle)]
      exact herror

theorem skip (n : Nat) : Stable (Cursor.skip n) := (take n).bind fun _ => pure ()

theorem i8 : Stable Cursor.i8 := u8.map _

theorem i16 : Stable Cursor.i16 := u16.map _

end Stable

/-! ## 2. Operands -/

namespace Operand

theorem malformed_not_isAboutEnd (name : AttributeName) :
    ¬ (DecodeError.malformedAttribute name).IsAboutEnd := id

/-- The padding depends on the position alone. -/
theorem stable_align : Stable align :=
  Stable.get (fun c => Stable.skip ((4 - c.position % 4) % 4)) fun _ _ => rfl

theorem stable_readTableSwitch : Stable readTableSwitch := by
  refine stable_align.bind fun _ => Stable.i32.bind fun default => Stable.i32.bind fun low =>
    Stable.i32.bind fun high => Stable.guard (malformed_not_isAboutEnd _) ?_
  refine Stable.expect ((Stable.i32.times _).map _) fun c => ?_
  rw [Nat.mul_comm]
  exact (Takes.times Takes.i32 _ c).map _

theorem stable_readLookupSwitch : Stable readLookupSwitch := by
  have hpair : Stable (do return (← Cursor.i32, ← Cursor.i32) : Read (Int32 × Int32)) :=
    Stable.i32.bind fun _ => Stable.i32.map _
  have htakes : ∀ c, Takes (do return (← Cursor.i32, ← Cursor.i32) : Read (Int32 × Int32)) 8 c :=
    fun c => (Takes.i32 c).bind fun _ _ _ => (Takes.i32 _).map _
  refine stable_align.bind fun _ => Stable.i32.bind fun default => Stable.i32.bind fun count =>
    Stable.guard (malformed_not_isAboutEnd _) ?_
  refine Stable.expect ((hpair.times _).map _) fun c => ?_
  rw [Nat.mul_comm]
  exact (Takes.times htakes _ c).map _

theorem stable_readPrimitiveArray : Stable readPrimitiveArray :=
  Stable.u8.bind fun _ => Stable.guard (malformed_not_isAboutEnd _) (Stable.pure _)

/-- **The operands of every shape are read from front to back.** -/
theorem stable_read (shape : Shape) : Stable (read shape) := by
  cases shape with
  | plain | impliedSlot | widePrefix | reserved => exact Stable.pure _
  | byteLiteral => exact Stable.i8.map _
  | shortLiteral | branch => exact Stable.i16.map _
  | slot | constant => exact Stable.u8.map _
  | wideConstant | classIndex | memberIndex => exact Stable.u16.map _
  | wideBranch => exact Stable.i32.map _
  | interfaceCall =>
    exact Stable.u16.bind fun _ => Stable.u8.bind fun _ => (Stable.skip 1).bind fun _ =>
      Stable.pure _
  | dynamicCall => exact Stable.u16.bind fun _ => (Stable.skip 2).bind fun _ => Stable.pure _
  | increment => exact Stable.u8.bind fun _ => Stable.i8.bind fun _ => Stable.pure _
  | multiArray => exact Stable.u16.bind fun _ => Stable.u8.bind fun _ => Stable.pure _
  | primitiveArray => exact stable_readPrimitiveArray
  | tableSwitch => exact stable_readTableSwitch
  | lookupSwitch => exact stable_readLookupSwitch

theorem stable_readWide? {shape : Shape} {read : Read Operand} (h : readWide? shape = some read) :
    Stable read := by
  cases shape with
  | slot =>
    cases h
    exact Stable.u16.map _
  | increment =>
    cases h
    exact Stable.u16.bind fun _ => Stable.i16.bind fun _ => Stable.pure _
  | _ => exact nomatch h

end Operand

/-! ## 3. Instructions -/

namespace Instruction

variable {c : Cursor} {e : DecodeError}

theorem stable_endingHere {opcode : Opcode} {shape : Shape} (h : opcode.shape? = some shape)
    (pc : Nat) (wide : Bool) (operand : Operand) :
    Stable (endingHere pc opcode wide operand) := by
  rw [endingHere_of_shape h]
  exact Stable.get (fun _ => Stable.pure _) fun _ _ => rfl

theorem stable_readWidened (pc : Nat) : Stable (readWidened pc) := by
  refine Stable.get (fun inner => Stable.u8.bind fun byte => ?_) fun _ _ => rfl
  dsimp only
  split
  · rename_i read hread
    obtain ⟨shape, hshape, hwide⟩ := Option.bind_eq_some_iff.1 hread
    exact (Operand.stable_readWide? hwide).bind fun operand => stable_endingHere hshape _ _ operand
  · exact Stable.throw id

/-- Reads what stands behind the first byte of an instruction at `pc`. -/
def readBehind (pc : Nat) (opcode : Opcode) : Read Instruction :=
  match opcode.shape? with
  | none => throw (.unknownOpcode opcode.byte pc)
  | some .widePrefix => readWidened pc
  | some shape => do endingHere pc opcode false (← Operand.read shape)

theorem read_eq : read =
    get >>= fun start => Cursor.u8 >>= fun byte => readBehind start.position ⟨byte⟩ := rfl

theorem stable_readBehind (pc : Nat) (opcode : Opcode) : Stable (readBehind pc opcode) := by
  unfold readBehind
  split
  · exact Stable.throw id
  · exact stable_readWidened pc
  · rename_i hshape
    exact (Operand.stable_read _).bind fun operand => stable_endingHere hshape _ _ operand

/-- **An instruction is read from front to back.** -/
theorem stable_read : Stable read := by
  rw [read_eq]
  exact Stable.get (fun start => Stable.u8.bind fun byte => stable_readBehind _ _) fun _ _ => rfl

theorem exists_u8 (h : ¬ c.isEmpty = true) : ∃ byte, Cursor.u8 c = .ok (byte, c.advance 1) := by
  have hone : 1 ≤ c.remaining := List.length_pos_iff.2 (mt List.isEmpty_iff.2 h)
  have htake := Cursor.take_of_le hone
  exact ⟨_, Cursor.map_eq_ok_iff.2 ⟨_, Cursor.map_eq_ok_iff.2 ⟨_, htake, rfl⟩, rfl⟩⟩

/-- Where the bytes of an instruction run out, they do so behind the first of them. -/
theorem short_of_read (hempty : ¬ c.isEmpty = true) (h : read c = .error e) (he : e.IsAboutEnd) :
    ∃ o, e = .truncatedInput o ∧ c.offset < o ∧ o ≤ c.stop := by
  obtain ⟨byte, hbyte⟩ := exists_u8 hempty
  rw [read_eq, Cursor.get_bind_apply, Cursor.bind_of_ok hbyte] at h
  obtain ⟨o, rfl, hlt, hstop⟩ := (stable_readBehind _ _).short h he
  obtain ⟨x, hx⟩ := Stable.u8.passes hbyte
  rw [Cursor.offset_advance] at hlt
  exact ⟨o, rfl, hlt, hx.stop ▸ hstop⟩

end Instruction

end ClassView
