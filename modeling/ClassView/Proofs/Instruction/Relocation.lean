import ClassView.Proofs.Instruction.Truncation

/-!
# Code arrays put together

What is decoded of a code array does not change when the code is moved to another place, as long as
the place is a multiple of four bytes away: the instructions are the same at another pc, and so is
what is wrong with them. The padding of a switch is the only thing that depends on the place, and it
depends on the place modulo four.

* `Cursor.moved`, `Instruction.moved`, `DecodeError.moved`: places that are further on;
* `Moves`, **`Moves.bind`**: two readers that do the same at places so far apart, also in a row;
* **`Instruction.moves_read`**: an instruction is read the same way further on;
* `Instruction.layout_at`: the bytes of an instruction are the same wherever the pc is the same
  modulo four;
* **`decodeSteps_append`**: what is decoded of two code arrays put together.
-/

namespace ClassView

/-! ## 1. Places further on -/

/-- The same bytes ahead, `n` places further on. -/
def Cursor.moved (n : Nat) (c : Cursor) : Cursor := ⟨c.rest, c.position + n, c.base⟩

/-- The same instruction, `n` places further on. -/
def Instruction.moved (n : Nat) (i : Instruction) : Instruction := { i with pc := i.pc + n }

/-- The same fault, told for a place `n` further on. -/
def DecodeError.moved (n : Nat) : DecodeError → DecodeError
  | .truncatedInput o => .truncatedInput (o + n)
  | .unknownOpcode opcode pc => .unknownOpcode opcode (pc + n)
  | e => e

namespace Cursor

variable {n : Nat} {c : Cursor}

theorem offset_moved : (c.moved n).offset = c.offset + n := (Nat.add_assoc _ _ _).symm

theorem advance_moved (k : Nat) : (c.moved n).advance k = (c.advance k).moved n := by
  unfold advance moved
  rw [Nat.add_right_comm]

theorem holds_moved (k : Nat) : (c.moved n).holds k = c.holds k := rfl

end Cursor

/-! ## 2. Readers at two places -/

/-- The second reader does `n` places further on what the first one does, and what the one answers
    is `f` of what the other answers. -/
def Moves {α β : Type} (n : Nat) (f : α → β) (read : Read α) (read' : Read β) : Prop :=
  ∀ c, read' (c.moved n) =
    match read c with
    | .ok (a, c') => .ok (f a, c'.moved n)
    | .error e => .error (e.moved n)

namespace Moves

variable {α β γ δ : Type} {n : Nat} {f : α → β} {g : γ → δ} {read : Read α} {read' : Read β}

theorem ok_moved {c c' : Cursor} {a : α} (h : Moves n f read read') (hok : read c = .ok (a, c')) :
    read' (c.moved n) = .ok (f a, c'.moved n) := by
  rw [h, hok]

theorem error_moved {c : Cursor} {e : DecodeError} (h : Moves n f read read')
    (herror : read c = .error e) : read' (c.moved n) = .error (e.moved n) := by
  rw [h, herror]

theorem pure (a : α) : Moves n f (Pure.pure a) (Pure.pure (f a)) := fun _ => rfl

theorem throw (e : DecodeError) :
    Moves n f (MonadExcept.throw e) (MonadExcept.throw (e.moved n)) := fun _ => rfl

/-- **Two readers in a row do the same further on** if each of them does. -/
theorem bind {next : α → Read γ} {next' : β → Read δ} (h : Moves n f read read')
    (hnext : ∀ a, Moves n g (next a) (next' (f a))) :
    Moves n g (read >>= next) (read' >>= next') := by
  intro c
  rw [Cursor.bind_apply, Cursor.bind_apply, h c]
  cases read c with
  | ok p => exact hnext p.1 p.2
  | error e => rfl

theorem map {read' : Read α} (g : α → γ) (h : Moves n id read read') :
    Moves n id (g <$> read) (g <$> read') := by
  have hbind : Moves n id (read >>= fun a => Pure.pure (g a))
      (read' >>= fun a => Pure.pure (g a)) := h.bind fun a => pure (g a)
  exact hbind

/-- Asking for the cursor, of which the place may count. -/
theorem get {next : Cursor → Read α} {next' : Cursor → Read β}
    (h : ∀ c, Moves n f (next c) (next' (c.moved n))) :
    Moves n f (MonadState.get >>= next) (MonadState.get >>= next') := fun c => h c c

/-- A test that stops both readers. -/
theorem guard {bad : Prop} [Decidable bad] {e : DecodeError} {next : Unit → Read α}
    {next' : Unit → Read β} (he : e.moved n = e) (h : Moves n f (next ()) (next' ())) :
    Moves n f (if bad then MonadExcept.throw e >>= next else next ())
      (if bad then MonadExcept.throw e >>= next' else next' ()) := by
  by_cases hbad : bad
  · rw [if_pos hbad, if_pos hbad]
    have hthrow := throw (n := n) (f := (id : Unit → Unit)) e
    rw [he] at hthrow
    exact hthrow.bind fun _ => h
  · rw [if_neg hbad, if_neg hbad]
    exact h

theorem take (k : Nat) : Moves n id (Cursor.take k) (Cursor.take k) := by
  intro c
  unfold Cursor.take
  rw [Cursor.holds_moved, Cursor.advance_moved, Cursor.offset_moved]
  by_cases h : c.holds k = true
  · rw [if_pos h, if_pos h]
    rfl
  · rw [if_neg h, if_neg h]
    rfl

theorem expect (k : Nat) : Moves n id (Cursor.expect k) (Cursor.expect k) := by
  intro c
  unfold Cursor.expect
  rw [Cursor.holds_moved, Cursor.offset_moved]
  by_cases h : c.holds k = true
  · rw [if_pos h, if_pos h]
  · rw [if_neg h, if_neg h]
    rfl

theorem skip (k : Nat) : Moves n id (Cursor.skip k) (Cursor.skip k) :=
  (take k).bind fun _ => pure ()

theorem u8 : Moves n id Cursor.u8 Cursor.u8 := ((take 1).map _).map _

theorem u16 : Moves n id Cursor.u16 Cursor.u16 := ((take 2).map _).map _

theorem i8 : Moves n id Cursor.i8 Cursor.i8 := u8.map _

theorem i16 : Moves n id Cursor.i16 Cursor.i16 := u16.map _

theorem i32 : Moves n id Cursor.i32 Cursor.i32 := (((take 4).map _).map _).map _

theorem times {item : Read α} (h : Moves n id item item) (count : Nat) :
    Moves n id (Cursor.times count item) (Cursor.times count item) := by
  induction count with
  | zero => exact pure []
  | succ count ih =>
    rw [Cursor.times_succ_bind]
    exact h.bind fun a => ih.map (a :: ·)

end Moves

/-! ## 3. Operands and instructions -/

section Instructions

variable {n : Nat}

namespace Operand

/-- The padding is the same a multiple of four bytes further on. -/
theorem moves_align (h : n % 4 = 0) : Moves n id align align := by
  refine Moves.get fun c => ?_
  have hpadding : (4 - (c.position + n) % 4) % 4 = (4 - c.position % 4) % 4 := by omega
  show Moves n id (Cursor.skip _) (Cursor.skip ((4 - (c.position + n) % 4) % 4))
  rw [hpadding]
  exact Moves.skip _

/-- The operands of every shape are read the same way further on. -/
theorem moves_read (h : n % 4 = 0) (shape : Shape) : Moves n id (read shape) (read shape) := by
  cases shape with
  | plain | impliedSlot | widePrefix | reserved => exact Moves.pure _
  | byteLiteral => exact Moves.i8.map _
  | shortLiteral | branch => exact Moves.i16.map _
  | slot | constant => exact Moves.u8.map _
  | wideConstant | classIndex | memberIndex => exact Moves.u16.map _
  | wideBranch => exact Moves.i32.map _
  | interfaceCall =>
    exact Moves.u16.bind fun _ => Moves.u8.bind fun _ => (Moves.skip 1).bind fun _ => Moves.pure _
  | dynamicCall => exact Moves.u16.bind fun _ => (Moves.skip 2).bind fun _ => Moves.pure _
  | increment => exact Moves.u8.bind fun _ => Moves.i8.bind fun _ => Moves.pure _
  | multiArray => exact Moves.u16.bind fun _ => Moves.u8.bind fun _ => Moves.pure _
  | primitiveArray => exact Moves.u8.bind fun _ => Moves.guard rfl (Moves.pure _)
  | tableSwitch =>
    exact (moves_align h).bind fun _ => Moves.i32.bind fun _ => Moves.i32.bind fun _ =>
      Moves.i32.bind fun _ => Moves.guard rfl ((Moves.expect _).bind fun _ =>
        (Moves.i32.times _).map _)
  | lookupSwitch =>
    have hpair : Moves n id (do return (← Cursor.i32, ← Cursor.i32) : Read (Int32 × Int32))
        (do return (← Cursor.i32, ← Cursor.i32)) := Moves.i32.bind fun _ => Moves.i32.map _
    exact (moves_align h).bind fun _ => Moves.i32.bind fun _ => Moves.i32.bind fun _ =>
      Moves.guard rfl ((Moves.expect _).bind fun _ => (hpair.times _).map _)

theorem moves_readWide? {shape : Shape} {read : Read Operand} (h : readWide? shape = some read) :
    Moves n id read read := by
  cases shape with
  | slot =>
    cases h
    exact Moves.u16.map _
  | increment =>
    cases h
    exact Moves.u16.bind fun _ => Moves.i16.bind fun _ => Moves.pure _
  | _ => exact nomatch h

end Operand

namespace Instruction

theorem moves_endingHere {opcode : Opcode} {shape : Shape} (h : opcode.shape? = some shape)
    (pc : Nat) (wide : Bool) (operand : Operand) :
    Moves n (moved n) (endingHere pc opcode wide operand)
      (endingHere (pc + n) opcode wide operand) := by
  rw [endingHere_of_shape h, endingHere_of_shape h]
  refine Moves.get fun c => ?_
  have hwidth : c.position + n - (pc + n) = c.position - pc := Nat.add_sub_add_right _ _ _
  show Moves n (moved n) _ (Pure.pure ⟨pc + n, opcode, wide, operand, c.position + n - (pc + n)⟩)
  rw [hwidth]
  exact Moves.pure (f := moved n) ⟨pc, opcode, wide, operand, c.position - pc⟩

theorem moves_readWidened (pc : Nat) :
    Moves n (moved n) (readWidened pc) (readWidened (pc + n)) := by
  refine Moves.get fun inner => Moves.u8.bind fun byte => ?_
  simp only [id]
  cases hread : (Opcode.mk byte).shape?.bind Operand.readWide? with
  | none => exact Moves.throw (.unknownOpcode byte inner.position)
  | some operand =>
    obtain ⟨shape, hshape, hwide⟩ := Option.bind_eq_some_iff.1 hread
    exact (Operand.moves_readWide? hwide).bind fun o => moves_endingHere hshape pc true o

theorem moves_readBehind (h : n % 4 = 0) (pc : Nat) (opcode : Opcode) :
    Moves n (moved n) (readBehind pc opcode) (readBehind (pc + n) opcode) := by
  unfold readBehind
  split
  · exact Moves.throw (.unknownOpcode opcode.byte pc)
  · exact moves_readWidened pc
  · rename_i hshape
    exact (Operand.moves_read h _).bind fun o => moves_endingHere hshape pc false o

/-- **An instruction is read the same way a multiple of four bytes further on**, and so is one that
    cannot be read. -/
theorem moves_read (h : n % 4 = 0) : Moves n (moved n) read read := by
  rw [read_eq]
  exact Moves.get fun c => Moves.u8.bind fun byte => moves_readBehind h c.position ⟨byte⟩

/-! ## 4. Runs -/

/-- **A run is the same further on.** -/
theorem Runs.moved {c mid : Cursor} {row : List Instruction} (hn : n % 4 = 0)
    (h : Runs c row mid) : Runs (c.moved n) (row.map (Instruction.moved n)) (mid.moved n) := by
  induction h with
  | stop c => exact .stop _
  | step first _ ih => exact .step ((moves_read hn).ok_moved first) ih

theorem Ends.moved {c : Cursor} {fault : Option DecodeError} (hn : n % 4 = 0)
    (h : Ends c fault) : Ends (c.moved n) (fault.map (DecodeError.moved n)) := by
  cases fault with
  | none => exact h
  | some e => exact ⟨h.1, (moves_read hn).error_moved h.2⟩

end Instruction

end Instructions

/-! ## 5. The bytes of an instruction at another pc -/

section Places

variable {pc pc' : Nat}

/-- The fill that has at places from `pc'` on what the given one has from `pc` on. -/
def fillAt (fill : Nat → UInt8) (pc pc' : Nat) : Nat → UInt8 := fun place => fill (place - pc' + pc)

theorem fillBytes_fillAt (fill : Nat → UInt8) (start count : Nat) :
    fillBytes (fillAt fill pc pc') (pc' + start) count = fillBytes fill (pc + start) count := by
  refine List.map_congr_left fun k _ => congrArg fill ?_
  omega

theorem Operand.padding_at (h : pc' % 4 = pc % 4) : padding pc' = padding pc := by
  rw [padding, padding, h]

theorem Operand.bytes_at (h : pc' % 4 = pc % 4) (fill : Nat → UInt8) (shape : Shape)
    (o : Operand) : o.bytes (fillAt fill pc pc') pc' shape = o.bytes fill pc shape := by
  cases o using Operand.cases_forms <;> simp only [bytes, fillBytes_fillAt, padding_at h]

theorem Command.bytes_at (h : pc' % 4 = pc % 4) (fill : Nat → UInt8) (c : Command) :
    c.bytes (fillAt fill pc pc') pc' = c.bytes fill pc := by
  simp only [bytes, Operand.bytes_at h]

theorem Command.width_at (h : pc' % 4 = pc % 4) (c : Command) : c.width pc' = c.width pc := by
  simp only [width, Operand.padding_at h]

/-- **The bytes of an instruction are those of the same one at another pc** that is the same modulo
    four. -/
theorem Instruction.layout_at {i : Instruction} {x : List UInt8} (h : pc' % 4 = pc % 4)
    (hi : layout pc i x) : layout pc' { i with pc := pc' } x := by
  obtain ⟨command, fill, hwf, rfl, rfl⟩ := hi
  refine ⟨command, fillAt fill pc pc', hwf, ?_, (Command.bytes_at h fill command).symm⟩
  rw [Command.place, Command.place, Command.width_at h]

end Places

/-! ## 6. Two code arrays put together -/

/-- **What is decoded of two code arrays put together**, of which the first one is decoded and a
    multiple of four bytes long: its instructions, and behind them what is decoded of the second
    one, instructions and fault, told for places so much further on. So an instruction comes from
    its own bytes and from its pc modulo four: wherever these are the same, the same is read. -/
theorem decodeSteps_append {a b : List UInt8} {row : List Instruction} (h : decode a = .ok row)
    (haligned : a.length % 4 = 0) :
    decodeSteps (a ++ b) =
      ⟨row ++ (decodeSteps b).instructions.map (Instruction.moved a.length),
        (decodeSteps b).fault.map (DecodeError.moved a.length)⟩ ∧
    ∀ (c c' : Cursor) (i : Instruction) (x : List UInt8),
      Instruction.read c = .ok (i, c') → c.Passes x c' →
        ∀ d d' : Cursor, d.Passes x d' → d.position % 4 = c.position % 4 →
          Instruction.read d = .ok ({ i with pc := d.position }, d') := by
  refine ⟨?_, fun c c' i x hread hx d d' hd hplace => ?_⟩
  · obtain ⟨mid, hruns, hends⟩ := decodeSteps_eq_iff.1 (rfl : decodeSteps b = ⟨_, _⟩)
    have hfront : Instruction.Runs (Cursor.ofBytes (a ++ b) 0) row
        ((Cursor.ofBytes b 0).moved a.length) :=
      Instruction.runs_iff.2 ⟨a, ⟨rfl, rfl, rfl⟩, decode_eq_ok_iff.1 h⟩
    exact decodeSteps_eq_iff.2 ⟨mid.moved a.length, hfront.trans (hruns.moved haligned),
      hends.moved haligned⟩
  · obtain ⟨x', hx', hi⟩ := (Instruction.reads c i c').1 hread
    obtain rfl : x = x' := List.append_cancel_right (hx.rest.symm.trans hx'.rest)
    exact (Instruction.reads d _ d').2 ⟨x, hd, Instruction.layout_at hplace hi⟩

/-- Behind four bytes of code, the sample and a byte that is no opcode: the switch keeps its
    padding, whatever follows, and the fault is told for a place four bytes further on. -/
theorem decodeSteps_append_unknown :
    decode [0x11, 1, 44, 0] = .ok [⟨0, ⟨0x11⟩, false, .literal (.short 300), 3⟩,
      ⟨3, ⟨0⟩, false, .nothing, 1⟩] ∧
    decodeSteps (sampleCode ++ [0xcb]) = ⟨sampleRow, some (.unknownOpcode 0xcb 35)⟩ ∧
    decodeSteps ([0x11, 1, 44, 0] ++ (sampleCode ++ [0xcb])) =
      ⟨[⟨0, ⟨0x11⟩, false, .literal (.short 300), 3⟩, ⟨3, ⟨0⟩, false, .nothing, 1⟩] ++
        sampleRow.map (Instruction.moved 4), some (.unknownOpcode 0xcb 39)⟩ ∧
    ∀ y, Instruction.read ⟨(sampleCode.drop 1).take 23 ++ y, 5, 0⟩ =
      .ok (⟨5, ⟨170⟩, false, .tableSwitch 20 (-1) 0 [21, 22], 23⟩, ⟨y, 28, 0⟩) := by
  have hfront : decode [0x11, 1, 44, 0] = .ok [⟨0, ⟨0x11⟩, false, .literal (.short 300), 3⟩,
      ⟨3, ⟨0⟩, false, .nothing, 1⟩] := by decide +kernel
  have hback : decodeSteps (sampleCode ++ [0xcb]) =
      ⟨sampleRow, some (.unknownOpcode 0xcb 35)⟩ := by decide +kernel
  have hswitch : Instruction.read ⟨sampleCode.drop 1, 1, 0⟩ =
      .ok (⟨1, ⟨170⟩, false, .tableSwitch 20 (-1) 0 [21, 22], 23⟩,
        ⟨sampleCode.drop 24, 24, 0⟩) := by
    decide +kernel
  have hplace : 5 % 4 = 1 % 4 := by decide
  obtain ⟨hwhole, hplaces⟩ := decodeSteps_append (b := sampleCode ++ [0xcb]) hfront (by decide)
  rw [hback] at hwhole
  exact ⟨hfront, hback, hwhole, fun y =>
    hplaces _ _ _ _ hswitch ⟨rfl, rfl, rfl⟩ _ ⟨y, 28, 0⟩ ⟨rfl, rfl, rfl⟩ hplace⟩

end ClassView
