import ClassView.Proofs.Instruction.Reading

/-!
# Code arrays and programs

A code array that is decoded is a program laid out back to back, and every program that is laid out
is decoded.

* `Instruction.layout`, `Instruction.rowLayout`: one instruction at a pc, and a row of them;
* **`Instruction.reads`**: one instruction is read back, prefix and padding included;
* **`decode_eq_ok_iff`**: a code array is decoded exactly if it is instructions in a row;
* **`decode_tiles`**: decoded instructions tile the code and are written back to it;
* **`decode_program`**: a program laid out back to back is decoded to just its instructions.
-/

namespace ClassView

/-! ## 1. Commands and their bytes -/

namespace Command

/-- The bytes of a well-formed command are as many as its width says. -/
theorem length_bytes {c : Command} (h : c.isWellFormed = true) (fill : Nat → UInt8) (pc : Nat) :
    (c.bytes fill pc).length = c.width pc := by
  obtain ⟨opcode, wide, operand⟩ := c
  obtain ⟨shape, hshape, hsuits⟩ := isWellFormed_iff.1 h
  have hget : opcode.shape?.getD .plain = shape := by
    rw [show opcode.shape? = some shape from hshape, Option.getD_some]
  cases wide with
  | false =>
    have hlen := Operand.length_bytes fill pc hshape hsuits
    simpa [hget] using hlen
  | true =>
    cases operand using Operand.cases_forms with
    | wideSlot i => simp
    | wideIncrement i a => simp
    | _ => simp at hsuits

/-- A command takes at least the byte of its opcode. -/
theorem width_pos {c : Command} (h : c.isWellFormed = true) (pc : Nat) : 0 < c.width pc := by
  rw [← length_bytes h (fun _ => 0) pc, bytes]
  split <;> exact Nat.succ_pos _

/-- Where the table has a width for the opcode of a command that is not widened, this is it. -/
theorem width_eq_of_width? {c : Command} {w : Nat} (h : c.isWellFormed = true)
    (hwide : c.wide = false) (hw : c.opcode.shape?.bind Shape.width? = some w) (pc : Nat) :
    c.width pc = w := by
  obtain ⟨opcode, wide, operand⟩ := c
  obtain ⟨shape, hshape, hsuits⟩ := isWellFormed_iff.1 h
  obtain rfl : wide = false := hwide
  cases operand using Operand.cases_forms with
  | tableSwitch d low high offsets =>
    obtain ⟨rfl, _⟩ := of_decide_eq_true hsuits
    simp [hshape, Shape.width?] at hw
  | lookupSwitch d pairs =>
    obtain ⟨rfl, _⟩ := of_decide_eq_true hsuits
    simp [hshape, Shape.width?] at hw
  | wideSlot i => simp at hsuits
  | wideIncrement i a => simp at hsuits
  | _ => simp [hw]

end Command

/-! ## 2. One instruction -/

namespace Instruction

/-- The instructions at `pc`, as they are stored. -/
def layout (pc : Nat) : Layout Instruction := fun i bytes =>
  ∃ (command : Command) (fill : Nat → UInt8), command.isWellFormed = true ∧
    i = command.place pc ∧ bytes = command.bytes fill pc

variable {pc : Nat} {b : UInt8} {i : Instruction} {bytes : List UInt8}

/-- An instruction whose first byte is its own opcode. -/
theorem layout_opcode_iff {shape : Shape} (hshape : (Opcode.mk b).shape? = some shape)
    (hne : shape ≠ .widePrefix) :
    layout pc i (b :: bytes) ↔
      ∃ o, Operand.layout pc shape o bytes ∧ i = (Command.mk ⟨b⟩ false o).place pc := by
  refine ⟨?_, ?_⟩
  · intro hgiven
    rcases hgiven with ⟨⟨⟨op⟩, wide, o⟩, fill, hwf, rfl, hbytes⟩
    obtain ⟨shape', hshape', hsuits⟩ := Command.isWellFormed_iff.1 hwf
    cases wide with
    | false =>
      obtain ⟨rfl, rfl⟩ := List.cons.inj hbytes
      obtain rfl : shape = shape' := Option.some.inj (hshape.symm.trans hshape')
      refine ⟨o, ⟨hsuits, fill, ?_⟩, rfl⟩
      rw [show (Opcode.mk b).shape? = some shape from hshape, Option.getD_some]
    | true =>
      obtain ⟨rfl, _⟩ := List.cons.inj hbytes
      exact absurd (Option.some.inj (hshape.symm.trans rfl)) hne
  · intro hgiven
    rcases hgiven with ⟨o, ⟨hsuits, fill, rfl⟩, rfl⟩
    refine ⟨⟨⟨b⟩, false, o⟩, fill, Command.isWellFormed_iff.2 ⟨shape, hshape, hsuits⟩, rfl, ?_⟩
    simp [hshape]

/-- An instruction whose first byte is a wide prefix. -/
theorem layout_wide_iff (hshape : (Opcode.mk b).shape? = some .widePrefix) :
    layout pc i (b :: bytes) ↔
      ∃ b' rest shape o, bytes = b' :: rest ∧ (Opcode.mk b').shape? = some shape ∧
        Operand.wideLayout pc shape o rest ∧ i = (Command.mk ⟨b'⟩ true o).place pc := by
  have hb : b = Command.wideOpcode.byte := by
    have h : ∀ v : Fin 256, (Opcode.mk (UInt8.ofFin v)).shape? = some .widePrefix →
        UInt8.ofFin v = 196 := by
      decide +kernel
    exact h b.toFin hshape
  refine ⟨?_, ?_⟩
  · intro hgiven
    rcases hgiven with ⟨⟨⟨op⟩, wide, o⟩, fill, hwf, rfl, hbytes⟩
    obtain ⟨shape, hshape', hsuits⟩ := Command.isWellFormed_iff.1 hwf
    cases wide with
    | false =>
      obtain ⟨rfl, rfl⟩ := List.cons.inj hbytes
      obtain rfl : Shape.widePrefix = shape := Option.some.inj (hshape.symm.trans hshape')
      cases o using Operand.cases_forms <;> simp at hsuits
    | true =>
      obtain ⟨_, rfl⟩ := List.cons.inj hbytes
      refine ⟨op, _, shape, o, rfl, hshape', ⟨hsuits, fill, ?_⟩, rfl⟩
      rw [show (Opcode.mk op).shape? = some shape from hshape', Option.getD_some]
  · intro hgiven
    rcases hgiven with ⟨b', _, shape, o, rfl, hshape', ⟨hsuits, fill, rfl⟩, rfl⟩
    refine ⟨⟨⟨b'⟩, true, o⟩, fill, Command.isWellFormed_iff.2 ⟨shape, hshape', hsuits⟩, rfl, ?_⟩
    simp [hshape', hb]

/-- No instruction starts with a byte that is no opcode. -/
theorem not_layout_of_shape?_eq_none (hshape : (Opcode.mk b).shape? = none) :
    ¬ layout pc i (b :: bytes) := by
  intro hgiven
  rcases hgiven with ⟨⟨⟨op⟩, wide, o⟩, fill, hwf, rfl, hbytes⟩
  obtain ⟨shape, hshape', _⟩ := Command.isWellFormed_iff.1 hwf
  cases wide with
  | false =>
    obtain ⟨rfl, _⟩ := List.cons.inj hbytes
    exact nomatch hshape.symm.trans hshape'
  | true =>
    obtain ⟨rfl, _⟩ := List.cons.inj hbytes
    exact absurd hshape (by decide)

/-- The instruction that ends behind its operand. -/
theorem reads_endingHere {read : Read Operand} {operands : Layout Operand} {opcode : Opcode}
    {shape : Shape} {wide : Bool} {c : Cursor} (hshape : opcode.shape? = some shape)
    (h : Reads read operands c) :
    Reads (read >>= fun o => endingHere pc opcode wide o)
      (fun i bytes => ∃ o, operands o bytes ∧
        i = ⟨pc, opcode, wide, o, c.position + bytes.length - pc⟩) c := by
  have hend : ∀ (o : Operand) (mid : Cursor), endingHere pc opcode wide o mid =
      .ok (⟨pc, opcode, wide, o, mid.position - pc⟩, mid) := fun o mid =>
    congrFun (endingHere_of_shape hshape pc wide o) mid
  intro i c'
  rw [Cursor.bind_eq_ok_iff]
  refine ⟨?_, ?_⟩
  · intro hgiven
    rcases hgiven with ⟨o, mid, hread, hi⟩
    obtain ⟨bytes, hpass, ho⟩ := (h o mid).1 hread
    rw [hend] at hi
    cases hi
    exact ⟨bytes, hpass, o, ho, by rw [hpass.position]⟩
  · intro hgiven
    rcases hgiven with ⟨bytes, hpass, o, ho, rfl⟩
    exact ⟨o, c', (h o c').2 ⟨bytes, hpass, ho⟩, by rw [hend, hpass.position]⟩

/-- Reading what a wide prefix at `pc` widens. -/
theorem reads_readWidened {c : Cursor} (hpc : c.position = pc + 1)
    (hshape : (Opcode.mk b).shape? = some .widePrefix) :
    Reads (readWidened pc) (fun i bytes => layout pc i (b :: bytes)) c := by
  have hread : Reads (readWidened pc) (Layout.bind (Layout.fixed BigEndian.u8) fun b' i rest =>
      ∃ shape o, (Opcode.mk b').shape? = some shape ∧ Operand.wideLayout pc shape o rest ∧
        i = (Command.mk ⟨b'⟩ true o).place pc) c := by
    refine Reads.get ((Reads.u8 c).bind fun b' x mid hx hb' => ?_)
    obtain rfl : x = [b'] := hb'
    have hmid : mid.position = pc + 2 := by
      rw [hx.position, hpc]
      rfl
    cases hread? : (Opcode.mk b').shape?.bind Operand.readWide? with
    | none =>
      simp only [hread?]
      refine (Reads.throw _ mid).congr fun i rest => ⟨False.elim, ?_⟩
      intro hgiven
      rcases hgiven with ⟨shape, o, hshape', ⟨hsuits, _⟩, _⟩
      rw [hshape', Option.bind_some] at hread?
      rw [Operand.readWide?_eq_none hread?] at hsuits
      exact Bool.false_ne_true hsuits
    | some read =>
      obtain ⟨shape, hshape', hreader⟩ := Option.bind_eq_some_iff.1 hread?
      have hwidth : ∀ o fill, o.suitsWide shape = true →
          mid.position + (o.bytes fill pc shape).length - pc =
            Command.width pc ⟨⟨b'⟩, true, o⟩ := by
        intro o fill hsuits
        have hlen := Command.length_bytes (c := ⟨⟨b'⟩, true, o⟩)
          (Command.isWellFormed_iff.2 ⟨shape, hshape', hsuits⟩) fill pc
        simp only [Command.bytes, hshape', Option.getD_some, if_true, List.length_cons] at hlen
        omega
      simp only [hread?]
      refine (reads_endingHere hshape' (Operand.reads_wide pc hreader)).congr fun i rest => ⟨?_, ?_⟩
      · intro hgiven
        rcases hgiven with ⟨o, ⟨hsuits, fill, rfl⟩, rfl⟩
        exact ⟨shape, o, hshape', ⟨hsuits, fill, rfl⟩, by rw [Command.place, hwidth o fill hsuits]⟩
      · intro hgiven
        rcases hgiven with ⟨shape', o, hshape'', ⟨hsuits, fill, rfl⟩, rfl⟩
        obtain rfl : shape = shape' := Option.some.inj (hshape'.symm.trans hshape'')
        exact ⟨o, ⟨hsuits, fill, rfl⟩, by rw [Command.place, hwidth o fill hsuits]⟩
  refine hread.congr fun i bytes => ?_
  rw [Layout.bind_fixed_iff, layout_wide_iff hshape]
  refine ⟨?_, ?_⟩
  · intro hgiven
    rcases hgiven with ⟨b', rest, ⟨shape, o, h⟩, rfl⟩
    exact ⟨b', rest, shape, o, rfl, h⟩
  · intro hgiven
    rcases hgiven with ⟨b', rest, shape, o, rfl, h⟩
    exact ⟨b', rest, ⟨shape, o, h⟩, rfl⟩

/-- **One instruction is read back.** -/
theorem reads (c : Cursor) : Reads Instruction.read (layout c.position) c := by
  have hread : Reads Instruction.read (Layout.bind (Layout.fixed BigEndian.u8)
      fun b i bytes => layout c.position i (b :: bytes)) c := by
    refine Reads.get ((Reads.u8 c).bind fun b x mid hx hb => ?_)
    obtain rfl : x = [b] := hb
    have hmid : mid.position = c.position + 1 := hx.position
    simp only
    split
    · rename_i hshape
      exact (Reads.throw _ mid).congr fun i bytes =>
        ⟨False.elim, not_layout_of_shape?_eq_none hshape⟩
    · rename_i hshape
      exact reads_readWidened hmid hshape
    · rename_i shape hne hshape
      refine (reads_endingHere hshape (Operand.reads hmid hne)).congr fun i bytes => ?_
      rw [layout_opcode_iff hshape hne]
      refine exists_congr fun o => and_congr_right ?_
      intro hgiven
      rcases hgiven with ⟨hsuits, fill, rfl⟩
      have hlen := Operand.length_bytes fill c.position hshape hsuits
      have hwidth : mid.position + (o.bytes fill c.position shape).length - c.position =
          Command.width c.position ⟨⟨b⟩, false, o⟩ := by omega
      rw [Command.place, hwidth]
  refine hread.congr fun i bytes => ?_
  rw [Layout.bind_fixed_iff]
  refine ⟨?_, ?_⟩
  · intro hgiven
    rcases hgiven with ⟨b, rest, h, rfl⟩
    exact h
  · intro h
    have h' := h
    obtain ⟨command, fill, _, _, hbytes⟩ := h'
    obtain ⟨b, rest, rfl⟩ : ∃ b rest, bytes = b :: rest := by
      rw [hbytes, Command.bytes]
      split <;> exact ⟨_, _, rfl⟩
    exact ⟨b, rest, h, rfl⟩

/-! ## 3. Instructions in a row -/

/-- Instructions back to back from `pc` on, as they are stored. -/
def rowLayout : (pc : Nat) → Layout (List Instruction)
  | _, [], bytes => bytes = []
  | pc, i :: rest, bytes =>
    ∃ x y, layout pc i x ∧ rowLayout (pc + i.width) rest y ∧ bytes = x ++ y

theorem length_of_layout (h : layout pc i bytes) : bytes.length = i.width := by
  obtain ⟨command, fill, hwf, rfl, rfl⟩ := h
  exact Command.length_bytes hwf fill pc

theorem width_pos_of_layout (h : layout pc i bytes) : 0 < i.width := by
  obtain ⟨command, fill, hwf, rfl, rfl⟩ := h
  exact Command.width_pos hwf pc

/-- Only the empty row is stored in no bytes. -/
theorem rowLayout_nil_iff {row : List Instruction} : rowLayout pc row [] ↔ row = [] := by
  cases row with
  | nil => exact ⟨fun _ => rfl, fun _ => rfl⟩
  | cons i rest =>
    refine ⟨?_, ?_⟩
    · intro hgiven
      rcases hgiven with ⟨x, y, hi, _, hbytes⟩
      have hlen := length_of_layout hi
      have hpos := width_pos_of_layout hi
      rw [(List.append_eq_nil_iff.1 hbytes.symm).1, List.length_nil] at hlen
      omega
    · intro h
      exact nomatch h

/-- A row in front of which there are bytes is an instruction that is read there, and a row. -/
theorem rowLayout_iff_read {c : Cursor} {row : List Instruction} (hempty : ¬ c.isEmpty = true) :
    rowLayout c.position row c.rest ↔ ∃ i tail c', Instruction.read c = .ok (i, c') ∧
      row = i :: tail ∧ rowLayout c'.position tail c'.rest := by
  refine ⟨?_, ?_⟩
  · intro hrow
    cases row with
    | nil => exact absurd (List.isEmpty_iff.2 hrow) hempty
    | cons i tail =>
      obtain ⟨x, y, hi, htail, hbytes⟩ := hrow
      refine ⟨i, tail, ⟨y, c.position + i.width, c.base⟩, ?_, rfl, htail⟩
      exact (reads c _ _).2 ⟨x, ⟨hbytes, by rw [length_of_layout hi], rfl⟩, hi⟩
  · intro hgiven
    rcases hgiven with ⟨i, tail, c', hread, rfl, htail⟩
    obtain ⟨x, hpass, hi⟩ := (reads c i c').1 hread
    rw [hpass.position, length_of_layout hi] at htail
    exact ⟨x, c'.rest, hi, htail, hpass.rest⟩

/-- Every instruction read moves the cursor on. -/
theorem remaining_lt_of_read {c c' : Cursor} (h : Instruction.read c = .ok (i, c')) :
    c'.remaining < c.remaining := by
  obtain ⟨x, hpass, hi⟩ := (reads c i c').1 h
  have hlen := length_of_layout hi
  have hpos := width_pos_of_layout hi
  have hrem := hpass.remaining
  omega

end Instruction

/-- Decoding on finds no fault exactly if the bytes ahead are instructions in a row. The induction
    is on `room`, which covers the bytes ahead at every step because each instruction takes one. -/
theorem decodeOnto_eq_iff (room : Nat) (c : Cursor) (done row : List Instruction)
    (hroom : c.remaining ≤ room) :
    decodeOnto room c done = ⟨row, none⟩ ↔
      ∃ rest, row = done.reverse ++ rest ∧ Instruction.rowLayout c.position rest c.rest := by
  -- both where `room` is used up and where the bytes are
  have hend : ∀ (c : Cursor) (done : List Instruction), c.rest = [] →
      ((⟨done.reverse, none⟩ : DecodeSteps) = ⟨row, none⟩ ↔
        ∃ rest, row = done.reverse ++ rest ∧ Instruction.rowLayout c.position rest c.rest) := by
    intro c done hnil
    rw [hnil]
    refine ⟨?_, ?_⟩
    · intro h
      cases h
      exact ⟨[], (List.append_nil _).symm, rfl⟩
    · intro hgiven
      rcases hgiven with ⟨rest, rfl, hrest⟩
      rw [Instruction.rowLayout_nil_iff.1 hrest, List.append_nil]
  induction room generalizing c done with
  | zero => exact hend c done (List.eq_nil_of_length_eq_zero (Nat.le_zero.1 hroom))
  | succ room ih =>
    rw [decodeOnto]
    by_cases hempty : c.isEmpty = true
    · rw [if_pos hempty]
      exact hend c done (List.isEmpty_iff.1 hempty)
    · rw [if_neg hempty]
      simp only [Instruction.rowLayout_iff_read hempty]
      cases hread : Instruction.read c with
      | error e =>
        refine ⟨?_, ?_⟩
        · intro h
          exact nomatch h
        · intro hgiven
          rcases hgiven with ⟨_, _, i, tail, c', hok, _⟩
          exact nomatch hok
      | ok p =>
        obtain ⟨i, c'⟩ := p
        have hroom' : c'.remaining ≤ room := by
          have := Instruction.remaining_lt_of_read hread
          omega
        simp only [ih c' (i :: done) hroom', List.reverse_cons, List.append_assoc,
          List.singleton_append]
        refine ⟨?_, ?_⟩
        · intro hgiven
          rcases hgiven with ⟨tail, rfl, htail⟩
          exact ⟨i :: tail, rfl, i, tail, c', rfl, rfl, htail⟩
        · intro hgiven
          rcases hgiven with ⟨_, rfl, i', tail, c'', hok, rfl, htail⟩
          cases hok
          exact ⟨tail, rfl, htail⟩

/-- **A code array is decoded exactly if it is instructions in a row.** -/
theorem decode_eq_ok_iff {code : List UInt8} {row : List Instruction} :
    decode code = .ok row ↔ Instruction.rowLayout 0 row code := by
  have h := decodeOnto_eq_iff code.length (Cursor.ofBytes code 0) [] row (Nat.le_refl _)
  have hrow : (∃ rest, row = [].reverse ++ rest ∧ Instruction.rowLayout 0 rest code) ↔
      Instruction.rowLayout 0 row code :=
    ⟨fun ⟨_, hrest, hrow⟩ => hrest ▸ hrow, fun hrow => ⟨row, rfl, hrow⟩⟩
  refine Iff.trans ?_ (h.trans hrow)
  show decode code = .ok row ↔ decodeSteps code = ⟨row, none⟩
  rw [decode]
  obtain ⟨instructions, fault⟩ := decodeSteps code
  cases fault with
  | none => simp
  | some e => simp

/-! ## 4. Decoded instructions tile the code -/

namespace Instruction

variable {pc : Nat} {i : Instruction} {bytes : List UInt8}

/-- The instructions stand back to back from `pc` up to `stop`. -/
def Tiles : (pc : Nat) → List Instruction → (stop : Nat) → Prop
  | pc, [], stop => pc = stop
  | pc, i :: rest, stop => i.pc = pc ∧ Tiles (pc + i.width) rest stop

theorem tiles_of_rowLayout {row : List Instruction} (h : rowLayout pc row bytes) :
    Tiles pc row (pc + bytes.length) := by
  induction row generalizing pc bytes with
  | nil =>
    obtain rfl : bytes = [] := h
    exact rfl
  | cons i rest ih =>
    obtain ⟨x, y, hi, hrest, rfl⟩ := h
    refine ⟨?_, ?_⟩
    · obtain ⟨command, fill, _, rfl, _⟩ := hi
      rfl
    · rw [List.length_append, length_of_layout hi, ← Nat.add_assoc]
      exact ih hrest

/-- Where an instruction of a row stands among the bytes. -/
theorem exists_of_mem_rowLayout {row : List Instruction} (h : rowLayout pc row bytes)
    (hi : i ∈ row) :
    ∃ front x back, bytes = front ++ (x ++ back) ∧ i.pc = pc + front.length ∧
      layout i.pc i x := by
  induction row generalizing pc bytes with
  | nil => exact absurd hi List.not_mem_nil
  | cons j rest ih =>
    obtain ⟨x, y, hj, hrest, rfl⟩ := h
    rcases List.mem_cons.1 hi with rfl | hi
    · have hpc : i.pc = pc := by
        obtain ⟨command, fill, _, rfl, _⟩ := hj
        rfl
      exact ⟨[], x, y, rfl, hpc, hpc ▸ hj⟩
    · obtain ⟨front, x', back, rfl, hpc, hlayout⟩ := ih hrest hi
      refine ⟨x ++ front, x', back, ?_, ?_, hlayout⟩
      · rw [List.append_assoc]
      · rw [hpc, List.length_append, length_of_layout hj, Nat.add_assoc]

/-- How many bytes an instruction takes that starts with the byte `first`. -/
structure WidthRules (first : UInt8) (i : Instruction) : Prop where
  fixed : ∀ w, (Opcode.mk first).shape?.bind Shape.width? = some w → i.width = w
  wideSlot : i.wide = true → ∀ s, i.operand = .slot s → i.width = 4
  wideIncrement : i.wide = true → ∀ s a, i.operand = .increment s a → i.width = 6
  tableSwitch : ∀ d low high offsets, i.operand = .tableSwitch d low high offsets →
    (i.width : Int) = 1 + (3 - i.pc % 4 : Nat) + 12 + 4 * (high.toInt - low.toInt + 1)
  lookupSwitch : ∀ d pairs, i.operand = .lookupSwitch d pairs →
    i.width = 1 + (3 - i.pc % 4) + 8 + 8 * pairs.length

/-- A stored instruction keeps the rules of width. -/
theorem widthRules_of_layout {first : UInt8} (h : layout pc i (first :: bytes)) :
    i.WidthRules first := by
  obtain ⟨⟨⟨op⟩, wide, o⟩, fill, hwf, rfl, hbytes⟩ := h
  obtain ⟨shape, hshape, hsuits⟩ := Command.isWellFormed_iff.1 hwf
  cases wide with
  | false =>
    obtain ⟨rfl, _⟩ := List.cons.inj hbytes
    refine ⟨fun w hw => Command.width_eq_of_width? hwf rfl hw pc, ?_, ?_, ?_, ?_⟩
    · intro hwide
      exact absurd hwide Bool.false_ne_true
    · intro hwide
      exact absurd hwide Bool.false_ne_true
    · rintro d low high offsets rfl
      obtain ⟨_, hle, _⟩ := of_decide_eq_true hsuits
      have hspan : low.toInt ≤ high.toInt := Int32.le_iff_toInt_le.1 hle
      simp only [Command.place, Command.width, Operand.padding]
      omega
    · rintro d pairs rfl
      rfl
  | true =>
    obtain ⟨rfl, _⟩ := List.cons.inj hbytes
    have hprefix : (Opcode.mk Command.wideOpcode.byte).shape?.bind Shape.width? = none := by
      decide
    have hnoWidth : ∀ w, (Opcode.mk Command.wideOpcode.byte).shape?.bind Shape.width? = some w →
        (Command.place pc ⟨⟨op⟩, true, o⟩).width = w :=
      fun w hw => absurd (hw.symm.trans hprefix) (Option.some_ne_none w)
    cases o using Operand.cases_forms with
    | wideSlot n =>
      refine ⟨hnoWidth, fun _ _ _ => rfl, ?_, ?_, ?_⟩
      all_goals
        intros
        contradiction
    | wideIncrement n a =>
      refine ⟨hnoWidth, ?_, fun _ _ _ _ => rfl, ?_, ?_⟩
      all_goals
        intros
        contradiction
    | _ => simp at hsuits

end Instruction

/-- **Decoded instructions tile the code.** They stand back to back from its start to its end, each
    of them has the operands that its opcode calls for and the width that its first byte and its
    operands ask for, and written back at its place it is the bytes that stand there, but for those
    that have no meaning. -/
theorem decode_tiles {code : List UInt8} {instructions : List Instruction}
    (h : decode code = .ok instructions) :
    Instruction.Tiles 0 instructions code.length ∧ ∀ i ∈ instructions,
      i.command.isWellFormed = true ∧
      (∃ first, code[i.pc]? = some first ∧ i.WidthRules first) ∧
      ∃ fill, (code.drop i.pc).take i.width = i.command.bytes fill i.pc := by
  have hrow := decode_eq_ok_iff.1 h
  refine ⟨?_, fun i hi => ?_⟩
  · have htiles := Instruction.tiles_of_rowLayout hrow
    rwa [Nat.zero_add] at htiles
  · obtain ⟨front, x, back, rfl, hpc, hlayout⟩ := Instruction.exists_of_mem_rowLayout hrow hi
    rw [Nat.zero_add] at hpc
    have hlen := Instruction.length_of_layout hlayout
    obtain ⟨first, rest, rfl⟩ : ∃ first rest, x = first :: rest :=
      List.exists_cons_of_length_pos (hlen ▸ Instruction.width_pos_of_layout hlayout)
    refine ⟨?_, ⟨first, ?_, Instruction.widthRules_of_layout hlayout⟩, ?_⟩
    · obtain ⟨command, fill, hwf, hi, _⟩ := hlayout
      rw [hi]
      exact hwf
    · rw [hpc, List.getElem?_append_right (Nat.le_refl _), Nat.sub_self]
      rfl
    · rw [hpc, List.drop_left, ← hpc, ← hlen, List.take_left]
      obtain ⟨command, fill, _, hi, hbytes⟩ := hlayout
      rw [hi]
      exact ⟨fill, hbytes⟩

/-- A switch, a widened increment and a call, the bytes without meaning not being zero. -/
def sampleCode : List UInt8 :=
  [0, 170, 7, 8, 0, 0, 0, 20, 255, 255, 255, 255, 0, 0, 0, 0, 0, 0, 0, 21, 0, 0, 0, 22] ++
  [196, 132, 1, 0, 255, 254] ++ [185, 0, 5, 1, 9]

/-- Its instructions. -/
def sampleRow : List Instruction :=
  [⟨0, ⟨0⟩, false, .nothing, 1⟩, ⟨1, ⟨170⟩, false, .tableSwitch 20 (-1) 0 [21, 22], 23⟩,
    ⟨24, ⟨132⟩, true, .increment (.wide 256) (-2), 6⟩, ⟨30, ⟨185⟩, false, .interfaceCall 5 1, 5⟩]

theorem decode_sample : decode sampleCode = .ok sampleRow := by decide +kernel

theorem decode_tiles_sample :
    decode sampleCode = .ok sampleRow ∧ Instruction.Tiles 0 sampleRow sampleCode.length ∧
      ∃ fill, (sampleCode.drop 1).take 23 =
        (⟨⟨170⟩, false, .tableSwitch 20 (-1) 0 [21, 22]⟩ : Command).bytes fill 1 := by
  obtain ⟨htiles, hrow⟩ := decode_tiles decode_sample
  obtain ⟨_, _, hbytes⟩ := hrow _ (.tail _ (.head _))
  exact ⟨decode_sample, htiles, hbytes⟩

/-! ## 5. Programs are read back -/

/-- A program laid out from `pc` on is instructions in a row. -/
theorem Program.rowLayout_bytes {program : List Command}
    (h : ∀ c ∈ program, c.isWellFormed = true) (fill : Nat → UInt8) (pc : Nat) :
    Instruction.rowLayout pc (place pc program) (bytes fill pc program) := by
  induction program generalizing pc with
  | nil => exact rfl
  | cons c rest ih =>
    obtain ⟨hc, hrest⟩ := List.forall_mem_cons.1 h
    exact ⟨c.bytes fill pc, _, ⟨c, fill, hc, rfl, rfl⟩, ih hrest _, rfl⟩

/-- The opcode of a well-formed command has a name. -/
theorem Command.mnemonic?_eq {c : Command} (h : c.isWellFormed = true) :
    c.opcode.mnemonic? = some c.opcode.mnemonic := by
  obtain ⟨shape, hshape, _⟩ := isWellFormed_iff.1 h
  obtain ⟨name, hname⟩ := Opcode.exists_mnemonic? hshape
  rw [Opcode.mnemonic, hname, Option.getD_some]

/-- What is placed are the commands, in their order. -/
theorem Program.map_command_place (pc : Nat) (program : List Command) :
    (place pc program).map Instruction.command = program := by
  induction program generalizing pc with
  | nil => rfl
  | cons c rest ih =>
    show c :: (place (pc + c.width pc) rest).map Instruction.command = c :: rest
    rw [ih]

/-- **A program that is laid out back to back is decoded to just its instructions**, whatever stands
    at the places without meaning, and each of them has a name. -/
theorem decode_program {program : List Command} (h : ∀ c ∈ program, c.isWellFormed = true)
    (fill : Nat → UInt8) :
    decode (Program.bytes fill 0 program) = .ok (Program.place 0 program) ∧
      ∀ i ∈ Program.place 0 program, i.opcode.mnemonic? = some i.mnemonic := by
  refine ⟨decode_eq_ok_iff.2 (Program.rowLayout_bytes h fill 0), fun i hi => ?_⟩
  have hmem : i.command ∈ program := by
    rw [← Program.map_command_place 0 program]
    exact List.mem_map_of_mem hi
  exact Command.mnemonic?_eq (h i.command hmem)

/-- Both switches, the second with a key that stands twice, and a widened variable. -/
theorem decode_program_switches :
    let program : List Command := [⟨⟨0⟩, false, .nothing⟩,
      ⟨⟨170⟩, false, .tableSwitch 20 (-1) 0 [21, 22]⟩, ⟨⟨21⟩, true, .slot (.wide 256)⟩,
      ⟨⟨171⟩, false, .lookupSwitch 9 [(5, 1), (-5, 2), (5, 3)]⟩]
    (∀ c ∈ program, c.isWellFormed = true) ∧
      decode (Program.bytes (fun place => place.toUInt8) 0 program) =
        .ok [(⟨⟨0⟩, false, .nothing⟩ : Command).place 0,
          (⟨⟨170⟩, false, .tableSwitch 20 (-1) 0 [21, 22]⟩ : Command).place 1,
          (⟨⟨21⟩, true, .slot (.wide 256)⟩ : Command).place 24,
          (⟨⟨171⟩, false, .lookupSwitch 9 [(5, 1), (-5, 2), (5, 3)]⟩ : Command).place 28] :=
  ⟨by decide, (decode_program (by decide) _).1⟩

end ClassView
