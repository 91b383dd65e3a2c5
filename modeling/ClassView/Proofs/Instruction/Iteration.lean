import ClassView.Proofs.Instruction.Truncation

/-!
# Decoding one instruction at a time

A decoder that is asked again and again answers the instructions of the code in their order. At the
end of the code, or behind the first instruction that cannot be read, it is at its end for ever. The
one fault that it answers is about the instruction behind those it has answered, and tells what is
wrong with the bytes that stand there.

* `Operand.fault_of_readTableSwitch` and its likes: what can be wrong with operands;
* `Instruction.FaultAt`: what can be wrong with the instruction that starts at a place;
* **`Instruction.faultAt_of_read`**: what is told of an instruction that cannot be read is so;
* `Decoder.answer`, **`Decoder.answer_eq`**: the answers of a decoder are what is decoded at once;
* **`decoder_stops_once`**: the answers of a decoder, for every code array.
-/

namespace ClassView

open BigEndian (int32At)

/-! ## 1. Operands -/

namespace Operand

variable {c : Cursor} {e : DecodeError}

theorem takes_align {pc : Nat} (h : c.position = pc + 1) : Takes align (padding pc) c := by
  have hpadding : (4 - c.position % 4) % 4 = padding pc := by
    rw [padding, h]
    omega
  have hskip := Takes.skip ((4 - c.position % 4) % 4) c
  rw [hpadding] at hskip
  refine ⟨fun hle => ?_, fun hlt => ?_⟩
  · obtain ⟨a, ha⟩ := hskip.fits hle
    rw [← hpadding] at ha ⊢
    exact ⟨a, ha⟩
  · have hshort := hskip.short hlt
    rw [← hpadding] at hshort
    exact hshort

/-- The operands of most shapes are a number of bytes that is known in advance. -/
theorem exists_takes {shape : Shape} (helement : shape ≠ .primitiveArray)
    (htable : shape ≠ .tableSwitch) (hlookup : shape ≠ .lookupSwitch) (c : Cursor) :
    ∃ n, Takes (read shape) n c := by
  cases shape with
  | plain | impliedSlot | widePrefix | reserved => exact ⟨_, Takes.pure _ c⟩
  | byteLiteral => exact ⟨_, (Takes.i8 c).map _⟩
  | shortLiteral | branch => exact ⟨_, (Takes.i16 c).map _⟩
  | slot | constant => exact ⟨_, (Takes.u8 c).map _⟩
  | wideConstant | classIndex | memberIndex => exact ⟨_, (Takes.u16 c).map _⟩
  | wideBranch => exact ⟨_, (Takes.i32 c).map _⟩
  | interfaceCall =>
    exact ⟨_, (Takes.u16 c).bind fun _ _ _ => (Takes.u8 _).bind fun _ _ _ =>
      (Takes.skip 1 _).bind fun _ _ _ => Takes.pure _ _⟩
  | dynamicCall =>
    exact ⟨_, (Takes.u16 c).bind fun _ _ _ => (Takes.skip 2 _).bind fun _ _ _ => Takes.pure _ _⟩
  | increment =>
    exact ⟨_, (Takes.u8 c).bind fun _ _ _ => (Takes.i8 _).bind fun _ _ _ => Takes.pure _ _⟩
  | multiArray =>
    exact ⟨_, (Takes.u16 c).bind fun _ _ _ => (Takes.u8 _).bind fun _ _ _ => Takes.pure _ _⟩
  | primitiveArray => exact absurd rfl helement
  | tableSwitch => exact absurd rfl htable
  | lookupSwitch => exact absurd rfl hlookup

/-- The operands of a widened instruction are, too. -/
theorem exists_takes_wide {shape : Shape} {read : Read Operand}
    (h : readWide? shape = some read) (c : Cursor) : ∃ n, Takes read n c := by
  cases shape with
  | slot =>
    cases h
    exact ⟨_, (Takes.u16 c).map _⟩
  | increment =>
    cases h
    exact ⟨_, (Takes.u16 c).bind fun _ _ _ => (Takes.i16 _).bind fun _ _ _ => Takes.pure _ _⟩
  | _ => exact nomatch h

/-- The cases of a switch can only run out. -/
theorem isAboutEnd_of_cases {α : Type} {item : Read α} {size count n : Nat} {f : List α → Operand}
    (hitem : ∀ c, Takes item size c)
    (h : (Cursor.expect n >>= fun _ => Cursor.times count item >>= fun as => pure (f as)) c =
      .error e) : e.IsAboutEnd := by
  rw [Cursor.expect_bind_apply] at h
  split at h
  · exact ((Takes.times hitem count c).map f).isAboutEnd h
  · cases h
    trivial

theorem takes_pair (c : Cursor) :
    Takes (do return (← Cursor.i32, ← Cursor.i32) : Read (Int32 × Int32)) 8 c :=
  (Takes.i32 c).bind fun _ _ _ => (Takes.i32 _).map _

/-- What can be wrong with an element type. -/
theorem fault_of_readPrimitiveArray (he : ¬ e.IsAboutEnd) (h : readPrimitiveArray c = .error e) :
    e = .malformedAttribute .code ∧ ∃ t c', Cursor.u8 c = .ok (t, c') ∧ ¬ (4 ≤ t ∧ t ≤ 11) := by
  obtain ⟨t, _, ht, h⟩ := (Takes.u8 c).error_behind he h
  by_cases hnone : (elementTypeName? t).isNone = true
  · rw [if_pos hnone] at h
    cases h
    refine ⟨rfl, t, _, ht, fun hrange => ?_⟩
    have hsome := (isSome_elementTypeName? t).2 hrange
    rw [Option.isNone_iff_eq_none.1 hnone] at hsome
    exact nomatch hsome
  · rw [if_neg hnone] at h
    exact nomatch h

/-- What can be wrong with a table switch: its last key is less than its first one. -/
theorem fault_of_readTableSwitch {pc : Nat} (hpc : c.position = pc + 1) (he : ¬ e.IsAboutEnd)
    (h : readTableSwitch c = .error e) :
    e = .malformedAttribute .code ∧ padding pc + 12 ≤ c.remaining ∧
      int32At c.rest (padding pc + 8) < int32At c.rest (padding pc + 4) := by
  obtain ⟨_, hpad, _, h⟩ := (takes_align hpc).error_behind he h
  obtain ⟨default, hdefault, _, h⟩ := (Takes.i32 _).error_behind he h
  obtain ⟨hlow, h⟩ := (Takes.i32 _).error_behind_of_eq Cursor.i32_of_le he h
  obtain ⟨hhigh, h⟩ := (Takes.i32 _).error_behind_of_eq Cursor.i32_of_le he h
  simp only [Cursor.advance_advance, Cursor.remaining_advance, Cursor.int32At_advance] at hhigh h
  split at h
  · rename_i hlt
    cases h
    exact ⟨rfl, by omega, hlt⟩
  · exact absurd (isAboutEnd_of_cases Takes.i32 h) he

/-- What can be wrong with a lookup switch: its number of cases is negative. -/
theorem fault_of_readLookupSwitch {pc : Nat} (hpc : c.position = pc + 1) (he : ¬ e.IsAboutEnd)
    (h : readLookupSwitch c = .error e) :
    e = .malformedAttribute .code ∧ padding pc + 8 ≤ c.remaining ∧
      int32At c.rest (padding pc + 4) < 0 := by
  obtain ⟨_, hpad, _, h⟩ := (takes_align hpc).error_behind he h
  obtain ⟨default, hdefault, _, h⟩ := (Takes.i32 _).error_behind he h
  obtain ⟨hcount, h⟩ := (Takes.i32 _).error_behind_of_eq Cursor.i32_of_le he h
  simp only [Cursor.advance_advance, Cursor.remaining_advance, Cursor.int32At_advance] at hcount h
  split at h
  · rename_i hlt
    cases h
    exact ⟨rfl, by omega, hlt⟩
  · exact absurd (isAboutEnd_of_cases takes_pair h) he

end Operand

/-! ## 2. Instructions that cannot be read -/

/-- The opcodes that stand alone with their shape. -/
theorem Opcode.byte_of_shape? {op : Opcode} {shape : Shape} {b : UInt8} (h : op.shape? = some shape)
    (hmem : (shape, b) ∈ [(Shape.primitiveArray, (188 : UInt8)), (.tableSwitch, 170),
      (.lookupSwitch, 171), (.widePrefix, 196)]) : op.byte = b := by
  have hall : ∀ v : Fin 256, ∀ pair ∈ [(Shape.primitiveArray, (188 : UInt8)), (.tableSwitch, 170),
      (.lookupSwitch, 171), (.widePrefix, 196)],
      (Opcode.mk (UInt8.ofFin v)).shape? = some pair.1 → UInt8.ofFin v = pair.2 := by
    decide +kernel
  exact hall op.byte.toFin _ hmem h

namespace Instruction

/-- The instruction that starts at the place `p` of the code cannot be read, and this is why. -/
inductive FaultAt (code : List UInt8) (p : Nat) : DecodeError → Prop
  /-- The byte that stands there is no opcode. -/
  | unclassified {b : UInt8} (stands : code[p]? = some b)
      (shape : (Opcode.mk b).shape? = none) : FaultAt code p (.unknownOpcode b p)
  /-- A wide prefix stands there, and behind it no opcode that can be widened. -/
  | notWidened {b : UInt8} (stands : code[p]? = some 196) (behind : code[p + 1]? = some b)
      (slot : (Opcode.mk b).shape? ≠ some .slot)
      (increment : (Opcode.mk b).shape? ≠ some .increment) :
      FaultAt code p (.unknownOpcode b (p + 1))
  /-- The bytes run out behind the first one. -/
  | truncated {o : Nat} (behind : p < o) (within : o ≤ code.length) :
      FaultAt code p (.truncatedInput o)
  /-- An array of numbers is made, of an element type that there is not. -/
  | elementType {t : UInt8} (stands : code[p]? = some 188) (behind : code[p + 1]? = some t)
      (unnamed : ¬ (4 ≤ t ∧ t ≤ 11)) : FaultAt code p (.malformedAttribute .code)
  /-- A table switch stands there, and its last key is less than its first one. -/
  | tableSwitch (stands : code[p]? = some 170)
      (head : p + 1 + Operand.padding p + 12 ≤ code.length)
      (keys : int32At code (p + 1 + Operand.padding p + 8) <
        int32At code (p + 1 + Operand.padding p + 4)) :
      FaultAt code p (.malformedAttribute .code)
  /-- A lookup switch stands there, and its number of cases is negative. -/
  | lookupSwitch (stands : code[p]? = some 171)
      (head : p + 1 + Operand.padding p + 8 ≤ code.length)
      (count : int32At code (p + 1 + Operand.padding p + 4) < 0) :
      FaultAt code p (.malformedAttribute .code)

section Reading

variable {code : List UInt8} {p : Nat} {e : DecodeError}

/-- What can be wrong with the operands of an instruction. -/
theorem faultAt_of_operand {b : UInt8} {shape : Shape} (stands : code[p]? = some b)
    (hshape : (Opcode.mk b).shape? = some shape) (he : ¬ e.IsAboutEnd)
    (h : Operand.read shape ((Cursor.ofBytes code 0).advance (p + 1)) = .error e) :
    FaultAt code p e := by
  have hposition : ((Cursor.ofBytes code 0).advance (p + 1)).position = p + 1 := Nat.zero_add _
  have hlt : p < code.length := (List.getElem?_eq_some_iff.1 stands).1
  have hremaining : ((Cursor.ofBytes code 0).advance (p + 1)).remaining = code.length - (p + 1) :=
    Cursor.remaining_advance _ _
  have hnumber : ∀ start, int32At ((Cursor.ofBytes code 0).advance (p + 1)).rest start =
      int32At code (p + 1 + start) := Cursor.int32At_advance _ _
  by_cases helement : shape = .primitiveArray
  · subst helement
    obtain rfl : b = 188 := Opcode.byte_of_shape? hshape (by decide)
    obtain ⟨rfl, t, _, ht, hrange⟩ := Operand.fault_of_readPrimitiveArray he h
    exact .elementType stands (Cursor.getElem?_of_u8_advance ht) hrange
  by_cases htable : shape = .tableSwitch
  · subst htable
    obtain rfl : b = 170 := Opcode.byte_of_shape? hshape (by decide)
    obtain ⟨rfl, hhead, hkeys⟩ := Operand.fault_of_readTableSwitch hposition he h
    rw [hnumber, hnumber, ← Nat.add_assoc, ← Nat.add_assoc] at hkeys
    exact .tableSwitch stands (by omega) hkeys
  by_cases hlookup : shape = .lookupSwitch
  · subst hlookup
    obtain rfl : b = 171 := Opcode.byte_of_shape? hshape (by decide)
    obtain ⟨rfl, hhead, hcount⟩ := Operand.fault_of_readLookupSwitch hposition he h
    rw [hnumber, ← Nat.add_assoc] at hcount
    exact .lookupSwitch stands (by omega) hcount
  obtain ⟨n, htakes⟩ := Operand.exists_takes helement htable hlookup
    ((Cursor.ofBytes code 0).advance (p + 1))
  exact absurd (htakes.isAboutEnd h) he

/-- What stands behind the first byte is told by its shape. -/
theorem readBehind_cases (pc : Nat) (op : Opcode) :
    (op.shape? = none ∧ readBehind pc op = throw (.unknownOpcode op.byte pc)) ∨
    (op.shape? = some .widePrefix ∧ readBehind pc op = readWidened pc) ∨
    ∃ shape, op.shape? = some shape ∧
      readBehind pc op = Operand.read shape >>= endingHere pc op false := by
  unfold readBehind
  split
  · exact .inl ⟨by assumption, rfl⟩
  · exact .inr (.inl ⟨by assumption, rfl⟩)
  · exact .inr (.inr ⟨_, by assumption, rfl⟩)

/-- What can be wrong behind a wide prefix. -/
theorem faultAt_of_readWidened (stands : code[p]? = some 196) (he : ¬ e.IsAboutEnd)
    (h : readWidened p ((Cursor.ofBytes code 0).advance (p + 1)) = .error e) :
    FaultAt code p e := by
  rw [readWidened, Cursor.get_bind_apply] at h
  obtain ⟨b, _, hb, h⟩ := (Takes.u8 _).error_behind he h
  dsimp only at h
  cases hread : (Opcode.mk b).shape?.bind Operand.readWide? with
  | some read =>
    rw [hread] at h
    obtain ⟨shape, hshape, hwide⟩ := Option.bind_eq_some_iff.1 hread
    obtain ⟨n, htakes⟩ := Operand.exists_takes_wide hwide
      (((Cursor.ofBytes code 0).advance (p + 1)).advance 1)
    obtain ⟨_, _, _, hending⟩ := htakes.error_behind he h
    rw [endingHere_of_shape hshape] at hending
    exact nomatch hending
  | none =>
    rw [hread] at h
    have hposition : ((Cursor.ofBytes code 0).advance (p + 1)).position = p + 1 := Nat.zero_add _
    cases h
    rw [hposition]
    refine .notWidened stands (Cursor.getElem?_of_u8_advance hb) (fun hslot => ?_)
      fun hincrement => ?_
    · rw [hslot] at hread
      exact nomatch hread
    · rw [hincrement] at hread
      exact nomatch hread

/-- **What is told of an instruction that cannot be read is so.** -/
theorem faultAt_of_read (hp : p < code.length)
    (h : read ((Cursor.ofBytes code 0).advance p) = .error e) : FaultAt code p e := by
  by_cases he : e.IsAboutEnd
  · have hrest : code.drop p ≠ [] := fun hnil => Nat.not_le_of_lt hp (List.drop_eq_nil_iff.1 hnil)
    obtain ⟨o, rfl, hlow, hhigh⟩ := short_of_read (mt List.isEmpty_iff.1 hrest) h he
    rw [Cursor.stop, Cursor.remaining_advance, Cursor.offset_advance] at hhigh
    rw [Cursor.offset_advance] at hlow
    have hstart : (Cursor.ofBytes code 0).offset = 0 := rfl
    have hlength : (Cursor.ofBytes code 0).remaining = code.length := rfl
    exact .truncated (by omega) (by omega)
  · rw [read_eq, Cursor.get_bind_apply] at h
    obtain ⟨b, _, hb, h⟩ := (Takes.u8 _).error_behind he h
    have hposition : ((Cursor.ofBytes code 0).advance p).position = p := Nat.zero_add _
    have stands := Cursor.getElem?_of_u8_advance hb
    rw [hposition, Cursor.advance_advance] at h
    rcases readBehind_cases p ⟨b⟩ with
      ⟨hshape, hbehind⟩ | ⟨hshape, hbehind⟩ | ⟨shape, hshape, hbehind⟩
    · rw [hbehind] at h
      cases h
      exact .unclassified stands hshape
    · rw [hbehind] at h
      obtain rfl : b = 196 := Opcode.byte_of_shape? hshape (by decide)
      exact faultAt_of_readWidened stands he h
    · rw [hbehind] at h
      rcases Cursor.bind_eq_error_iff.1 h with hoperand | ⟨o, mid, _, hending⟩
      · exact faultAt_of_operand stands hshape he hoperand
      · rw [endingHere_of_shape hshape] at hending
        cases hending

/-- Every instruction takes a byte. -/
theorem length_le_of_rowLayout {pc : Nat} {row : List Instruction} {bytes : List UInt8}
    (h : rowLayout pc row bytes) : row.length ≤ bytes.length := by
  induction row generalizing pc bytes with
  | nil => exact Nat.zero_le _
  | cons i row ih =>
    obtain ⟨x, y, hi, hrest, rfl⟩ := h
    have hpos := width_pos_of_layout hi
    have hlen := length_of_layout hi
    have hbehind := ih hrest
    rw [List.length_cons, List.length_append]
    omega

end Reading

end Instruction

/-! ## 3. The answers of a decoder -/

open Instruction (Runs Ends)

namespace Decoder

variable {c mid : Cursor} {row : List Instruction}

/-- What the decoder answers when it is asked once more after it has been asked `k` times. -/
def answer : (k : Nat) → Decoder → Option (Outcome Instruction)
  | 0, d => d.next.1
  | k + 1, d => answer k d.next.2

/-- Behind a fault and at the end of the code there are no answers any more. -/
theorem answer_of_stopped {d : Decoder} (h : (d.failed || d.cursor.isEmpty) = true) (k : Nat) :
    d.answer k = none := by
  have hnext : d.next = (none, d) := if_pos h
  induction k with
  | zero => rw [answer, hnext]
  | succ k ih => rwa [answer, hnext]

/-- A decoder that has bytes ahead reads an instruction. -/
theorem next_of_ahead (h : ¬ c.isEmpty = true) :
    next ⟨c, false⟩ =
      match Instruction.read c with
      | .ok (i, c') => (some (.ok i), ⟨c', false⟩)
      | .error e => (some (.error e), ⟨c, true⟩) := by
  have hgoesOn : ¬ (false || c.isEmpty) = true := h
  exact if_neg hgoesOn

theorem next_of_ok {c' : Cursor} {i : Instruction} (h : Instruction.read c = .ok (i, c')) :
    next ⟨c, false⟩ = (some (.ok i), ⟨c', false⟩) := by
  rw [next_of_ahead (Instruction.not_isEmpty_of_read h), h]

theorem next_of_error {e : DecodeError} (hempty : ¬ c.isEmpty = true)
    (h : Instruction.read c = .error e) :
    next ⟨c, false⟩ = (some (.error e), ⟨c, true⟩) := by
  rw [next_of_ahead hempty, h]

/-- Where a run comes to its end there is one more answer, if there is a fault. -/
theorem answer_of_ends {fault : Option DecodeError} (h : Ends c fault) (k : Nat) :
    answer k ⟨c, false⟩ = (fault.toList.map Except.error)[k]? := by
  cases fault with
  | none =>
    have hstopped : (false || c.isEmpty) = true := h
    exact answer_of_stopped hstopped k
  | some e =>
    have hnext := next_of_error h.1 h.2
    cases k with
    | zero => rw [answer, hnext]; rfl
    | succ k =>
      rw [answer, hnext]
      exact answer_of_stopped rfl k

/-- Along a run the answers are its instructions. -/
theorem answer_of_runs {behind : List (Outcome Instruction)} (h : Runs c row mid)
    (hbehind : ∀ k, answer k ⟨mid, false⟩ = behind[k]?) (k : Nat) :
    answer k ⟨c, false⟩ = (row.map Except.ok ++ behind)[k]? := by
  induction h generalizing k with
  | stop c => exact hbehind k
  | step first _ ih =>
    have hnext := next_of_ok first
    cases k with
    | zero => rw [answer, hnext]; rfl
    | succ k =>
      rw [answer, hnext]
      exact ih hbehind k

/-- **The answers of a decoder are what is decoded at once**: the instructions up to the first
    fault, the fault, and then nothing any more. -/
theorem answer_eq (code : List UInt8) (k : Nat) :
    (ofCode code).answer k = ((decodeSteps code).instructions.map Except.ok ++
      (decodeSteps code).fault.toList.map Except.error)[k]? := by
  obtain ⟨mid, hruns, hends⟩ := decodeSteps_eq_iff.1 (rfl : decodeSteps code = ⟨_, _⟩)
  exact answer_of_runs hruns (answer_of_ends hends) k

end Decoder

/-- **A decoder stops once, at the instruction at fault, and tells what is wrong with it.** It
    answers the instructions that tile the code up to a place `p`, at most one for each byte. If `p`
    is the end of the code, that is all, and it is what is decoded of the code as a whole. If not,
    the next answer is a fault of the instruction that starts at `p`, decoding as a whole ends with
    this fault, and there are no answers any more. -/
theorem decoder_stops_once (code : List UInt8) :
    ∃ row p, p ≤ code.length ∧ row.length ≤ p ∧ Instruction.Tiles 0 row p ∧
      decode (code.take p) = .ok row ∧
      ((p = code.length ∧ decode code = .ok row ∧
          ∀ k, (Decoder.ofCode code).answer k = (row.map Except.ok)[k]?) ∨
        (p < code.length ∧ ∃ e, Instruction.FaultAt code p e ∧ decode code = .error e ∧
          ∀ k, (Decoder.ofCode code).answer k = (row.map Except.ok ++ [.error e])[k]?)) := by
  obtain ⟨row, fault, hsteps⟩ : ∃ row fault, decodeSteps code = ⟨row, fault⟩ := ⟨_, _, rfl⟩
  have hanswer := Decoder.answer_eq code
  rw [hsteps] at hanswer
  obtain ⟨mid, hruns, hends⟩ := decodeSteps_eq_iff.1 hsteps
  obtain ⟨x, hx, hrow⟩ := Instruction.runs_iff.1 hruns
  have hcode : code = x ++ mid.rest := hx.rest
  have htake : code.take x.length = x := by rw [hcode, List.take_left]
  have hlength : code.length = x.length + mid.rest.length := by
    rw [← List.length_append, ← hcode]
  have htiles : Instruction.Tiles 0 row x.length := by
    have h : Instruction.Tiles 0 row (0 + x.length) := Instruction.tiles_of_rowLayout hrow
    rwa [Nat.zero_add] at h
  refine ⟨row, x.length, by omega, Instruction.length_le_of_rowLayout hrow, htiles,
    htake.symm ▸ decode_eq_ok_iff.2 hrow, ?_⟩
  cases fault with
  | none =>
    have hwhole : x = code := (Cursor.passes_ofBytes_iff hx).1 hends
    refine .inl ⟨congrArg List.length hwhole, ?_, fun k => ?_⟩
    · exact decode_eq_ok_iff.2 (hwhole ▸ hrow)
    · rw [hanswer k]
      exact congrArg (·[k]?) (List.append_nil _)
  | some e =>
    have hahead : mid.rest ≠ [] := mt List.isEmpty_iff.2 hends.1
    have hlt : x.length < code.length := by
      have hpos := List.length_pos_iff.2 hahead
      omega
    have hread : Instruction.read ((Cursor.ofBytes code 0).advance x.length) = .error e :=
      hx.eq_advance ▸ hends.2
    exact .inr ⟨hlt, e, Instruction.faultAt_of_read hlt hread, decode_of_fault hsteps, hanswer⟩

/-- A wide prefix does not widen the instruction behind it, and a decoder says so once. -/
example :
    (Decoder.ofCode [0, 196, 0, 0]).answer 0 = some (.ok ⟨0, ⟨0⟩, false, .nothing, 1⟩) ∧
      (Decoder.ofCode [0, 196, 0, 0]).answer 1 = some (.error (.unknownOpcode 0 2)) ∧
      (Decoder.ofCode [0, 196, 0, 0]).answer 2 = none := by
  decide +kernel

end ClassView
