import ClassView.Proofs.Instruction.Decoding
import ClassView.Proofs.Instruction.Stability

/-!
# Code arrays that are cut off

A code array that is decoded may be cut off anywhere. At the start of an instruction the cut is not
seen: what stands in front of it is decoded as before. Inside of an instruction it leaves those in
front of that one, and behind them the fault that the bytes ran out, told for a place behind the
first byte of the instruction. It does not matter what is cut: a prefix from what it widens, the
padding, the head or the cases of a switch.

* `Instruction.filter_pc_lt`, `Instruction.exists_parts`: rows in two parts;
* **`decodeSteps_eq_fault_iff`**: a run is a row of instructions as far as it goes, and the fault of
  the next one;
* `Instruction.short_of_cut`: an instruction that is cut off runs out of bytes;
* **`decode_take`**: what is decoded of a code array that is cut off.
-/

namespace ClassView

namespace Instruction

variable {pc : Nat} {i : Instruction} {bytes : List UInt8} {row front back : List Instruction}

/-! ## 1. Rows in two parts -/

theorem pc_of_layout (h : layout pc i bytes) : i.pc = pc := by
  obtain ⟨command, fill, _, rfl, _⟩ := h
  rfl

/-- The instructions of a row lie between its start and its end. -/
theorem mem_range_of_rowLayout (h : rowLayout pc row bytes) (hi : i ∈ row) :
    pc ≤ i.pc ∧ 0 < i.width ∧ i.pc + i.width ≤ pc + bytes.length := by
  obtain ⟨front, x, back, rfl, hpc, hlayout⟩ := exists_of_mem_rowLayout h hi
  have hlen := length_of_layout hlayout
  have hpos := width_pos_of_layout hlayout
  simp only [List.length_append]
  omega

/-- The instructions in front of the second part of a row are those of the first part. -/
theorem filter_pc_lt {x y : List UInt8} (hfront : rowLayout pc front x)
    (hback : rowLayout (pc + x.length) back y) :
    (front ++ back).filter (·.pc < pc + x.length) = front := by
  have hkept : front.filter (·.pc < pc + x.length) = front := by
    refine List.filter_eq_self.2 fun i hi => decide_eq_true ?_
    have hrange := mem_range_of_rowLayout hfront hi
    omega
  have hdropped : back.filter (·.pc < pc + x.length) = [] := by
    refine List.filter_eq_nil_iff.2 fun i hi hlt => ?_
    have hrange := mem_range_of_rowLayout hback hi
    have hpc := of_decide_eq_true hlt
    omega
  rw [List.filter_append, hkept, hdropped, List.append_nil]

/-- A place among the bytes of a row is the start of an instruction, the end of the row, or inside
    of an instruction. -/
theorem exists_parts {k : Nat} (h : rowLayout pc row bytes) (hk : k ≤ bytes.length) :
    ∃ front back x y, row = front ++ back ∧ bytes = x ++ y ∧ rowLayout pc front x ∧
      rowLayout (pc + x.length) back y ∧
      (k = x.length ∨ ∃ i rest, back = i :: rest ∧ x.length < k ∧ k < x.length + i.width) := by
  induction row generalizing pc bytes k with
  | nil =>
    obtain rfl : bytes = [] := h
    exact ⟨[], [], [], [], rfl, rfl, rfl, rfl, .inl (Nat.le_zero.1 hk)⟩
  | cons i row ih =>
    have hrow := h
    obtain ⟨x, y, hi, hrest, rfl⟩ := h
    have hlen := length_of_layout hi
    rcases Nat.eq_zero_or_pos k with rfl | hpos
    · exact ⟨[], i :: row, [], x ++ y, rfl, rfl, rfl, hrow, .inl rfl⟩
    by_cases hinside : k < i.width
    · refine ⟨[], i :: row, [], x ++ y, rfl, rfl, rfl, hrow, .inr ⟨i, row, rfl, hpos, ?_⟩⟩
      exact Nat.lt_of_lt_of_eq hinside (Nat.zero_add i.width).symm
    · have hbehind : k - i.width ≤ y.length := by
        rw [List.length_append] at hk
        omega
      obtain ⟨front, back, x', y', rfl, rfl, hfront, hback, hplace⟩ := ih hrest hbehind
      refine ⟨i :: front, back, x ++ x', y', rfl, (List.append_assoc _ _ _).symm,
        ⟨x, x', hi, hfront, rfl⟩, ?_, ?_⟩
      · rwa [List.length_append, hlen, ← Nat.add_assoc]
      · rw [List.length_append, hlen]
        rcases hplace with hend | ⟨j, rest, rfl, hlow, hhigh⟩
        · exact .inl (by omega)
        · exact .inr ⟨j, rest, rfl, by omega, by omega⟩

/-! ## 2. Runs -/

/-- The instructions can be read one after the other between the two cursors. -/
inductive Runs : Cursor → List Instruction → Cursor → Prop
  | stop (c : Cursor) : Runs c [] c
  | step {c c' mid : Cursor} {i : Instruction} {row : List Instruction}
      (first : read c = .ok (i, c')) (rest : Runs c' row mid) : Runs c (i :: row) mid

/-- **Instructions are read one after the other exactly where they stand in a row.** -/
theorem runs_iff {c mid : Cursor} :
    Runs c row mid ↔ ∃ x, c.Passes x mid ∧ rowLayout c.position row x := by
  refine ⟨fun h => ?_, fun h => ?_⟩
  · induction h with
    | stop c => exact ⟨[], Cursor.Passes.refl c, rfl⟩
    | step first _ ih =>
      obtain ⟨y, hy, hrest⟩ := ih
      obtain ⟨x, hx, hi⟩ := (reads _ _ _).1 first
      rw [hx.position, length_of_layout hi] at hrest
      exact ⟨x ++ y, hx.trans hy, x, y, hi, hrest, rfl⟩
  · induction row generalizing c with
    | nil =>
      obtain ⟨x, hx, rfl⟩ := h
      exact hx.of_nil ▸ .stop c
    | cons i row ih =>
      obtain ⟨_, hx, x, y, hi, hrest, rfl⟩ := h
      obtain ⟨c', hfirst, hbehind⟩ := hx.split
      refine .step ((reads c i c').2 ⟨x, hfirst, hi⟩) (ih ⟨y, hbehind, ?_⟩)
      rwa [hfirst.position, length_of_layout hi]

/-- Two runs in a row are a run. -/
theorem Runs.trans {c mid c' : Cursor} (h : Runs c front mid) (h' : Runs mid back c') :
    Runs c (front ++ back) c' := by
  induction h with
  | stop c => exact h'
  | step first _ ih => exact .step first (ih h')

theorem not_isEmpty_of_read {c c' : Cursor} (h : read c = .ok (i, c')) : ¬ c.isEmpty = true := by
  intro hempty
  have hlt := remaining_lt_of_read h
  rw [Cursor.remaining, Cursor.remaining, List.isEmpty_iff.1 hempty, List.length_nil] at hlt
  exact absurd hlt (Nat.not_lt_zero _)

end Instruction

open Instruction (Runs)

/-- Decoding on ends with a fault exactly if it runs as far as an instruction that cannot be read.
    The induction is on `room`, which covers the bytes ahead at every step. -/
theorem decodeOnto_eq_fault_iff {e : DecodeError} {row : List Instruction} (room : Nat) (c : Cursor)
    (done : List Instruction) (hroom : c.remaining ≤ room) :
    decodeOnto room c done = ⟨row, some e⟩ ↔ ∃ rest mid, row = done.reverse ++ rest ∧
      Runs c rest mid ∧ ¬ mid.isEmpty = true ∧ Instruction.read mid = .error e := by
  -- both where `room` is used up and where the bytes are
  have hend : ∀ (c : Cursor) (done : List Instruction), c.isEmpty = true →
      ((⟨done.reverse, none⟩ : DecodeSteps) = ⟨row, some e⟩ ↔ ∃ rest mid,
        row = done.reverse ++ rest ∧ Runs c rest mid ∧ ¬ mid.isEmpty = true ∧
          Instruction.read mid = .error e) := by
    refine fun c done hempty => ⟨fun h => ?_, fun h => ?_⟩
    · cases h
    · obtain ⟨rest, mid, _, hruns, hahead, _⟩ := h
      cases hruns with
      | stop => exact absurd hempty hahead
      | step first => exact absurd hempty (Instruction.not_isEmpty_of_read first)
  induction room generalizing c done with
  | zero =>
    exact hend c done (List.isEmpty_iff.2 (List.eq_nil_of_length_eq_zero (Nat.le_zero.1 hroom)))
  | succ room ih =>
    rw [decodeOnto]
    by_cases hempty : c.isEmpty = true
    · rw [if_pos hempty]
      exact hend c done hempty
    · rw [if_neg hempty]
      cases hread : Instruction.read c with
      | error e' =>
        refine ⟨fun h => ?_, fun h => ?_⟩
        · cases h
          exact ⟨[], c, (List.append_nil _).symm, .stop c, hempty, hread⟩
        · obtain ⟨rest, mid, rfl, hruns, _, hfault⟩ := h
          cases hruns with
          | stop =>
            cases hread.symm.trans hfault
            rw [List.append_nil]
          | step first => cases hread.symm.trans first
      | ok p =>
        obtain ⟨i, c'⟩ := p
        have hroom' : c'.remaining ≤ room := by
          have hlt := Instruction.remaining_lt_of_read hread
          omega
        refine (ih c' (i :: done) hroom').trans ⟨fun h => ?_, fun h => ?_⟩
        · obtain ⟨rest, mid, rfl, hruns, hahead, hfault⟩ := h
          refine ⟨i :: rest, mid, ?_, .step hread hruns, hahead, hfault⟩
          rw [List.reverse_cons, List.append_assoc, List.singleton_append]
        · obtain ⟨rest, mid, rfl, hruns, hahead, hfault⟩ := h
          cases hruns with
          | stop => cases hread.symm.trans hfault
          | step first hrest =>
            cases hread.symm.trans first
            refine ⟨_, mid, ?_, hrest, hahead, hfault⟩
            rw [List.reverse_cons, List.append_assoc, List.singleton_append]

/-- **A run that ends with a fault is a row of instructions, and behind it one that cannot be
    read.** -/
theorem decodeSteps_eq_fault_iff {code : List UInt8} {row : List Instruction} {e : DecodeError} :
    decodeSteps code = ⟨row, some e⟩ ↔ ∃ mid, Runs (Cursor.ofBytes code 0) row mid ∧
      ¬ mid.isEmpty = true ∧ Instruction.read mid = .error e := by
  refine (decodeOnto_eq_fault_iff code.length (Cursor.ofBytes code 0) [] (Nat.le_refl _)).trans ?_
  refine ⟨fun h => ?_, fun h => ?_⟩
  · obtain ⟨rest, mid, rfl, hmid⟩ := h
    exact ⟨mid, hmid⟩
  · obtain ⟨mid, hmid⟩ := h
    exact ⟨row, mid, rfl, hmid⟩

/-- Where a run comes to its end: there are no more bytes, or an instruction that cannot be read. -/
def Instruction.Ends (c : Cursor) : Option DecodeError → Prop
  | none => c.isEmpty = true
  | some e => ¬ c.isEmpty = true ∧ Instruction.read c = .error e

/-- **Decoding is a run and what ends it**, with or without a fault. -/
theorem decodeSteps_eq_iff {code : List UInt8} {row : List Instruction}
    {fault : Option DecodeError} :
    decodeSteps code = ⟨row, fault⟩ ↔
      ∃ mid, Runs (Cursor.ofBytes code 0) row mid ∧ Instruction.Ends mid fault := by
  cases fault with
  | some e => exact decodeSteps_eq_fault_iff
  | none =>
    have hdecode : decodeSteps code = ⟨row, none⟩ ↔ decode code = .ok row := by
      rw [decode]
      obtain ⟨instructions, fault⟩ := decodeSteps code
      cases fault with
      | none => simp
      | some e => simp
    rw [hdecode, decode_eq_ok_iff]
    refine ⟨fun hrow => ?_, fun hruns => ?_⟩
    · refine ⟨⟨[], code.length, 0⟩, Instruction.runs_iff.2 ⟨code, ⟨?_, ?_, rfl⟩, hrow⟩, rfl⟩
      · exact (List.append_nil code).symm
      · exact (Nat.zero_add _).symm
    · obtain ⟨mid, hruns, hempty⟩ := hruns
      obtain ⟨x, hx, hrow⟩ := Instruction.runs_iff.1 hruns
      rwa [(Cursor.passes_ofBytes_iff hx).1 hempty] at hrow

/-! ## 3. Cuts -/

/-- **An instruction that is cut off runs out of bytes behind its first one.** No other fault is
    found in what is left, since what is wrong there would be wrong in the whole. -/
theorem Instruction.short_of_cut {c c' : Cursor} {i : Instruction} {more : List UInt8}
    (h : read (c.extend more) = .ok (i, c')) (hempty : ¬ c.isEmpty = true)
    (hcut : c.stop < c'.offset) :
    ∃ o, read c = .error (.truncatedInput o) ∧ c.offset < o ∧ o ≤ c.stop := by
  cases hread : read c with
  | ok p =>
    obtain ⟨j, mid⟩ := p
    cases h.symm.trans (stable_read.ok_extend more hread)
    obtain ⟨x, hx⟩ := stable_read.passes hread
    have hstop : mid.offset ≤ mid.stop := Nat.le_add_right _ _
    rw [hx.stop] at hstop
    exact absurd hcut (Nat.not_lt_of_le hstop)
  | error e =>
    have hend : e.IsAboutEnd := by
      by_contra hother
      exact nomatch h.symm.trans (stable_read.error_extend more hread hother)
    obtain ⟨o, rfl, hlow, hhigh⟩ := short_of_read hempty hread hend
    exact ⟨o, rfl, hlow, hhigh⟩

/-- A cut inside of an instruction leaves the instructions in front of it and the fault. -/
theorem decodeSteps_of_cut {x z y : List UInt8} {front : List Instruction} {i : Instruction}
    {k : Nat} (hfront : Instruction.rowLayout 0 front x) (hi : Instruction.layout x.length i z)
    (hlow : x.length < k) (hhigh : k < x.length + i.width) :
    ∃ o, x.length < o ∧ o ≤ k ∧
      decodeSteps ((x ++ (z ++ y)).take k) = ⟨front, some (.truncatedInput o)⟩ := by
  have hlen := Instruction.length_of_layout hi
  have hleft : k - x.length ≤ z.length := by omega
  have htake : (x ++ (z ++ y)).take k = x ++ z.take (k - x.length) := by
    rw [List.take_append, List.take_of_length_le (Nat.le_of_lt hlow),
      List.take_append_of_le_length hleft]
  let c : Cursor := ⟨z.take (k - x.length), x.length, 0⟩
  have hremaining : c.remaining = k - x.length := List.length_take_of_le hleft
  have hoffset : c.offset = x.length := Nat.zero_add _
  have hstop : c.stop = k := by
    rw [Cursor.stop, hremaining, hoffset]
    omega
  have hempty : ¬ c.isEmpty = true := fun hnil => by
    have hzero : c.remaining = 0 := List.length_eq_zero_iff.2 (List.isEmpty_iff.1 hnil)
    omega
  have hruns : Runs (Cursor.ofBytes (x ++ z.take (k - x.length)) 0) front c :=
    Instruction.runs_iff.2 ⟨x, ⟨rfl, (Nat.zero_add _).symm, rfl⟩, hfront⟩
  have hwhole : Instruction.read (c.extend (z.drop (k - x.length) ++ y)) =
      .ok (i, ⟨y, x.length + z.length, 0⟩) := by
    refine (Instruction.reads _ _ _).2 ⟨z, ⟨?_, rfl, rfl⟩, hi⟩
    show z.take (k - x.length) ++ (z.drop (k - x.length) ++ y) = z ++ y
    rw [← List.append_assoc, List.take_append_drop]
  have hcut : c.stop < (⟨y, x.length + z.length, 0⟩ : Cursor).offset := by
    rw [hstop, Cursor.offset, Nat.zero_add, hlen]
    exact hhigh
  obtain ⟨o, hfault, hbehind, hinside⟩ := Instruction.short_of_cut hwhole hempty hcut
  refine ⟨o, hoffset ▸ hbehind, hstop ▸ hinside, ?_⟩
  rw [htake]
  exact decodeSteps_eq_fault_iff.2 ⟨c, hruns, hempty, hfault⟩

theorem decode_of_fault {code : List UInt8} {row : List Instruction} {e : DecodeError}
    (h : decodeSteps code = ⟨row, some e⟩) : decode code = .error e := by
  unfold decode
  rw [h]

/-- **A code array may be cut off anywhere.** At the start of an instruction and at the end, what is
    in front of the cut is decoded as before. Anywhere else the cut is inside of an instruction, and
    what is left is the instructions in front of that one and the fault that the bytes ran out, told
    for a place behind its first byte and not behind the cut. -/
theorem decode_take {code : List UInt8} {row : List Instruction} (h : decode code = .ok row)
    {k : Nat} (hk : k ≤ code.length) :
    ((k = code.length ∨ ∃ i ∈ row, i.pc = k) →
      decode (code.take k) = .ok (row.filter (·.pc < k))) ∧
    (¬ (k = code.length ∨ ∃ i ∈ row, i.pc = k) →
      ∃ i ∈ row, i.pc < k ∧ k < i.pc + i.width ∧ ∃ o, i.pc < o ∧ o ≤ k ∧
        decodeSteps (code.take k) = ⟨row.filter (·.pc < i.pc), some (.truncatedInput o)⟩ ∧
        decode (code.take k) = .error (.truncatedInput o)) := by
  obtain ⟨front, back, x, y, rfl, rfl, hfront, hback, hplace⟩ :=
    Instruction.exists_parts (decode_eq_ok_iff.1 h) hk
  have hfilter := Instruction.filter_pc_lt hfront hback
  rw [Nat.zero_add] at hback hfilter
  rcases hplace with rfl | ⟨i, rest, rfl, hlow, hhigh⟩
  · refine ⟨fun _ => ?_, fun hinside => absurd ?_ hinside⟩
    · rw [List.take_left, hfilter]
      exact decode_eq_ok_iff.2 hfront
    · cases back with
      | nil =>
        obtain rfl : y = [] := hback
        exact .inl (congrArg List.length (List.append_nil x)).symm
      | cons i rest =>
        obtain ⟨z, _, hi, _⟩ := hback
        exact .inr ⟨i, List.mem_append_right _ List.mem_cons_self, Instruction.pc_of_layout hi⟩
  · obtain ⟨z, y, hi, hrest, rfl⟩ := hback
    have hpc := Instruction.pc_of_layout hi
    have hlen := Instruction.length_of_layout hi
    refine ⟨fun hboundary => ?_, fun _ => ?_⟩
    · -- no instruction starts inside of another one
      exfalso
      rcases hboundary with hend | ⟨j, hj, hstart⟩
      · rw [hend, List.length_append, List.length_append] at hhigh
        omega
      rcases List.mem_append.1 hj with hj | hj
      · have hrange := Instruction.mem_range_of_rowLayout hfront hj
        omega
      rcases List.mem_cons.1 hj with rfl | hj
      · omega
      · have hrange := Instruction.mem_range_of_rowLayout hrest hj
        omega
    · obtain ⟨o, hbehind, hinside, hsteps⟩ := decodeSteps_of_cut (y := y) hfront hi hlow hhigh
      refine ⟨i, List.mem_append_right _ List.mem_cons_self, by omega, by omega, o, by omega,
        hinside, ?_, decode_of_fault hsteps⟩
      rw [hpc, hfilter]
      exact hsteps

/-- Cut in front of the widened increment, among the cases of the switch, and between the prefix and
    the increment. -/
theorem decode_take_sample :
    decode sampleCode = .ok sampleRow ∧
      decode (sampleCode.take 24) = .ok (sampleRow.filter (·.pc < 24)) ∧
      (∃ o, decode (sampleCode.take 22) = .error (.truncatedInput o)) ∧
      ∃ o, decode (sampleCode.take 25) = .error (.truncatedInput o) := by
  obtain ⟨hstart, _⟩ := decode_take decode_sample (k := 24) (by decide)
  obtain ⟨_, hcases⟩ := decode_take decode_sample (k := 22) (by decide)
  obtain ⟨_, hprefix⟩ := decode_take decode_sample (k := 25) (by decide)
  obtain ⟨_, _, _, _, o, _, _, _, hshort⟩ := hcases (by decide)
  obtain ⟨_, _, _, _, o', _, _, _, hshort'⟩ := hprefix (by decide)
  exact ⟨decode_sample, hstart (by decide), ⟨o, hshort⟩, o', hshort'⟩

end ClassView
