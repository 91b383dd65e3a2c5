import ClassView.Instruction.Decoder
import ClassView.Proofs.Instruction.Layout

/-!
# Reading instructions back

`Operand.read` and `Operand.readWide?` against the layout of operands: they succeed exactly on the
bytes of the operands that the shape calls for, and answer these.

* `Operand.suits_…_iff`: what the operands of a shape look like;
* **`Operand.reads`**, **`Operand.reads_wide`**: the operands of every shape are read back.
-/

namespace ClassView

/-! ## 1. The operands of a shape -/

namespace Operand

/-- Operands by their form: narrow and wide variables, short and long distances and numbers of one
    and of two bytes count as different forms. -/
theorem cases_forms {motive : Operand → Prop} (nothing : motive .nothing)
    (index : ∀ i, motive (.index i)) (wideIndex : ∀ i, motive (.wideIndex i))
    (narrowSlot : ∀ i, motive (.slot (.narrow i))) (wideSlot : ∀ i, motive (.slot (.wide i)))
    (narrowIncrement : ∀ i a, motive (.increment (.narrow i) a))
    (wideIncrement : ∀ i a, motive (.increment (.wide i) a))
    (shortBranch : ∀ d, motive (.branch (.short d))) (longBranch : ∀ d, motive (.branch (.long d)))
    (byteLiteral : ∀ v, motive (.literal (.byte v)))
    (shortLiteral : ∀ v, motive (.literal (.short v)))
    (primitiveArray : ∀ e, motive (.primitiveArray e))
    (interfaceCall : ∀ i n, motive (.interfaceCall i n))
    (dynamicCall : ∀ i, motive (.dynamicCall i)) (multiArray : ∀ i n, motive (.multiArray i n))
    (tableSwitch : ∀ d low high offsets, motive (.tableSwitch d low high offsets))
    (lookupSwitch : ∀ d pairs, motive (.lookupSwitch d pairs)) (reserved : motive .reserved)
    (o : Operand) : motive o := by
  cases o with
  | nothing => exact nothing
  | index i => exact index i
  | wideIndex i => exact wideIndex i
  | slot s =>
    cases s with
    | narrow i => exact narrowSlot i
    | wide i => exact wideSlot i
  | increment s a =>
    cases s with
    | narrow i => exact narrowIncrement i a
    | wide i => exact wideIncrement i a
  | branch d =>
    cases d with
    | short d => exact shortBranch d
    | long d => exact longBranch d
  | literal v =>
    cases v with
    | byte v => exact byteLiteral v
    | short v => exact shortLiteral v
  | primitiveArray e => exact primitiveArray e
  | interfaceCall i n => exact interfaceCall i n
  | dynamicCall i => exact dynamicCall i
  | multiArray i n => exact multiArray i n
  | tableSwitch d low high offsets => exact tableSwitch d low high offsets
  | lookupSwitch d pairs => exact lookupSwitch d pairs
  | reserved => exact reserved

variable {o : Operand}

/-- An index that fits one byte is one byte widened. -/
theorem exists_toUInt16_iff {i : UInt16} : i.toNat < 256 ↔ ∃ j : UInt8, i = j.toUInt16 := by
  refine ⟨?_, ?_⟩
  · intro h
    refine ⟨i.toUInt8, UInt16.toNat_inj.1 ?_⟩
    rw [UInt8.toNat_toUInt16, UInt16.toNat_toUInt8]
    exact (Nat.mod_eq_of_lt h).symm
  · intro hgiven
    rcases hgiven with ⟨j, rfl⟩
    rw [UInt8.toNat_toUInt16]
    exact j.toNat_lt

theorem suits_constant_iff : o.suits .constant = true ↔ ∃ i : UInt8, o = .index i.toUInt16 := by
  cases o using cases_forms <;> simp [← exists_toUInt16_iff]

/-- A number of two bytes that lies in the range of one byte is one byte widened. -/
theorem exists_toInt16_iff {amount : Int16} :
    (-128 ≤ amount.toInt ∧ amount.toInt ≤ 127) ↔ ∃ a : Int8, amount = a.toInt16 := by
  refine ⟨?_, ?_⟩
  · intro hgiven
    rcases hgiven with ⟨hlow, hhigh⟩
    refine ⟨amount.toInt8, Int16.toInt_inj.1 ?_⟩
    rw [Int8.toInt_toInt16, Int16.toInt_toInt8, Int.bmod_eq_of_le] <;> omega
  · intro hgiven
    rcases hgiven with ⟨a, rfl⟩
    rw [Int8.toInt_toInt16]
    exact ⟨a.le_toInt, Int.le_of_lt_add_one a.toInt_lt⟩

theorem suits_increment_iff :
    o.suits .increment = true ↔ ∃ i, ∃ a : Int8, o = .increment (.narrow i) a.toInt16 := by
  cases o using cases_forms <;> simp [← exists_toInt16_iff]

/-- The element types that have a name are those from 4 to 11. -/
theorem isSome_elementTypeName? (e : UInt8) :
    (elementTypeName? e).isSome = true ↔ 4 ≤ e ∧ e ≤ 11 := by
  have h : ∀ b : Fin 256, (elementTypeName? (UInt8.ofFin b)).isSome = true ↔
      4 ≤ UInt8.ofFin b ∧ UInt8.ofFin b ≤ 11 := by
    decide +kernel
  exact h e.toFin

theorem suits_primitiveArray_iff :
    o.suits .primitiveArray = true ↔
      ∃ e, o = .primitiveArray e ∧ (elementTypeName? e).isSome = true := by
  cases o using cases_forms <;> simp [isSome_elementTypeName?]

theorem suits_interfaceCall_iff :
    o.suits .interfaceCall = true ↔ ∃ i n, o = .interfaceCall i n := by
  cases o using cases_forms <;> simp

theorem suits_dynamicCall_iff : o.suits .dynamicCall = true ↔ ∃ i, o = .dynamicCall i := by
  cases o using cases_forms <;> simp

theorem suits_multiArray_iff : o.suits .multiArray = true ↔ ∃ i n, o = .multiArray i n := by
  cases o using cases_forms <;> simp

theorem exists_branch_of_suits {shape : Shape} (h : o.suits shape = true)
    (hbranch : shape = .branch ∨ shape = .wideBranch) :
    ∃ offset, o = .branch offset ∧ offset.shape = shape := by
  rcases hbranch with rfl | rfl <;> cases o using cases_forms <;> simp_all

theorem suits_tableSwitch_iff :
    o.suits .tableSwitch = true ↔ ∃ d low high offsets, o = .tableSwitch d low high offsets ∧
      low ≤ high ∧ (offsets.length : Int) = high.toInt - low.toInt + 1 := by
  cases o using cases_forms with
  | tableSwitch d low high offsets =>
    refine ⟨?_, ?_⟩
    · intro h
      exact ⟨d, low, high, offsets, rfl, by simpa using h⟩
    · intro hgiven
      rcases hgiven with ⟨_, _, _, _, heq, h⟩
      cases heq
      simpa using h
  | _ => simp

theorem suits_lookupSwitch_iff :
    o.suits .lookupSwitch = true ↔
      ∃ d pairs, o = .lookupSwitch d pairs ∧ pairs.length < 2147483648 := by
  cases o using cases_forms with
  | lookupSwitch d pairs =>
    refine ⟨?_, ?_⟩
    · intro h
      exact ⟨d, pairs, rfl, by simpa using h⟩
    · intro hgiven
      rcases hgiven with ⟨_, _, heq, h⟩
      cases heq
      simpa using h
  | _ => simp

/-! ## 2. Reading operands -/

/-- The operands of a shape, as they are stored behind an opcode at `pc`. -/
def layout (pc : Nat) (shape : Shape) : Layout Operand := fun o bytes =>
  o.suits shape = true ∧ ∃ fill, bytes = o.bytes fill pc shape

section Reading

variable {pc : Nat} {shape : Shape} {c : Cursor}

/-- An operand that is one number. -/
theorem reads_number {α : Type} {read : Read α} {write : α → List UInt8} (f : α → Operand)
    (h : Reads read (Layout.fixed write) c)
    (hsuits : ∀ {o : Operand}, o.suits shape = true ↔ ∃ a, o = f a)
    (hbytes : ∀ fill a, (f a).bytes fill pc shape = write a) :
    Reads (f <$> read) (layout pc shape) c := by
  refine (h.map f).congr fun o bytes => ⟨?_, ?_⟩
  · intro hgiven
    rcases hgiven with ⟨a, rfl, rfl⟩
    exact ⟨hsuits.2 ⟨a, rfl⟩, fun _ => 0, (hbytes _ a).symm⟩
  · intro hgiven
    rcases hgiven with ⟨hs, fill, rfl⟩
    obtain ⟨a, rfl⟩ := hsuits.1 hs
    exact ⟨a, rfl, hbytes fill a⟩

/-- An operand without bytes. -/
theorem reads_empty {o : Operand} (hsuits : ∀ {o' : Operand}, o'.suits shape = true ↔ o' = o)
    (hbytes : ∀ fill, o.bytes fill pc shape = []) :
    Reads (pure o) (layout pc shape) c := by
  refine (Reads.pure o c).congr fun o' bytes => ⟨?_, ?_⟩
  · intro hgiven
    rcases hgiven with ⟨rfl, rfl⟩
    exact ⟨hsuits.2 rfl, fun _ => 0, (hbytes _).symm⟩
  · intro hgiven
    rcases hgiven with ⟨hs, fill, rfl⟩
    obtain rfl := hsuits.1 hs
    exact ⟨rfl, hbytes fill⟩

theorem reads_increment :
    Reads (Operand.read .increment) (layout pc .increment) c := by
  refine (Reads.pair (fun i a => Operand.increment (.narrow i) (Int8.toInt16 a)) c
    Reads.u8 Reads.i8).congr fun o bytes => ?_
  simp only [layout, suits_increment_iff]
  refine ⟨?_, ?_⟩
  · intro hgiven
    rcases hgiven with ⟨i, a, rfl, rfl⟩
    exact ⟨⟨i, a, rfl⟩, fun _ => 0, by simp⟩
  · intro hgiven
    rcases hgiven with ⟨⟨i, a, rfl⟩, fill, rfl⟩
    exact ⟨i, a, rfl, by simp⟩

theorem reads_multiArray :
    Reads (Operand.read .multiArray) (layout pc .multiArray) c := by
  refine (Reads.pair Operand.multiArray c Reads.u16 Reads.u8).congr fun o bytes => ?_
  simp only [layout, suits_multiArray_iff]
  refine ⟨?_, ?_⟩
  · intro hgiven
    rcases hgiven with ⟨i, n, rfl, rfl⟩
    exact ⟨⟨i, n, rfl⟩, fun _ => 0, by simp⟩
  · intro hgiven
    rcases hgiven with ⟨⟨i, n, rfl⟩, fill, rfl⟩
    exact ⟨i, n, rfl, by simp⟩

theorem reads_primitiveArray :
    Reads (Operand.read .primitiveArray) (layout pc .primitiveArray) c := by
  have h : Reads (Operand.read .primitiveArray) _ c :=
    (Reads.u8 c).bind fun e _ mid _ _ =>
      Reads.guard fun _ => Reads.pure (Operand.primitiveArray e) mid
  refine h.congr fun o bytes => ?_
  simp only [Layout.bind_fixed_iff, Layout.only, layout, suits_primitiveArray_iff,
    Bool.not_eq_true, Option.isNone_eq_false_iff]
  refine ⟨?_, ?_⟩
  · intro hgiven
    rcases hgiven with ⟨e, _, ⟨he, rfl, rfl⟩, rfl⟩
    exact ⟨⟨e, rfl, he⟩, fun _ => 0, by simp⟩
  · intro hgiven
    rcases hgiven with ⟨⟨e, rfl, he⟩, fill, rfl⟩
    exact ⟨e, _, ⟨he, rfl, rfl⟩, by simp⟩

theorem reads_interfaceCall :
    Reads (Operand.read .interfaceCall) (layout pc .interfaceCall) c := by
  have h : Reads (Operand.read .interfaceCall) _ c :=
    (Reads.u16 c).bind fun i _ mid _ _ =>
      (Reads.u8 mid).bind fun n _ mid' _ _ =>
        (Reads.skip 1 mid').bind fun _ _ behind _ _ => Reads.pure (Operand.interfaceCall i n) behind
  refine h.congr fun o bytes => ?_
  simp only [Layout.bind_fixed_iff, Layout.bind_only_iff, layout, suits_interfaceCall_iff]
  refine ⟨?_, ?_⟩
  · intro hgiven
    rcases hgiven with ⟨i, _, ⟨n, gap, ⟨_, rfl, hgap⟩, rfl⟩, rfl⟩
    obtain ⟨fill, hfill⟩ := exists_fillBytes (pc + 4) gap
    rw [hgap] at hfill
    exact ⟨⟨i, n, rfl⟩, fill, by rw [Operand.bytes, hfill]⟩
  · intro hgiven
    rcases hgiven with ⟨⟨i, n, rfl⟩, fill, rfl⟩
    exact ⟨i, _, ⟨n, _, ⟨(), rfl, length_fillBytes fill (pc + 4) 1⟩, rfl⟩, rfl⟩

theorem reads_dynamicCall :
    Reads (Operand.read .dynamicCall) (layout pc .dynamicCall) c := by
  have h : Reads (Operand.read .dynamicCall) _ c :=
    (Reads.u16 c).bind fun i _ mid _ _ =>
      (Reads.skip 2 mid).bind fun _ _ behind _ _ => Reads.pure (Operand.dynamicCall i) behind
  refine h.congr fun o bytes => ?_
  simp only [Layout.bind_fixed_iff, Layout.bind_only_iff, layout, suits_dynamicCall_iff]
  refine ⟨?_, ?_⟩
  · intro hgiven
    rcases hgiven with ⟨i, gap, ⟨_, rfl, hgap⟩, rfl⟩
    obtain ⟨fill, hfill⟩ := exists_fillBytes (pc + 3) gap
    rw [hgap] at hfill
    exact ⟨⟨i, rfl⟩, fill, by rw [Operand.bytes, hfill]⟩
  · intro hgiven
    rcases hgiven with ⟨⟨i, rfl⟩, fill, rfl⟩
    exact ⟨i, _, ⟨(), rfl, length_fillBytes fill (pc + 3) 2⟩, rfl⟩

/-! ## 3. Reading switches -/

theorem reads_align (hpc : c.position = pc + 1) :
    Reads align (Layout.gap (padding pc)) c := by
  have hgap : (4 - c.position % 4) % 4 = padding pc := by
    rw [padding, hpc]
    omega
  have h : Reads align _ c := Reads.get (Reads.skip ((4 - c.position % 4) % 4) c)
  rwa [hgap] at h

/-- The cases of a switch, which are checked to be there before the first is read. -/
theorem reads_cases {α : Type} {item : Read α} {write : α → List UInt8} {size : Nat}
    (f : List α → Operand) (count : Nat) (c : Cursor)
    (h : ∀ mid, Reads item (Layout.fixed write) mid) (hsize : ∀ a, (write a).length = size) :
    Reads (Cursor.expect (count * size) >>= fun _ => Cursor.times count item >>= fun as =>
        pure (f as))
      (fun o bytes => ∃ as, o = f as ∧ as.length = count ∧ bytes = as.flatMap write) c := by
  have hrows : Reads (Cursor.times count item >>= fun as => pure (f as)) _ c :=
    (Reads.times_fixed count c h).bind fun as _ mid _ _ => Reads.pure (f as) mid
  refine Reads.expect (hrows.congr fun _ _ => Layout.bind_only_iff) ?_
  rintro o bytes ⟨as, rfl, rfl, rfl⟩
  exact Nat.le_of_eq (by rw [Layout.length_flatMap hsize, Nat.mul_comm])

/-- The number of keys from `low` up to `high`. -/
theorem toNat_span_eq_iff {low high : Int32} (hle : low ≤ high) (n : Nat) :
    n = (high.toInt - low.toInt + 1).toNat ↔ (n : Int) = high.toInt - low.toInt + 1 := by
  have : low.toInt ≤ high.toInt := Int32.le_iff_toInt_le.1 hle
  omega

theorem reads_tableSwitch (hpc : c.position = pc + 1) :
    Reads (Operand.read .tableSwitch) (layout pc .tableSwitch) c := by
  have h : Reads (Operand.read .tableSwitch) _ c :=
    (reads_align hpc).bind fun _ _ c₁ _ _ =>
      (Reads.i32 c₁).bind fun d _ c₂ _ _ =>
        (Reads.i32 c₂).bind fun low _ c₃ _ _ =>
          (Reads.i32 c₃).bind fun high _ c₄ _ _ =>
            Reads.guard fun _ =>
              reads_cases (Operand.tableSwitch d low high) (high.toInt - low.toInt + 1).toNat c₄
                Reads.i32 BigEndian.length_i32
  refine h.congr fun o bytes => ?_
  simp only [Layout.bind_gap_iff, Layout.bind_fixed_iff, layout, suits_tableSwitch_iff]
  refine ⟨?_, ?_⟩
  · intro hgiven
    rcases hgiven with ⟨gap, _, hgap, ⟨d, _, ⟨low, _, ⟨high, _, ⟨hle, offsets, rfl, hlen, rfl⟩,
      rfl⟩, rfl⟩, rfl⟩, rfl⟩
    have hle : low ≤ high := Int32.not_lt.1 hle
    obtain ⟨fill, hfill⟩ := exists_fillBytes (pc + 1) gap
    rw [hgap] at hfill
    exact ⟨⟨d, low, high, offsets, rfl, hle, (toNat_span_eq_iff hle _).1 hlen⟩, fill,
      by rw [Operand.bytes, hfill]⟩
  · intro hgiven
    rcases hgiven with ⟨⟨d, low, high, offsets, rfl, hle, hlen⟩, fill, rfl⟩
    exact ⟨_, _, length_fillBytes fill (pc + 1) (padding pc), ⟨d, _, ⟨low, _, ⟨high, _,
      ⟨Int32.not_lt.2 hle, offsets, rfl, (toNat_span_eq_iff hle _).2 hlen, rfl⟩,
      rfl⟩, rfl⟩, rfl⟩, rfl⟩

/-- The stored number of cases and the number of cases. -/
theorem count_eq_iff {count : Int32} {n : Nat} (hn : n < 2147483648) :
    count = Int32.ofNat n ↔ ¬ count < 0 ∧ n = count.toInt.toNat := by
  have hof : (Int32.ofNat n).toInt = n := Int32.toInt_ofNat_of_lt hn
  rw [Int32.lt_iff_toInt_lt, ← Int32.toInt_inj, hof]
  have hzero : (0 : Int32).toInt = 0 := rfl
  omega

theorem reads_pair (c : Cursor) :
    Reads (do return (← Cursor.i32, ← Cursor.i32)) (Layout.fixed pairBytes) c := by
  refine (Reads.pair Prod.mk c Reads.i32 Reads.i32).congr fun pair bytes => ⟨?_, fun h => ?_⟩
  · intro hgiven
    rcases hgiven with ⟨key, d, rfl, rfl⟩
    rfl
  · exact ⟨pair.1, pair.2, rfl, h⟩

theorem reads_lookupSwitch (hpc : c.position = pc + 1) :
    Reads (Operand.read .lookupSwitch) (layout pc .lookupSwitch) c := by
  have h : Reads (Operand.read .lookupSwitch) _ c :=
    (reads_align hpc).bind fun _ _ c₁ _ _ =>
      (Reads.i32 c₁).bind fun d _ c₂ _ _ =>
        (Reads.i32 c₂).bind fun count _ c₃ _ _ =>
          Reads.guard fun _ =>
            reads_cases (Operand.lookupSwitch d) count.toInt.toNat c₃ reads_pair length_pairBytes
  refine h.congr fun o bytes => ?_
  simp only [Layout.bind_gap_iff, Layout.bind_fixed_iff, layout, suits_lookupSwitch_iff]
  refine ⟨?_, ?_⟩
  · intro hgiven
    rcases hgiven with ⟨gap, _, hgap, ⟨d, _, ⟨count, _, ⟨hpos, pairs, rfl, hlen, rfl⟩, rfl⟩, rfl⟩,
      rfl⟩
    have hn : pairs.length < 2147483648 := by
      have := count.toInt_lt
      omega
    obtain ⟨fill, hfill⟩ := exists_fillBytes (pc + 1) gap
    rw [hgap] at hfill
    exact ⟨⟨d, pairs, rfl, hn⟩, fill,
      by rw [Operand.bytes, hfill, ← (count_eq_iff hn).2 ⟨hpos, hlen⟩]⟩
  · intro hgiven
    rcases hgiven with ⟨⟨d, pairs, rfl, hn⟩, fill, rfl⟩
    obtain ⟨hpos, hlen⟩ := (count_eq_iff hn).1 rfl
    exact ⟨_, _, length_fillBytes fill (pc + 1) (padding pc), ⟨d, _, ⟨_, _,
      ⟨hpos, pairs, rfl, hlen, rfl⟩, rfl⟩, rfl⟩, rfl⟩

/-! ## 4. Reading any operand -/

/-- **The operands of every shape are read back.** -/
theorem reads (hpc : c.position = pc + 1) (hshape : shape ≠ .widePrefix) :
    Reads (Operand.read shape) (layout pc shape) c := by
  cases shape with
  | plain =>
    exact reads_empty (fun {o} => by cases o using cases_forms <;> simp) fun _ => rfl
  | impliedSlot =>
    exact reads_empty (fun {o} => by cases o using cases_forms <;> simp) fun _ => rfl
  | reserved =>
    exact reads_empty (fun {o} => by cases o using cases_forms <;> simp) fun _ => rfl
  | byteLiteral =>
    exact reads_number _ (Reads.i8 c) (fun {o} => by cases o using cases_forms <;> simp)
      fun _ _ => rfl
  | shortLiteral =>
    exact reads_number _ (Reads.i16 c) (fun {o} => by cases o using cases_forms <;> simp)
      fun _ _ => rfl
  | slot =>
    exact reads_number _ (Reads.u8 c) (fun {o} => by cases o using cases_forms <;> simp)
      fun _ _ => rfl
  | classIndex =>
    exact reads_number _ (Reads.u16 c) (fun {o} => by cases o using cases_forms <;> simp)
      fun _ _ => rfl
  | memberIndex =>
    exact reads_number _ (Reads.u16 c) (fun {o} => by cases o using cases_forms <;> simp)
      fun _ _ => rfl
  | branch =>
    exact reads_number _ (Reads.i16 c) (fun {o} => by cases o using cases_forms <;> simp)
      fun _ _ => rfl
  | wideBranch =>
    exact reads_number _ (Reads.i32 c) (fun {o} => by cases o using cases_forms <;> simp)
      fun _ _ => rfl
  | constant => exact reads_number _ (Reads.u8 c) suits_constant_iff fun _ _ => by simp
  | wideConstant =>
    exact reads_number _ (Reads.u16 c) (fun {o} => by cases o using cases_forms <;> simp)
      fun _ _ => rfl
  | increment => exact reads_increment
  | primitiveArray => exact reads_primitiveArray
  | multiArray => exact reads_multiArray
  | interfaceCall => exact reads_interfaceCall
  | dynamicCall => exact reads_dynamicCall
  | tableSwitch => exact reads_tableSwitch hpc
  | lookupSwitch => exact reads_lookupSwitch hpc
  | widePrefix => exact absurd rfl hshape

/-- The operands of a shape, as they are stored behind a wide prefix. -/
def wideLayout (pc : Nat) (shape : Shape) : Layout Operand := fun o bytes =>
  o.suitsWide shape = true ∧ ∃ fill, bytes = o.bytes fill pc shape

/-- **The operands behind a wide prefix are read back**, and only local variables widen. -/
theorem reads_wide {read : Read Operand} (pc : Nat) (h : readWide? shape = some read) :
    Reads read (wideLayout pc shape) c := by
  unfold readWide? at h
  split at h
  · cases h
    refine ((Reads.u16 c).map fun i => Operand.slot (.wide i)).congr fun o bytes => ⟨?_, ?_⟩
    · intro hgiven
      rcases hgiven with ⟨i, rfl, rfl⟩
      exact ⟨by simp, fun _ => 0, rfl⟩
    · intro hgiven
      rcases hgiven with ⟨hs, fill, rfl⟩
      cases o using cases_forms with
      | wideSlot i => exact ⟨i, rfl, rfl⟩
      | _ => simp at hs
  · cases h
    have hread : Reads (Cursor.u16 >>= fun i => Cursor.i16 >>= fun a =>
        pure (Operand.increment (.wide i) a)) _ c :=
      (Reads.u16 c).bind fun i _ mid _ _ =>
        (Reads.i16 mid).bind fun a _ behind _ _ =>
          Reads.pure (Operand.increment (.wide i) a) behind
    refine hread.congr fun o bytes => ?_
    simp only [Layout.bind_fixed_iff, Layout.only, wideLayout]
    refine ⟨?_, ?_⟩
    · intro hgiven
      rcases hgiven with ⟨i, _, ⟨a, _, ⟨rfl, rfl⟩, rfl⟩, rfl⟩
      exact ⟨by simp, fun _ => 0, by simp⟩
    · intro hgiven
      rcases hgiven with ⟨hs, fill, rfl⟩
      cases o using cases_forms with
      | wideIncrement i a => exact ⟨i, _, ⟨a, _, ⟨rfl, rfl⟩, rfl⟩, by simp⟩
      | _ => simp at hs
  · cases h

/-- Where nothing is read behind a wide prefix, no operand suits. -/
theorem readWide?_eq_none {o : Operand} (h : readWide? shape = none) :
    o.suitsWide shape = false := by
  cases o using cases_forms <;> cases shape <;> simp_all [readWide?]

end Reading

/-- The operands of a shape have as many bytes as its width says. -/
theorem length_bytes {o : Operand} {shape : Shape} {opcode : Opcode} (fill : Nat → UInt8)
    (pc : Nat) (hshape : opcode.shape? = some shape) (h : o.suits shape = true) :
    (o.bytes fill pc shape).length + 1 = Command.width pc ⟨opcode, false, o⟩ := by
  cases o using cases_forms with
  | tableSwitch d low high offsets =>
    obtain ⟨_, _, hlen⟩ : shape = .tableSwitch ∧ low ≤ high ∧
        (offsets.length : Int) = high.toInt - low.toInt + 1 := by simpa using h
    simp only [bytes, Command.width, List.length_append, length_fillBytes, BigEndian.length_i32,
      Layout.length_flatMap BigEndian.length_i32]
    omega
  | lookupSwitch d pairs =>
    simp only [bytes, Command.width, List.length_append, length_fillBytes, BigEndian.length_i32,
      Layout.length_flatMap length_pairBytes]
    omega
  | index i =>
    have hs : shape = .classIndex ∨ shape = .memberIndex ∨ (shape = .constant ∧ i.toNat < 256) := by
      simpa using h
    rcases hs with rfl | rfl | ⟨rfl, _⟩ <;> simp [hshape, Shape.width?]
  | nothing =>
    have hs : shape = .plain ∨ shape = .impliedSlot := by simpa using h
    rcases hs with rfl | rfl <;> simp [hshape, Shape.width?]
  | narrowIncrement i a =>
    obtain ⟨rfl, _⟩ : shape = .increment ∧ -128 ≤ a.toInt ∧ a.toInt ≤ 127 := by simpa using h
    simp [hshape, Shape.width?]
  | primitiveArray e =>
    obtain ⟨rfl, _⟩ : shape = .primitiveArray ∧ 4 ≤ e ∧ e ≤ 11 := by simpa using h
    simp [hshape, Shape.width?]
  | wideSlot i => simp at h
  | wideIncrement i a => simp at h
  | narrowSlot i =>
    obtain rfl : shape = .slot := by simpa using h
    simp [hshape, Shape.width?]
  | _ =>
    obtain rfl := of_decide_eq_true h
    simp [hshape, Shape.width?]

end Operand

end ClassView
