import ClassView.Proofs.Pool.Layout

/-!
# Reading the constant pool back

`Entry.read` and `ConstantPool.read` against the bytes of entries and of pools. The entries are read
one after the other without a sign of where the next empty slot is, so what is read of the rest
depends on whether the entry just read is wide.

* **`Entry.reads`**: entries of all seventeen tags;
* `ConstantPool.rowLayout_cons_iff`: a row of slots starts with an entry, and with an empty slot
  behind it if the entry is wide;
* **`ConstantPool.reads`**: a pool is read exactly from the bytes of regular pools.
-/

namespace ClassView

/-! ## 1. Entries -/

namespace Entry

variable {texts : TextReader} {index : Nat} {c : Cursor}

/-- The entries of a tag, as they are stored behind it. -/
def fieldLayout (texts : TextReader) (tag : Tag) : Layout Entry := fun e bytes =>
  e.tag = tag ∧ ∃ spelling, e.IsSpelled texts spelling ∧ bytes = e.fieldBytes spelling

/-- The entries, as they are stored. -/
def layout (texts : TextReader) : Layout Entry :=
  Layout.formed (fun _ => True) (IsSpelled texts) bytes

/-- An entry that is one number. -/
theorem reads_number {α : Type} {read : Read α} {write : α → List UInt8} {tag : Tag}
    (f : α → Entry) (h : Reads read (Layout.fixed write) c)
    (htag : ∀ e : Entry, e.tag = tag ↔ ∃ a, e = f a)
    (hspelled : ∀ spelling a, (f a).IsSpelled texts spelling)
    (hbytes : ∀ spelling a, (f a).fieldBytes spelling = write a) :
    Reads (f <$> read) (fieldLayout texts tag) c := by
  refine (h.map f).congr fun e bytes => ?_
  unfold fieldLayout
  rw [htag]
  refine ⟨fun h => ?_, fun h => ?_⟩
  · obtain ⟨a, rfl, hw⟩ := h
    exact ⟨⟨a, rfl⟩, [], hspelled [] a, hw.trans (hbytes [] a).symm⟩
  · obtain ⟨⟨a, rfl⟩, spelling, _, hw⟩ := h
    exact ⟨a, rfl, hw.trans (hbytes spelling a)⟩

/-- An entry that is two numbers. -/
theorem reads_numbers {α β : Type} {readA : Read α} {readB : Read β} {writeA : α → List UInt8}
    {writeB : β → List UInt8} {tag : Tag} (f : α → β → Entry)
    (ha : ∀ mid, Reads readA (Layout.fixed writeA) mid)
    (hb : ∀ mid, Reads readB (Layout.fixed writeB) mid)
    (htag : ∀ e : Entry, e.tag = tag ↔ ∃ a b, e = f a b)
    (hspelled : ∀ spelling a b, (f a b).IsSpelled texts spelling)
    (hbytes : ∀ spelling a b, (f a b).fieldBytes spelling = writeA a ++ writeB b) :
    Reads (readA >>= fun a => readB >>= fun b => pure (f a b)) (fieldLayout texts tag) c := by
  refine (Reads.pair f c ha hb).congr fun e bytes => ?_
  unfold fieldLayout
  rw [htag]
  refine ⟨fun h => ?_, fun h => ?_⟩
  · obtain ⟨a, b, rfl, hw⟩ := h
    exact ⟨⟨a, b, rfl⟩, [], hspelled [] a b, hw.trans (hbytes [] a b).symm⟩
  · obtain ⟨⟨a, b, rfl⟩, spelling, _, hw⟩ := h
    exact ⟨a, b, rfl, hw.trans (hbytes spelling a b)⟩

/-- A text is read back from whatever bytes it is spelled in. -/
theorem reads_text : Reads (readText texts index) (fieldLayout texts .utf8) c := by
  have h : Reads (readText texts index) (Layout.bind (Layout.fixed BigEndian.u16) fun length =>
      Layout.bind (fun taken bytes => taken = bytes ∧ bytes.length = length.toNat) fun taken e y =>
        ∃ text, texts taken = some text ∧ e = .utf8 text ∧ y = []) c := by
    refine (Reads.u16 c).bind fun length _ mid _ _ => ?_
    refine (Reads.take length.toNat mid).bind fun taken _ behind _ _ => ?_
    cases htext : texts taken with
    | none =>
      refine (Reads.throw (.invalidText index) behind).congr fun e bytes => ?_
      refine ⟨False.elim, fun h => ?_⟩
      obtain ⟨text, hsome, _⟩ := h
      exact nomatch hsome
    | some text =>
      refine (Reads.pure (Entry.utf8 text) behind).congr fun e bytes => ?_
      refine ⟨fun h => ⟨text, rfl, h⟩, fun h => ?_⟩
      obtain ⟨text', hsome, he⟩ := h
      cases hsome
      exact he
  refine h.congr fun e bytes => ?_
  rw [Layout.bind_fixed_iff]
  unfold fieldLayout
  rw [tag_eq_iff]
  refine ⟨fun h => ?_, fun h => ?_⟩
  · obtain ⟨length, _, ⟨taken, x, _, ⟨rfl, hlen⟩, ⟨text, htext, rfl, rfl⟩, rfl⟩, rfl⟩ := h
    refine ⟨⟨text, rfl⟩, taken, ⟨hlen ▸ length.toNat_lt, htext⟩, ?_⟩
    rw [List.append_nil, fieldBytes, hlen, BigEndian.u16]
  · obtain ⟨⟨text, rfl⟩, spelling, ⟨hlen, htext⟩, rfl⟩ := h
    have hlength : (UInt16.ofNat spelling.length).toNat = spelling.length :=
      UInt16.toNat_ofNat_of_lt' hlen
    refine ⟨UInt16.ofNat spelling.length, spelling, ?_, ?_⟩
    · exact ⟨spelling, spelling, [], ⟨rfl, hlength.symm⟩, ⟨text, htext, rfl, rfl⟩,
        (List.append_nil _).symm⟩
    · rw [fieldBytes, BigEndian.u16, hlength]

/-- The entries of every tag are read back. -/
theorem reads_fields (tag : Tag) :
    Reads (readFields texts index tag) (fieldLayout texts tag) c := by
  cases tag with
  | utf8 => exact reads_text
  | integer =>
    exact reads_number .integer (Reads.i32 c) (tag_eq_iff .integer) (fun _ _ => trivial)
      (fun _ _ => rfl)
  | float =>
    exact reads_number .float (Reads.u32 c) (tag_eq_iff .float) (fun _ _ => trivial)
      (fun _ _ => rfl)
  | long =>
    exact reads_number .long (Reads.i64 c) (tag_eq_iff .long) (fun _ _ => trivial) (fun _ _ => rfl)
  | double =>
    exact reads_number .double (Reads.u64 c) (tag_eq_iff .double) (fun _ _ => trivial)
      (fun _ _ => rfl)
  | classRef =>
    exact reads_number .classRef (Reads.u16 c) (tag_eq_iff .classRef) (fun _ _ => trivial)
      (fun _ _ => rfl)
  | string =>
    exact reads_number .string (Reads.u16 c) (tag_eq_iff .string) (fun _ _ => trivial)
      (fun _ _ => rfl)
  | methodType =>
    exact reads_number .methodType (Reads.u16 c) (tag_eq_iff .methodType) (fun _ _ => trivial)
      (fun _ _ => rfl)
  | moduleRef =>
    exact reads_number .moduleRef (Reads.u16 c) (tag_eq_iff .moduleRef) (fun _ _ => trivial)
      (fun _ _ => rfl)
  | packageRef =>
    exact reads_number .packageRef (Reads.u16 c) (tag_eq_iff .packageRef) (fun _ _ => trivial)
      (fun _ _ => rfl)
  | fieldRef =>
    exact reads_numbers (.member .field) Reads.u16 Reads.u16 (tag_eq_iff .fieldRef)
      (fun _ _ _ => trivial) (fun _ _ _ => rfl)
  | methodRef =>
    exact reads_numbers (.member .method) Reads.u16 Reads.u16 (tag_eq_iff .methodRef)
      (fun _ _ _ => trivial) (fun _ _ _ => rfl)
  | interfaceMethodRef =>
    exact reads_numbers (.member .interfaceMethod) Reads.u16 Reads.u16
      (tag_eq_iff .interfaceMethodRef) (fun _ _ _ => trivial) (fun _ _ _ => rfl)
  | nameAndType =>
    exact reads_numbers .nameAndType Reads.u16 Reads.u16 (tag_eq_iff .nameAndType)
      (fun _ _ _ => trivial) (fun _ _ _ => rfl)
  | methodHandle =>
    exact reads_numbers .methodHandle Reads.u8 Reads.u16 (tag_eq_iff .methodHandle)
      (fun _ _ _ => trivial) (fun _ _ _ => rfl)
  | dynamic =>
    exact reads_numbers .dynamic Reads.u16 Reads.u16 (tag_eq_iff .dynamic)
      (fun _ _ _ => trivial) (fun _ _ _ => rfl)
  | invokeDynamic =>
    exact reads_numbers .invokeDynamic Reads.u16 Reads.u16 (tag_eq_iff .invokeDynamic)
      (fun _ _ _ => trivial) (fun _ _ _ => rfl)

/-- **One entry is read back.** -/
theorem reads (index : Nat) (c : Cursor) : Reads (Entry.read texts index) (layout texts) c := by
  have h : Reads (Entry.read texts index) (Layout.bind (Layout.fixed BigEndian.u8)
      fun byte e rest => ∃ tag, Tag.ofByte? byte = some tag ∧ fieldLayout texts tag e rest) c := by
    refine Reads.get ((Reads.u8 c).bind fun byte _ mid _ _ => ?_)
    cases htag : Tag.ofByte? byte with
    | none =>
      simp only
      refine (Reads.throw _ mid).congr fun e bytes => ⟨False.elim, fun h => ?_⟩
      obtain ⟨tag, hsome, _⟩ := h
      exact nomatch hsome
    | some tag =>
      simp only
      refine (reads_fields tag).congr fun e bytes => ⟨fun h => ⟨tag, rfl, h⟩, fun h => ?_⟩
      obtain ⟨tag', hsome, he⟩ := h
      cases hsome
      exact he
  refine h.congr fun e bytes => ?_
  rw [Layout.bind_fixed_iff]
  refine ⟨fun h => ?_, fun h => ?_⟩
  · obtain ⟨byte, _, ⟨tag, htag, rfl, spelling, hspelled, rfl⟩, rfl⟩ := h
    rw [← Tag.byte_of_ofByte? htag]
    exact ⟨trivial, spelling, hspelled, rfl⟩
  · obtain ⟨_, spelling, hspelled, rfl⟩ := h
    exact ⟨e.tag.byte, _, ⟨e.tag, Tag.ofByte?_byte e.tag, rfl, spelling, hspelled, rfl⟩, rfl⟩

end Entry

/-! ## 2. Slots -/

namespace ConstantPool

variable {texts : TextReader}

/-- The slots, as they are stored. -/
def slotLayout (texts : TextReader) : Layout (Option Entry) :=
  Layout.formed (fun _ => True) (SlotIsSpelled texts) slotBytes

theorem slotLayout_none_iff {bytes : List UInt8} : slotLayout texts none bytes ↔ bytes = [] := by
  refine ⟨fun h => ?_, fun h => ?_⟩
  · obtain ⟨_, _, _, hbytes⟩ := h
    exact hbytes
  · exact ⟨trivial, [], trivial, h⟩

theorem slotLayout_some_iff {e : Entry} {bytes : List UInt8} :
    slotLayout texts (some e) bytes ↔ Entry.layout texts e bytes := Iff.rfl

/-- The slots that an entry fills. -/
def slotsOf (e : Entry) : List (Option Entry) := if e.isWide then [some e, none] else [some e]

theorem slotsOf_narrow {e : Entry} (h : e.isWide = false) : slotsOf e = [some e] := by
  rw [slotsOf, h]
  rfl

theorem slotsOf_wide {e : Entry} (h : e.isWide = true) : slotsOf e = [some e, none] := by
  rw [slotsOf, h]
  rfl

theorem rows_slotsOf_iff {e : Entry} {rest : List (Option Entry)} {bytes : List UInt8} :
    Layout.rows (slotLayout texts) (slotsOf e ++ rest) bytes ↔
      ∃ x y, Entry.layout texts e x ∧ Layout.rows (slotLayout texts) rest y ∧ bytes = x ++ y := by
  cases hwide : e.isWide with
  | false =>
    rw [slotsOf_narrow hwide]
    show (∃ x y, slotLayout texts (some e) x ∧ Layout.rows (slotLayout texts) rest y ∧
      bytes = x ++ y) ↔ _
    simp only [slotLayout_some_iff]
  | true =>
    rw [slotsOf_wide hwide]
    show (∃ x y, slotLayout texts (some e) x ∧ (∃ x' y', slotLayout texts none x' ∧
      Layout.rows (slotLayout texts) rest y' ∧ y = x' ++ y') ∧ bytes = x ++ y) ↔ _
    simp only [slotLayout_some_iff, slotLayout_none_iff]
    refine ⟨fun h => ?_, fun h => ?_⟩
    · obtain ⟨x, y, he, ⟨_, y', rfl, hrest, hy⟩, hbytes⟩ := h
      obtain rfl : y = y' := hy
      exact ⟨x, y, he, hrest, hbytes⟩
    · obtain ⟨x, y, he, hrest, hbytes⟩ := h
      exact ⟨x, y, he, ⟨[], y, rfl, hrest, rfl⟩, hbytes⟩

theorem rowIsRegular_slotsOf_iff {e : Entry} {rest : List (Option Entry)} :
    RowIsRegular false (slotsOf e ++ rest) ↔ RowIsRegular false rest := by
  cases hwide : e.isWide with
  | false =>
    rw [slotsOf_narrow hwide]
    show (some e = none ↔ false = true) ∧ RowIsRegular e.isWide rest ↔ _
    rw [hwide]
    simp
  | true =>
    rw [slotsOf_wide hwide]
    show (some e = none ↔ false = true) ∧ ((none : Option Entry) = none ↔ e.isWide = true) ∧
      RowIsRegular false rest ↔ _
    simp [hwide]

/-- A regular row starts with the slots that one entry fills. -/
theorem exists_slotsOf {slot : Option Entry} {row : List (Option Entry)}
    (h : RowIsRegular false (slot :: row)) : ∃ e rest, slot :: row = slotsOf e ++ rest := by
  obtain ⟨hslot, hrow⟩ := h
  cases slot with
  | none => exact absurd (hslot.1 rfl) Bool.false_ne_true
  | some e =>
    rw [Option.any_some] at hrow
    cases hwide : e.isWide with
    | false => exact ⟨e, row, by rw [slotsOf_narrow hwide, List.singleton_append]⟩
    | true =>
      rw [hwide] at hrow
      cases row with
      | nil => exact absurd hrow.symm Bool.false_ne_true
      | cons next rest =>
        obtain rfl : next = none := hrow.1.2 rfl
        exact ⟨e, rest, by rw [slotsOf_wide hwide]; rfl⟩

/-- Regular slots, `left` of them, as they are stored. -/
def rowLayout (texts : TextReader) (left : Nat) : Layout (List (Option Entry)) := fun row bytes =>
  row.length = left ∧ RowIsRegular false row ∧ Layout.rows (slotLayout texts) row bytes

theorem rowLayout_zero_iff {row : List (Option Entry)} {bytes : List UInt8} :
    rowLayout texts 0 row bytes ↔ row = [] ∧ bytes = [] := by
  refine ⟨fun h => ?_, fun h => ?_⟩
  · obtain ⟨hlen, _, hrows⟩ := h
    obtain rfl := List.eq_nil_of_length_eq_zero hlen
    exact ⟨rfl, hrows⟩
  · obtain ⟨rfl, rfl⟩ := h
    exact ⟨rfl, rfl, rfl⟩

/-- A row that is not empty is an entry, with the slots that it fills, and a row. -/
theorem rowLayout_succ_iff {left : Nat} {row : List (Option Entry)} {bytes : List UInt8} :
    rowLayout texts (left + 1) row bytes ↔ ∃ e x y rest, Entry.layout texts e x ∧
      row = slotsOf e ++ rest ∧ (slotsOf e).length + rest.length = left + 1 ∧
      rowLayout texts rest.length rest y ∧ bytes = x ++ y := by
  refine ⟨fun h => ?_, fun h => ?_⟩
  · obtain ⟨hlen, hregular, hrows⟩ := h
    obtain ⟨slot, row, rfl⟩ := List.exists_cons_of_length_eq_add_one hlen
    obtain ⟨e, rest, hrow⟩ := exists_slotsOf hregular
    rw [hrow] at hlen hregular hrows ⊢
    obtain ⟨x, y, he, hrest, rfl⟩ := rows_slotsOf_iff.1 hrows
    rw [List.length_append] at hlen
    exact ⟨e, x, y, rest, he, rfl, hlen, ⟨rfl, rowIsRegular_slotsOf_iff.1 hregular, hrest⟩, rfl⟩
  · obtain ⟨e, x, y, rest, he, rfl, hlen, ⟨_, hregular, hrest⟩, rfl⟩ := h
    refine ⟨?_, rowIsRegular_slotsOf_iff.2 hregular, rows_slotsOf_iff.2 ⟨x, y, he, hrest, rfl⟩⟩
    rw [List.length_append, hlen]

/-- Filling slots is reading an entry and then filling those behind its own. -/
theorem readSlots_succ (left index : Nat) (slots : Array (Option Entry)) :
    (readSlots texts (left + 1) index slots : Read (Array (Option Entry))) =
      Entry.read texts index >>= fun e =>
        match e.isWide, left with
        | true, 0 => MonadExcept.throw (.indexOutOfRange (index + 1))
        | true, left + 1 => readSlots texts left (index + 2) ((slots.push (some e)).push none)
        | false, left => readSlots texts left (index + 1) (slots.push (some e)) := by
  funext c
  rw [Cursor.bind_apply, readSlots]
  cases Entry.read texts index c with
  | error e => rfl
  | ok p =>
    obtain ⟨e, c'⟩ := p
    cases hwide : e.isWide with
    | false => simp only [hwide]
    | true =>
      cases left with
      | zero => simp only [hwide]; rfl
      | succ left => simp only [hwide]

/-- What is filled in behind `slots`, as it is stored. -/
def filledLayout (texts : TextReader) (left : Nat) (slots : Array (Option Entry)) :
    Layout (Array (Option Entry)) :=
  fun filled bytes => ∃ row, filled.toList = slots.toList ++ row ∧ rowLayout texts left row bytes

/-- The same behind an entry that has filled its slots. -/
theorem filledLayout_push_iff {left left' : Nat} {slots slots' filled : Array (Option Entry)}
    {e : Entry} {bytes : List UInt8} (hslots : slots'.toList = slots.toList ++ slotsOf e)
    (hleft : (slotsOf e).length + left' = left + 1) :
    filledLayout texts left' slots' filled bytes ↔
      ∃ rest, filled.toList = slots.toList ++ (slotsOf e ++ rest) ∧
        (slotsOf e).length + rest.length = left + 1 ∧ rowLayout texts rest.length rest bytes := by
  unfold filledLayout
  rw [hslots, ← hleft]
  refine exists_congr fun rest => ?_
  rw [List.append_assoc]
  refine and_congr_right fun _ => ⟨fun h => ?_, fun h => ?_⟩
  · obtain rfl : rest.length = left' := h.1
    exact ⟨rfl, h⟩
  · obtain ⟨hlen, h⟩ := h
    rwa [Nat.add_left_cancel hlen] at h

/-- **Slots are filled exactly from the bytes of a regular row.** The induction is on the number of
    slots left, of which a wide entry takes two. -/
theorem reads_slots (left index : Nat) (slots : Array (Option Entry)) (c : Cursor) :
    Reads (readSlots texts left index slots) (filledLayout texts left slots) c := by
  induction left using Nat.strongRecOn generalizing index slots c with
  | ind left ih =>
    cases left with
    | zero =>
      refine (Reads.pure slots c).congr fun filled bytes => ⟨fun h => ?_, fun h => ?_⟩
      · obtain ⟨rfl, rfl⟩ := h
        exact ⟨[], (List.append_nil _).symm, rowLayout_zero_iff.2 ⟨rfl, rfl⟩⟩
      · obtain ⟨row, hfilled, hrow⟩ := h
        obtain ⟨rfl, rfl⟩ := rowLayout_zero_iff.1 hrow
        rw [List.append_nil] at hfilled
        exact ⟨Array.toList_inj.1 hfilled, rfl⟩
    | succ left =>
      have h : Reads (readSlots texts (left + 1) index slots) (Layout.bind (Entry.layout texts)
          fun e filled y => ∃ rest, filled.toList = slots.toList ++ (slotsOf e ++ rest) ∧
            (slotsOf e).length + rest.length = left + 1 ∧
              rowLayout texts rest.length rest y) c := by
        rw [readSlots_succ]
        refine (Entry.reads index c).bind fun e _ mid _ _ => ?_
        cases hwide : e.isWide with
        | false =>
          have hslots := slotsOf_narrow hwide
          refine (ih left (Nat.lt_succ_self left) _ _ mid).congr fun filled y =>
            filledLayout_push_iff ?_ ?_
          · rw [hslots, Array.toList_push]
          · rw [hslots, List.length_singleton, Nat.add_comm]
        | true =>
          have hslots := slotsOf_wide hwide
          cases left with
          | zero =>
            refine (Reads.throw _ mid).congr fun filled y => ⟨False.elim, fun h => ?_⟩
            obtain ⟨rest, _, hlen, _⟩ := h
            rw [hslots, List.length_cons, List.length_singleton] at hlen
            omega
          | succ left =>
            refine (ih left (by omega) _ _ mid).congr fun filled y => filledLayout_push_iff ?_ ?_
            · rw [hslots, Array.toList_push, Array.toList_push, List.append_assoc]
              rfl
            · rw [hslots]
              show 2 + left = left + 1 + 1
              omega
      refine h.congr fun filled bytes => ?_
      unfold filledLayout
      simp only [rowLayout_succ_iff]
      refine ⟨fun h => ?_, fun h => ?_⟩
      · obtain ⟨e, x, y, he, ⟨rest, hfilled, hlen, hrest⟩, hbytes⟩ := h
        exact ⟨slotsOf e ++ rest, hfilled, e, x, y, rest, he, rfl, hlen, hrest, hbytes⟩
      · obtain ⟨_, hfilled, e, x, y, rest, he, rfl, hlen, hrest, hbytes⟩ := h
        exact ⟨e, x, y, he, ⟨rest, hfilled, hlen, hrest⟩, hbytes⟩

/-! ## 3. Pools -/

/-- The regular pools, as they are stored. -/
def layout (texts : TextReader) : Layout ConstantPool :=
  Layout.formed IsRegular (PoolForm.Fits texts) bytes

/-- The first slot is empty, and those behind it are as many as the count says. -/
theorem layout_iff {pool : ConstantPool} {bytes : List UInt8} :
    layout texts pool bytes ↔ ∃ (count : UInt16) (y : List UInt8),
      filledLayout texts (count.toNat - 1) #[none] pool.slots y ∧
        bytes = BigEndian.u16 count ++ y := by
  refine ⟨fun h => ?_, fun h => ?_⟩
  · obtain ⟨hregular, ⟨count, spellings⟩, ⟨hcount, hspelled⟩, rfl⟩ := h
    obtain ⟨hlt, hrow⟩ := isRegular_iff.1 hregular
    have hlen : pool.count = pool.slots.toList.length := Array.length_toList.symm
    cases hslots : pool.slots.toList with
    | nil =>
      rw [hslots] at hrow
      exact nomatch hrow
    | cons slot row =>
      rw [hslots] at hrow hlen hspelled
      obtain rfl : slot = none := hrow.1.2 rfl
      cases hspelled with
      | @cons _ _ spellings _ _ hrest =>
      have hleft : row.length = count.toNat - 1 := by
        rw [List.length_cons] at hlen
        rcases hcount with hcount | ⟨hzero, hone⟩
        · exact (Nat.sub_eq_of_eq_add (hcount.trans hlen)).symm
        · rw [show count = 0 from hzero]
          exact Nat.succ.inj (hlen.symm.trans hone)
      have hrows : Layout.rows (slotLayout texts) row (Layout.rowBytes slotBytes spellings row) :=
        Layout.rows_formed_iff.2 ⟨fun _ _ => trivial, spellings, hrest, rfl⟩
      exact ⟨count, _, ⟨row, hslots, hleft, hrow.2, hrows⟩, by rw [bytes, hslots]; rfl⟩
  · obtain ⟨count, y, ⟨row, hslots, hlen, hrow, hrows⟩, rfl⟩ := h
    obtain ⟨_, spellings, hspelled, rfl⟩ := Layout.rows_formed_iff.1 hrows
    have hslots : pool.slots.toList = none :: row := hslots
    have hcount : pool.count = count.toNat - 1 + 1 := by
      rw [ConstantPool.count, ← Array.length_toList, hslots, List.length_cons, hlen]
    have hlt : count.toNat < 65536 := count.toNat_lt
    have hregular : pool.IsRegular := by
      refine isRegular_iff.2 ⟨by omega, ?_⟩
      rw [hslots]
      exact ⟨⟨fun _ => rfl, fun _ => rfl⟩, hrow⟩
    refine ⟨hregular, ⟨count, [] :: spellings⟩, ⟨?_, ?_⟩, by rw [bytes, hslots]; rfl⟩
    · by_cases hzero : count = 0
      · exact .inr ⟨hzero, by rw [hcount, hzero]; rfl⟩
      · have hne : count.toNat ≠ 0 := fun h => hzero (UInt16.toNat_inj.1 h)
        exact .inl (by show count.toNat = pool.count; omega)
    · rw [hslots]
      exact .cons trivial hspelled

/-- **A pool is read back.** -/
theorem reads (c : Cursor) : Reads (ConstantPool.read texts) (layout texts) c := by
  have h : Reads (ConstantPool.read texts) (Layout.bind (Layout.fixed BigEndian.u16)
      fun count pool y => filledLayout texts (count.toNat - 1) #[none] pool.slots y) c := by
    refine (Reads.u16 c).bind fun count _ mid _ _ => ?_
    refine ((reads_slots (count.toNat - 1) 1 #[none] mid).map ConstantPool.mk).congr
      fun pool y => ⟨fun h => ?_, fun h => ?_⟩
    · obtain ⟨slots, rfl, hslots⟩ := h
      exact hslots
    · exact ⟨pool.slots, rfl, h⟩
  exact h.congr fun pool bytes => Layout.bind_fixed_iff.trans layout_iff.symm

end ConstantPool

end ClassView
