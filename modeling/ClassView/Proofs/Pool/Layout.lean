import ClassView.Pool.Basic
import ClassView.Proofs.Layout

/-!
# The constant pool as bytes

The way back from a pool to the bytes it can be read from. Two things are not settled by the pool:
in which bytes a text is spelled, since more than one byte string may be taken for it, and whether
the count of a pool without entries is zero or one. A `PoolForm` settles them.

* `Entry.bytes`: the bytes of an entry, a text being spelled as asked;
* `ConstantPool.IsRegular`: a slot is empty exactly if it is the first or lies behind a wide entry;
* **`ConstantPool.isRegular_iff`**: the same said of the slots from front to back;
* `ConstantPool.bytes`: the bytes of a pool in a form.
-/

namespace ClassView

/-! ## 1. Entries -/

namespace Entry

/-- The bytes are taken for the text of the entry; to an entry that is no text they do not
    matter. -/
def IsSpelled (texts : TextReader) (spelling : List UInt8) : Entry → Prop
  | .utf8 text => spelling.length < 65536 ∧ texts spelling = some text
  | _ => True

/-- The bytes behind the tag. -/
def fieldBytes (spelling : List UInt8) : Entry → List UInt8
  | .utf8 _ => BigEndian.toBytes 2 spelling.length ++ spelling
  | .integer value => BigEndian.i32 value
  | .float bits => BigEndian.u32 bits
  | .long value => BigEndian.i64 value
  | .double bits => BigEndian.u64 bits
  | .classRef name => BigEndian.u16 name
  | .string text => BigEndian.u16 text
  | .member _ owner signature => BigEndian.u16 owner ++ BigEndian.u16 signature
  | .nameAndType name descriptor => BigEndian.u16 name ++ BigEndian.u16 descriptor
  | .methodHandle kind target => BigEndian.u8 kind ++ BigEndian.u16 target
  | .methodType descriptor => BigEndian.u16 descriptor
  | .dynamic bootstrap signature => BigEndian.u16 bootstrap ++ BigEndian.u16 signature
  | .invokeDynamic bootstrap signature => BigEndian.u16 bootstrap ++ BigEndian.u16 signature
  | .moduleRef name => BigEndian.u16 name
  | .packageRef name => BigEndian.u16 name

/-- The bytes of an entry. -/
def bytes (spelling : List UInt8) (e : Entry) : List UInt8 := e.tag.byte :: e.fieldBytes spelling

/-- The entries that are stored under a tag. -/
theorem tag_eq_iff (tag : Tag) (e : Entry) : e.tag = tag ↔
    match tag with
    | .utf8 => ∃ text, e = .utf8 text
    | .integer => ∃ value, e = .integer value
    | .float => ∃ bits, e = .float bits
    | .long => ∃ value, e = .long value
    | .double => ∃ bits, e = .double bits
    | .classRef => ∃ name, e = .classRef name
    | .string => ∃ text, e = .string text
    | .fieldRef => ∃ owner signature, e = .member .field owner signature
    | .methodRef => ∃ owner signature, e = .member .method owner signature
    | .interfaceMethodRef => ∃ owner signature, e = .member .interfaceMethod owner signature
    | .nameAndType => ∃ name descriptor, e = .nameAndType name descriptor
    | .methodHandle => ∃ kind target, e = .methodHandle kind target
    | .methodType => ∃ descriptor, e = .methodType descriptor
    | .dynamic => ∃ bootstrap signature, e = .dynamic bootstrap signature
    | .invokeDynamic => ∃ bootstrap signature, e = .invokeDynamic bootstrap signature
    | .moduleRef => ∃ name, e = .moduleRef name
    | .packageRef => ∃ name, e = .packageRef name := by
  refine ⟨?_, ?_⟩
  · rintro rfl
    cases e with
    | member kind owner signature => cases kind <;> exact ⟨_, _, rfl⟩
    | _ => simp [tag]
  · cases tag with
    | utf8 | integer | float | long | double | classRef | string | methodType | moduleRef
    | packageRef =>
      intro hgiven
      rcases hgiven with ⟨_, rfl⟩
      rfl
    | _ =>
      intro hgiven
      rcases hgiven with ⟨_, _, rfl⟩
      rfl

end Entry

/-! ## 2. Slots -/

namespace ConstantPool

/-- The bytes spell the text in a slot, if there is one. -/
def SlotIsSpelled (texts : TextReader) (spelling : List UInt8) : Option Entry → Prop
  | none => True
  | some e => e.IsSpelled texts spelling

/-- The bytes of a slot: none if it is empty. -/
def slotBytes (spelling : List UInt8) : Option Entry → List UInt8
  | none => []
  | some e => e.bytes spelling

/-- The slots that a count of two bytes can number, the first one empty, each other one empty
    exactly if the slot in front of it holds an entry that takes two. -/
structure IsRegular (pool : ConstantPool) : Prop where
  count_lt : pool.count < 65536
  first : pool.slots[0]? = some none
  behind : ∀ i, i + 1 < pool.count → (pool.slots[i + 1]? = some none ↔
    ∃ e, pool.slots[i]? = some (some e) ∧ e.isWide = true)
  last : ∀ e, pool.slots.back? = some (some e) → e.isWide = false

/-- The same of a row of slots, behind a slot that holds a wide entry or does not. -/
def RowIsRegular : (behindWide : Bool) → List (Option Entry) → Prop
  | behindWide, [] => behindWide = false
  | behindWide, slot :: rest =>
    (slot = none ↔ behindWide = true) ∧ RowIsRegular (slot.any Entry.isWide) rest

theorem any_isWide_iff {slot : Option Entry} :
    slot.any Entry.isWide = true ↔ ∃ e, slot = some e ∧ e.isWide = true := by
  cases slot with
  | none => simp
  | some e => simp

/-- A row is regular slot by slot. -/
theorem rowIsRegular_cons_iff (behindWide : Bool) (slot : Option Entry)
    (row : List (Option Entry)) :
    RowIsRegular behindWide (slot :: row) ↔
      (slot = none ↔ behindWide = true) ∧
      (∀ i, i + 1 < (slot :: row).length → ((slot :: row)[i + 1]? = some none ↔
        ∃ e, (slot :: row)[i]? = some (some e) ∧ e.isWide = true)) ∧
      ∀ e, (slot :: row).getLast? = some (some e) → e.isWide = false := by
  induction row generalizing behindWide slot with
  | nil =>
    refine and_congr_right fun _ => ?_
    show slot.any Entry.isWide = false ↔ _
    rw [← Bool.not_eq_true, any_isWide_iff]
    refine ⟨fun h => ⟨fun i hi => ?_, fun e he => ?_⟩, fun h hwide => ?_⟩
    · exact absurd hi (by simp)
    · by_contra hnot
      exact h ⟨e, Option.some.inj he, eq_true_of_ne_false hnot⟩
    · obtain ⟨e, rfl, he⟩ := hwide
      have hnarrow : e.isWide = false := h.2 e rfl
      rw [hnarrow] at he
      exact Bool.false_ne_true he
  | cons next row ih =>
    refine and_congr_right fun _ => ?_
    show RowIsRegular (slot.any Entry.isWide) (next :: row) ↔ _
    rw [ih, any_isWide_iff, List.getLast?_cons_cons]
    refine ⟨fun h => ?_, fun h => ?_⟩
    · obtain ⟨hnext, hbehind, hlast⟩ := h
      refine ⟨fun i hi => ?_, hlast⟩
      cases i with
      | zero => simpa using hnext
      | succ i => exact hbehind i (by simpa using hi)
    · obtain ⟨hbehind, hlast⟩ := h
      refine ⟨?_, fun i hi => ?_, hlast⟩
      · simpa using hbehind 0 (by simp)
      · exact hbehind (i + 1) (by simpa using hi)

/-- **A pool is regular exactly if its slots are, from front to back**: the first one is empty as if
    it were behind a wide entry. -/
theorem isRegular_iff {pool : ConstantPool} :
    pool.IsRegular ↔ pool.count < 65536 ∧ RowIsRegular true pool.slots.toList := by
  obtain ⟨⟨slots⟩⟩ := pool
  cases slots with
  | nil =>
    refine ⟨fun h => ?_, fun h => ?_⟩
    · exact nomatch h.first
    · exact nomatch h.2
  | cons slot row =>
    rw [rowIsRegular_cons_iff]
    refine ⟨fun h => ?_, fun h => ?_⟩
    · have hfirst : slot = none := by simpa using h.first
      refine ⟨h.count_lt, by simp [hfirst], fun i hi => ?_, fun e he => ?_⟩
      · simpa using h.behind i hi
      · exact h.last e (by rw [← Array.getLast?_toList]; exact he)
    · obtain ⟨hcount, hfirst, hbehind, hlast⟩ := h
      refine ⟨hcount, ?_, fun i hi => ?_, fun e he => ?_⟩
      · simpa using hfirst.2 rfl
      · simpa using hbehind i hi
      · exact hlast e (by rw [← Array.getLast?_toList] at he; exact he)

end ConstantPool

/-! ## 3. Pools -/

/-- What the bytes of a pool have that the pool does not settle. -/
structure PoolForm where
  /-- The count that is stored. -/
  count : UInt16
  /-- The spelling for each slot; it matters where the slot holds a text. -/
  spellings : List (List UInt8)
  deriving Repr

/-- The count is the number of slots, or zero if only the first one is there, and the spellings are
    those of the texts. -/
structure PoolForm.Fits (texts : TextReader) (form : PoolForm) (pool : ConstantPool) : Prop where
  count : form.count.toNat = pool.count ∨ (form.count = 0 ∧ pool.count = 1)
  spellings : List.Forall₂ (ConstantPool.SlotIsSpelled texts) form.spellings pool.slots.toList

/-- The bytes of a pool. -/
def ConstantPool.bytes (form : PoolForm) (pool : ConstantPool) : List UInt8 :=
  BigEndian.u16 form.count ++ Layout.rowBytes slotBytes form.spellings pool.slots.toList

end ClassView
