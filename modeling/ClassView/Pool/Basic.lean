import ClassView.Pool.Entry

/-!
# The constant pool

The pool is a row of slots numbered from zero. Slot zero is empty, and so is the slot behind each
entry that takes two; every other slot holds an entry. The stored count is the number of slots,
slot zero included, so a count of zero and a count of one both store an empty pool.
-/

namespace ClassView

/-- The slots of a constant pool, slot zero included. -/
structure ConstantPool where
  slots : Array (Option Entry)
  deriving DecidableEq, Repr

namespace ConstantPool

/-! ## 1. Slots -/

/-- The number of slots, slot zero included. -/
def count (pool : ConstantPool) : Nat := pool.slots.size

/-- The entry in a slot, if the slot exists and is not empty. -/
def entry? (pool : ConstantPool) (index : UInt16) : Option Entry :=
  pool.slots[index.toNat]?.join

/-- The entry in a slot. -/
def get (pool : ConstantPool) (index : UInt16) : Outcome Entry :=
  match pool.entry? index with
  | some entry => .ok entry
  | none => .error (.indexOutOfRange index.toNat)

/-- All entries with their indices, in ascending order. -/
def entries (pool : ConstantPool) : List (UInt16 × Entry) :=
  pool.slots.toList.zipIdx.filterMap (fun (slot, index) => slot.map (UInt16.ofNat index, ·))

theorem get_eq_ok_iff {pool : ConstantPool} {index : UInt16} {entry : Entry} :
    pool.get index = .ok entry ↔ pool.entry? index = some entry := by
  unfold get
  cases pool.entry? index <;> simp

theorem get_eq_error_iff {pool : ConstantPool} {index : UInt16} {e : DecodeError} :
    pool.get index = .error e ↔
      pool.entry? index = none ∧ e = .indexOutOfRange index.toNat := by
  unfold get
  cases pool.entry? index <;> simp [eq_comm]

/-! ## 2. Reading -/

/-- Fills the slots from `index` on, `left` of them, behind those already filled. -/
def readSlots (texts : TextReader) : (left index : Nat) → Array (Option Entry) → Cursor →
    Except DecodeError (Array (Option Entry) × Cursor)
  | 0, _, slots, c => .ok (slots, c)
  | left + 1, index, slots, c =>
    match Entry.read texts index c with
    | .error e => .error e
    | .ok (entry, c') =>
      match entry.isWide, left with
      | true, 0 => .error (.indexOutOfRange (index + 1))
      | true, left + 1 =>
        readSlots texts left (index + 2) ((slots.push (some entry)).push none) c'
      | false, left => readSlots texts left (index + 1) (slots.push (some entry)) c'

/-- Reads a pool: the number of slots and the entries. -/
def read (texts : TextReader) : Read ConstantPool := do
  let count ← Cursor.u16
  let slots ← (readSlots texts (count.toNat - 1) 1 #[none] : Read (Array (Option Entry)))
  return ⟨slots⟩

end ConstantPool

end ClassView
