import ClassView.Proofs.Extent
import ClassView.Proofs.Pool.Filling

/-!
# What is wrong with a pool that cannot be read

A pool is refused for one entry, and the fault tells which one and why: no tag stands where the
entry starts, the entry is a whole text that is not encoded as the format asks, or it takes two
slots where the count leaves one. All of this is said here of the bytes of the whole file, in which
the pool follows the magic number and the version.

* `ConstantPool.storedCount`, `ConstantPool.EntryStartsAt`: the count that is stored, and where an
  entry of a given index starts;
* `Entry.fault_of_read`: an entry that cannot be read has no tag or is a text;
* `ConstantPool.Cause`: the three faults, as the bytes show them;
* **`ConstantPool.cause_of_read`**: a pool that cannot be read has one of them.
-/

namespace ClassView

open BigEndian (numberAt)

/-! ## 1. Entries that cannot be read -/

namespace Entry

variable {texts : TextReader} {c : Cursor} {e : DecodeError} {index : Nat}

/-- What follows a tag, other than that of a text, is a number of bytes that is known in advance. -/
theorem exists_takes {tag : Tag} (htext : tag ≠ .utf8) (texts : TextReader) (index : Nat)
    (c : Cursor) :
    ∃ n, Takes (readFields texts index tag) n c := by
  have hpair : ∀ make : UInt16 → UInt16 → Entry, ∃ n, Takes
      (Cursor.u16 >>= fun a => Cursor.u16 >>= fun b => (pure (make a b) : Read Entry)) n c :=
    fun make => ⟨_, (Takes.u16 c).bind fun a _ _ => (Takes.u16 _).bind fun b _ _ =>
      Takes.pure (make a b) _⟩
  cases tag with
  | utf8 => exact absurd rfl htext
  | integer => exact ⟨_, (Takes.i32 c).map _⟩
  | float => exact ⟨_, (Takes.u32 c).map _⟩
  | long => exact ⟨_, ((Takes.u64 c).map _).map _⟩
  | double => exact ⟨_, (Takes.u64 c).map _⟩
  | classRef | string | methodType | moduleRef | packageRef => exact ⟨_, (Takes.u16 c).map _⟩
  | fieldRef => exact hpair (.member .field)
  | methodRef => exact hpair (.member .method)
  | interfaceMethodRef => exact hpair (.member .interfaceMethod)
  | nameAndType => exact hpair .nameAndType
  | dynamic => exact hpair .dynamic
  | invokeDynamic => exact hpair .invokeDynamic
  | methodHandle =>
    exact ⟨_, (Takes.u8 c).bind fun kind _ _ => (Takes.u16 _).bind fun member _ _ =>
      Takes.pure (Entry.methodHandle kind member) _⟩

/-- A text that cannot be read is there as a whole, and not encoded as the format asks. -/
theorem fault_of_readText (he : ¬ e.IsAboutEnd) (h : readText texts index c = .error e) :
    e = .invalidText index ∧ 2 + numberAt c.rest 0 2 ≤ c.remaining ∧
      texts ((c.rest.drop 2).take (numberAt c.rest 0 2)) = none := by
  obtain ⟨htwo, h⟩ := (Takes.u16 c).error_behind_of_eq Cursor.u16_of_le he h
  rw [UInt16.toNat_ofNat_of_lt' (BigEndian.numberAt_lt c.rest 0 2)] at h
  obtain ⟨hall, h⟩ := (Takes.take _ _).error_behind_of_eq Cursor.take_of_le he h
  rw [Cursor.remaining_advance] at hall
  have hrest : (c.advance 2).rest = c.rest.drop 2 := rfl
  rw [hrest] at h
  cases htext : texts ((c.rest.drop 2).take (numberAt c.rest 0 2)) with
  | some text =>
    rw [htext] at h
    exact nomatch h
  | none =>
    rw [htext] at h
    cases h
    exact ⟨rfl, by omega, rfl⟩

/-- **An entry that cannot be read starts with no tag, or is a text that is not encoded as the
    format asks.** -/
theorem fault_of_read (he : ¬ e.IsAboutEnd) (h : read texts index c = .error e) :
    (∃ b, c.rest.head? = some b ∧ Tag.ofByte? b = none ∧ e = .unknownTag b c.offset) ∨
    (c.rest.head? = some Tag.utf8.byte ∧ 3 + numberAt c.rest 1 2 ≤ c.remaining ∧
      texts ((c.rest.drop 3).take (numberAt c.rest 1 2)) = none ∧
      e = .invalidText index) := by
  rw [read, Cursor.get_bind_apply] at h
  obtain ⟨b, hone, hb, h⟩ := (Takes.u8 c).error_behind he h
  have hfirst := Cursor.head?_of_u8 hb
  cases htag : Tag.ofByte? b with
  | none =>
    rw [htag] at h
    cases h
    exact .inl ⟨b, hfirst, htag, rfl⟩
  | some tag =>
    rw [htag] at h
    by_cases htext : tag = .utf8
    · subst htext
      obtain ⟨rfl, hall, hrejected⟩ := fault_of_readText he h
      have hnumber : numberAt (c.advance 1).rest 0 2 = numberAt c.rest 1 2 :=
        Cursor.numberAt_advance c 1 0 2
      rw [hnumber, Cursor.remaining_advance] at hall
      rw [hnumber, Cursor.advance, List.drop_drop] at hrejected
      exact .inr ⟨Tag.byte_of_ofByte? htag ▸ hfirst, by omega, hrejected, rfl⟩
    · obtain ⟨n, htakes⟩ := exists_takes htext texts index (c.advance 1)
      exact absurd (htakes.isAboutEnd h) he

end Entry

/-! ## 2. Pools that cannot be read -/

namespace ConstantPool

/-- The count of slots that a class file stores for its pool. -/
def storedCount (bytes : List UInt8) : Nat := numberAt bytes 8 2

/-- The entry for the slot `index` starts at the place: the entries of the slots in front of it
    stand in a row from behind the count up to there. -/
def EntryStartsAt (texts : TextReader) (bytes : List UInt8) (place index : Nat) : Prop :=
  ∃ row stored, Layout.rows (Entry.layout texts) row stored ∧ stored <+: bytes.drop 10 ∧
    place = 10 + stored.length ∧ index = 1 + (row.flatMap slotsOf).length

/-- What is wrong with the pool of a class file: the fault, and what the bytes show. -/
inductive Cause (texts : TextReader) (bytes : List UInt8) : DecodeError → Prop
  /-- No tag stands where an entry has to start. -/
  | noTag {tag : UInt8} {place index : Nat} (starts : EntryStartsAt texts bytes place index)
      (room : index < storedCount bytes) (stands : bytes[place]? = some tag)
      (unknown : Tag.ofByte? tag = none) : Cause texts bytes (.unknownTag tag place)
  /-- The entry is a text, all of which is there, and its bytes are no text. -/
  | noText {place index : Nat} (starts : EntryStartsAt texts bytes place index)
      (range : 1 ≤ index ∧ index < storedCount bytes) (stands : bytes[place]? = some Tag.utf8.byte)
      (complete : place + 3 + numberAt bytes (place + 1) 2 ≤ bytes.length)
      (rejected : texts
        ((bytes.drop (place + 3)).take (numberAt bytes (place + 1) 2)) = none) :
      Cause texts bytes (.invalidText index)
  /-- The entry for the last slot takes two. -/
  | overrun {place index : Nat} {entry : Entry} {stored : List UInt8}
      (starts : EntryStartsAt texts bytes place index) (last : index + 1 = storedCount bytes)
      (stands : stored <+: bytes.drop place) (form : Entry.layout texts entry stored)
      (wide : entry.isWide = true) : Cause texts bytes (.indexOutOfRange (storedCount bytes))

theorem EntryStartsAt.index_pos {texts : TextReader} {bytes : List UInt8} {place index : Nat}
    (h : EntryStartsAt texts bytes place index) : 1 ≤ index := by
  obtain ⟨_, _, _, _, _, rfl⟩ := h
  exact Nat.le_add_right _ _

section Reading

variable {texts : TextReader} {bytes : List UInt8} {place index : Nat} {e : DecodeError}

/-- Wherever the reader of slots is, an entry starts. -/
theorem startsAt_of_reaches {stop : Nat} {s : Filling}
    (h : Filling.Reaches texts stop (Filling.start ((Cursor.ofBytes bytes 0).advance 10)) s) :
    ∃ place, s.cursor = (Cursor.ofBytes bytes 0).advance place ∧
      EntryStartsAt texts bytes place s.index := by
  obtain ⟨row, x, hrow, hx, hindex⟩ := Filling.rows_of_reaches h
  have hcursor := hx.eq_advance
  rw [Filling.start, Cursor.advance_advance] at hcursor
  exact ⟨10 + x.length, hcursor, row, x, hrow, ⟨s.cursor.rest, hx.rest.symm⟩, rfl, hindex⟩

/-- What is wrong with the entry that starts at a place. -/
theorem cause_of_unread (he : ¬ e.IsAboutEnd) (starts : EntryStartsAt texts bytes place index)
    (room : index < storedCount bytes)
    (h : Entry.read texts index ((Cursor.ofBytes bytes 0).advance place) = .error e) :
    Cause texts bytes e := by
  have hfirst : ((Cursor.ofBytes bytes 0).advance place).rest.head? = bytes[place]? :=
    List.head?_drop
  have hoffset : ((Cursor.ofBytes bytes 0).advance place).offset = place :=
    (Cursor.offset_advance _ _).trans (Nat.zero_add place)
  have hremaining : ((Cursor.ofBytes bytes 0).advance place).remaining = bytes.length - place :=
    Cursor.remaining_advance _ _
  have hnumber : numberAt ((Cursor.ofBytes bytes 0).advance place).rest 1 2 =
      numberAt bytes (place + 1) 2 := Cursor.numberAt_advance _ _ _ _
  have hbody : ((Cursor.ofBytes bytes 0).advance place).rest.drop 3 = bytes.drop (place + 3) :=
    List.drop_drop
  rcases Entry.fault_of_read he h with
    ⟨b, hb, hunknown, rfl⟩ | ⟨hb, hall, hrejected, rfl⟩
  · rw [hfirst] at hb
    rw [hoffset]
    exact .noTag starts room hb hunknown
  · rw [hfirst] at hb
    rw [hnumber, hremaining] at hall
    rw [hnumber, hbody] at hrejected
    have hlt : place < bytes.length := (List.getElem?_eq_some_iff.1 hb).1
    exact .noText starts ⟨starts.index_pos, room⟩ hb (by omega) hrejected

/-- An entry that takes two slots where one is left. -/
theorem cause_of_overrun {entry : Entry} {behind : Cursor}
    (starts : EntryStartsAt texts bytes place index) (last : index + 1 = storedCount bytes)
    (h : Entry.read texts index ((Cursor.ofBytes bytes 0).advance place) = .ok (entry, behind))
    (wide : entry.isWide = true) : Cause texts bytes (.indexOutOfRange (storedCount bytes)) := by
  obtain ⟨y, hy, hentry⟩ := (Entry.reads _ _ _ _).1 h
  exact .overrun starts last ⟨behind.rest, hy.rest.symm⟩ hentry wide

/-- **A pool that cannot be read is refused for what is wrong with it**, if the input does not end
    within it. -/
theorem cause_of_read (he : ¬ e.IsAboutEnd)
    (h : read texts ((Cursor.ofBytes bytes 0).advance 8) = .error e) : Cause texts bytes e := by
  obtain ⟨count, htwo, hcount, _⟩ := (Takes.u16 _).error_behind he h
  have hstored : count.toNat = storedCount bytes := by
    rw [Cursor.u16_of_le htwo] at hcount
    obtain ⟨rfl, _⟩ := Prod.mk.inj (Except.ok.inj hcount)
    rw [UInt16.toNat_ofNat_of_lt' (BigEndian.numberAt_lt _ 0 2), Cursor.numberAt_advance]
    rfl
  obtain ⟨s, hreach, hstops⟩ := (read_eq_error_iff hcount).1 h
  rw [Cursor.advance_advance] at hreach
  obtain ⟨place, hcursor, hstarts⟩ := startsAt_of_reaches hreach
  have hpos := hstarts.index_pos
  cases hstops with
  | unread room hread => exact cause_of_unread he hstarts (by omega) (hcursor ▸ hread)
  | overrun room hread hwide =>
    -- an entry has been read, so the count is not zero
    have hstop : max count.toNat 1 = storedCount bytes := by omega
    rw [hstop]
    exact cause_of_overrun hstarts (by omega) (hcursor ▸ hread) hwide

end Reading

end ConstantPool

end ClassView
