import ClassView.Proofs.Outcome
import ClassView.Proofs.Pool.Reading
import Mathlib.Logic.Relation

/-!
# How the slots of a pool are filled

The slots are filled in rounds. A round reads one entry and puts it behind the slots, with an empty
slot behind it if it takes two, so the index of the next slot and the number of slots go up
together, by one or by two. The rounds end when the stored count is reached, when an entry cannot be
read, or when the last slot would have to hold an entry that takes two.

* `ConstantPool.mem_entries_iff`, `ConstantPool.entries_ascending`: the entries by their indices;
* `Filling.Step`, `Filling.Stops`: what one round does, and what stops the rounds;
* `Filling.run_eq_ok_iff`, `Filling.run_eq_error_iff`: the outcome told by the rounds;
* `Filling.Step.inStep`, `Filling.inStep_of_reaches`: the index, the slots and the count stay in
  step over a round and over all rounds;
* **`ConstantPool.read_invariant`**: what holds of every pool that is read.
-/

namespace ClassView

namespace ConstantPool

variable {pool : ConstantPool}

/-! ## 1. Entries by their indices -/

theorem entry?_eq_some_iff {index : UInt16} {e : Entry} :
    pool.entry? index = some e ↔ pool.slots[index.toNat]? = some (some e) := by
  unfold entry?
  exact Option.join_eq_some_iff

/-- The entries with their indices as plain numbers, which nothing cuts to two bytes. -/
def numbered (pool : ConstantPool) : List (Nat × Entry) :=
  pool.slots.toList.zipIdx.filterMap (fun (slot, index) => slot.map (index, ·))

theorem mem_numbered_iff {index : Nat} {e : Entry} :
    (index, e) ∈ pool.numbered ↔ pool.slots[index]? = some (some e) := by
  unfold numbered
  rw [List.mem_filterMap]
  refine ⟨fun h => ?_, fun h => ?_⟩
  · obtain ⟨⟨slot, i⟩, hmem, hslot⟩ := h
    obtain ⟨e', rfl, hpair⟩ := Option.map_eq_some_iff.1 hslot
    cases hpair
    rw [List.mem_zipIdx_iff_getElem?] at hmem
    rwa [Array.getElem?_toList] at hmem
  · refine ⟨(some e, index), ?_, rfl⟩
    rw [List.mem_zipIdx_iff_getElem?]
    rwa [Array.getElem?_toList]

theorem numbered_ascending : pool.numbered.Pairwise (fun a b => a.1 < b.1) := by
  have hplaces : pool.slots.toList.zipIdx.Pairwise (fun a b => a.2 < b.2) := by
    rw [← List.pairwise_map (f := Prod.snd) (R := (· < ·)), List.zipIdx_map_snd]
    exact List.pairwise_lt_range'
  refine hplaces.filterMap _ fun a b hlt p hp q hq => ?_
  obtain ⟨_, _, rfl⟩ := Option.map_eq_some_iff.1 hp
  obtain ⟨_, _, rfl⟩ := Option.map_eq_some_iff.1 hq
  exact hlt

theorem entries_eq_map_numbered :
    pool.entries = pool.numbered.map (fun p => (UInt16.ofNat p.1, p.2)) := by
  unfold entries numbered
  rw [List.map_filterMap]
  refine List.filterMap_congr fun p _ => ?_
  rw [Option.map_map]
  rfl

/-- No index is cut while there are no more slots than an index can number. -/
theorem map_toNat_entries (h : pool.count ≤ 65536) :
    pool.entries.map (fun p => (p.1.toNat, p.2)) = pool.numbered := by
  rw [entries_eq_map_numbered, List.map_map]
  refine (List.map_congr_left fun p hp => ?_).trans (List.map_id _)
  have hslot : pool.slots[p.1]? = some (some p.2) := mem_numbered_iff.1 hp
  obtain ⟨hlt, _⟩ := Array.getElem?_eq_some_iff.1 hslot
  have hindex : p.1 < 65536 := Nat.lt_of_lt_of_le hlt h
  exact Prod.ext (UInt16.toNat_ofNat_of_lt' hindex) rfl

/-- The entries are those that can be looked up, each with its index. -/
theorem mem_entries_iff (h : pool.count ≤ 65536) {index : UInt16} {e : Entry} :
    (index, e) ∈ pool.entries ↔ pool.entry? index = some e := by
  rw [entry?_eq_some_iff, ← mem_numbered_iff, ← map_toNat_entries h, List.mem_map]
  refine ⟨fun hmem => ⟨_, hmem, rfl⟩, fun hmem => ?_⟩
  obtain ⟨p, hp, hpair⟩ := hmem
  obtain ⟨hindex, rfl⟩ := Prod.mk.inj hpair
  rwa [← UInt16.toNat_inj.1 hindex]

/-- **The entries come in the order of their indices.** -/
theorem entries_ascending (h : pool.count ≤ 65536) :
    pool.entries.Pairwise (fun a b => a.1 < b.1) := by
  have hnumbered := pool.numbered_ascending
  rw [← map_toNat_entries h, List.pairwise_map] at hnumbered
  exact hnumbered.imp fun hlt => UInt16.lt_iff_toNat_lt.2 hlt

end ConstantPool

/-! ## 2. Rounds -/

/-- How far the slots of a pool are filled: the index of the next one, those in front of it, and
    where the reader stands. -/
structure Filling where
  index : Nat
  slots : Array (Option Entry)
  cursor : Cursor

namespace Filling

open ConstantPool

variable {texts : TextReader} {stop : Nat} {s t : Filling} {slots : Array (Option Entry)}
  {behind : Cursor}
  {e : DecodeError}

/-- In front of the first entry: only the slot zero is there, and it stays empty. -/
def start (c : Cursor) : Filling := ⟨1, #[none], c⟩

/-- The outcome of filling the slots from here on up to `stop`. -/
def run (texts : TextReader) (stop : Nat) (s : Filling) :
    Except DecodeError (Array (Option Entry) × Cursor) :=
  readSlots texts (stop - s.index) s.index s.slots s.cursor

/-- One round: an entry is read, and there are slots for all that it takes. -/
inductive Step (texts : TextReader) (stop : Nat) : Filling → Filling → Prop
  | narrow {s : Filling} {entry : Entry} {behind : Cursor} (room : s.index < stop)
      (read : Entry.read texts s.index s.cursor = .ok (entry, behind))
      (narrow : entry.isWide = false) :
      Step texts stop s ⟨s.index + 1, s.slots.push (some entry), behind⟩
  | wide {s : Filling} {entry : Entry} {behind : Cursor} (room : s.index + 1 < stop)
      (read : Entry.read texts s.index s.cursor = .ok (entry, behind))
      (wide : entry.isWide = true) :
      Step texts stop s ⟨s.index + 2, (s.slots.push (some entry)).push none, behind⟩

/-- What ends the rounds too early: an entry that cannot be read, or one that takes two slots where
    only the last one is left. -/
inductive Stops (texts : TextReader) (stop : Nat) (s : Filling) : DecodeError → Prop
  | unread {e : DecodeError} (room : s.index < stop)
      (read : Entry.read texts s.index s.cursor = .error e) : Stops texts stop s e
  | overrun {entry : Entry} {behind : Cursor} (room : s.index + 1 = stop)
      (read : Entry.read texts s.index s.cursor = .ok (entry, behind))
      (wide : entry.isWide = true) :
      Stops texts stop s (.indexOutOfRange stop)

/-- Some rounds lead from one place to another. -/
abbrev Reaches (texts : TextReader) (stop : Nat) : Filling → Filling → Prop :=
  Relation.ReflTransGen (Step texts stop)

/-- With a slot left to fill, the outcome hangs on the entry that is read next. -/
theorem run_of_lt (h : s.index < stop) : s.run texts stop =
    (Entry.read texts s.index >>= fun entry =>
      match entry.isWide, stop - s.index - 1 with
      | true, 0 => MonadExcept.throw (.indexOutOfRange (s.index + 1))
      | true, left + 1 => readSlots texts left (s.index + 2) ((s.slots.push (some entry)).push none)
      | false, left =>
        readSlots texts left (s.index + 1) (s.slots.push (some entry))) s.cursor := by
  have hleft : stop - s.index = stop - s.index - 1 + 1 := by omega
  unfold run
  rw [hleft, readSlots_succ]
  rfl

theorem run_of_eq (h : s.index = stop) : s.run texts stop = .ok (s.slots, s.cursor) := by
  unfold run
  rw [h, Nat.sub_self]
  rfl

/-- A round does not change what comes out in the end. -/
theorem Step.run_eq (h : Step texts stop s t) : s.run texts stop = t.run texts stop := by
  cases h with
  | narrow room hread hnarrow =>
    rw [run_of_lt room, Cursor.bind_of_ok hread, hnarrow]
    rfl
  | wide room hread hwide =>
    have hleft : stop - s.index - 1 = stop - (s.index + 2) + 1 := by omega
    rw [run_of_lt (Nat.lt_of_succ_lt room), Cursor.bind_of_ok hread, hwide, hleft]
    rfl

theorem run_eq_of_reaches (h : Reaches texts stop s t) : s.run texts stop = t.run texts stop := by
  induction h with
  | refl => rfl
  | tail _ hstep ih => exact ih.trans hstep.run_eq

theorem Stops.run_eq (h : Stops texts stop s e) : s.run texts stop = .error e := by
  cases h with
  | unread room hread => rw [run_of_lt room, Cursor.bind_apply, hread]
  | overrun room hread hwide =>
    have hleft : stop - s.index - 1 = 0 := by omega
    rw [run_of_lt (by omega), Cursor.bind_of_ok hread, hwide, hleft, room]
    rfl

/-- With a slot left to fill, there is a round to make or something that stops it. -/
theorem step_or_stops (h : s.index < stop) :
    (∃ t, Step texts stop s t) ∨ ∃ e, Stops texts stop s e := by
  cases hread : Entry.read texts s.index s.cursor with
  | error e => exact .inr ⟨e, .unread h hread⟩
  | ok p =>
    obtain ⟨entry, behind⟩ := p
    cases hwide : entry.isWide with
    | false => exact .inl ⟨_, .narrow h hread hwide⟩
    | true =>
      by_cases hroom : s.index + 1 < stop
      · exact .inl ⟨_, .wide hroom hread hwide⟩
      · exact .inr ⟨_, .overrun (by omega) hread hwide⟩

/-! ## 3. What stays in step -/

/-- The index is the number of the slots in front of it, and does not pass the count. -/
structure InStep (stop : Nat) (s : Filling) : Prop where
  index_eq : s.index = s.slots.size
  index_le : s.index ≤ stop

theorem inStep_start (c : Cursor) (h : 1 ≤ stop) : (start c).InStep stop := ⟨rfl, h⟩

/-- **A round keeps the index, the slots and the count in step.** -/
theorem Step.inStep (h : Step texts stop s t) (hs : s.InStep stop) : t.InStep stop := by
  have hindex := hs.index_eq
  cases h with
  | narrow room => exact ⟨by simp [hindex], room⟩
  | wide room => exact ⟨by simp [hindex], room⟩

/-- **So do all rounds together.** -/
theorem inStep_of_reaches (h : Reaches texts stop s t) (hs : s.InStep stop) : t.InStep stop := by
  induction h with
  | refl => exact hs
  | tail _ hstep ih => exact hstep.inStep ih

/-- The rounds come to an end: at the count, or where something stops them. -/
theorem exists_end (texts : TextReader) (h : s.index ≤ stop) :
    ∃ t, Reaches texts stop s t ∧ (t.index = stop ∨ ∃ e, Stops texts stop t e) := by
  induction hleft : stop - s.index using Nat.strongRecOn generalizing s with
  | ind left ih =>
    rcases Nat.eq_or_lt_of_le h with hend | hlt
    · exact ⟨s, .refl, .inl hend⟩
    rcases step_or_stops hlt with ⟨mid, hstep⟩ | hstops
    · have hmid : s.index < mid.index ∧ mid.index ≤ stop := by
        cases hstep <;> exact ⟨by simp, by assumption⟩
      obtain ⟨t, hreach, hend⟩ := ih (stop - mid.index) (by omega) hmid.2 rfl
      exact ⟨t, hreach.head hstep, hend⟩
    · exact ⟨s, .refl, .inr hstops⟩

/-- **The slots are filled exactly if the rounds reach the count.** -/
theorem run_eq_ok_iff (h : s.index ≤ stop) :
    s.run texts stop = .ok (slots, behind) ↔ Reaches texts stop s ⟨stop, slots, behind⟩ := by
  refine ⟨fun hrun => ?_, fun hreach => (run_eq_of_reaches hreach).trans (run_of_eq rfl)⟩
  obtain ⟨⟨index, slots', behind'⟩, hreach, rfl | ⟨e, hstops⟩⟩ := exists_end texts h
  · have hend := (run_eq_of_reaches hreach).trans (run_of_eq rfl)
    cases hend.symm.trans hrun
    exact hreach
  · exact nomatch hrun.symm.trans ((run_eq_of_reaches hreach).trans hstops.run_eq)

/-- **They are not exactly if the rounds reach a place where something stops them.** -/
theorem run_eq_error_iff (h : s.index ≤ stop) :
    s.run texts stop = .error e ↔ ∃ t, Reaches texts stop s t ∧ t.Stops texts stop e := by
  refine ⟨fun hrun => ?_, fun hstopped => ?_⟩
  · obtain ⟨t, hreach, hend | ⟨e', hstops⟩⟩ := exists_end texts h
    · exact nomatch hrun.symm.trans ((run_eq_of_reaches hreach).trans (run_of_eq hend))
    · cases hrun.symm.trans ((run_eq_of_reaches hreach).trans hstops.run_eq)
      exact ⟨t, hreach, hstops⟩
  · obtain ⟨t, hreach, hstops⟩ := hstopped
    exact (run_eq_of_reaches hreach).trans hstops.run_eq

/-- Entries that stand one behind the other are read in as many rounds. -/
theorem reaches_of_rows {row : List Entry} {x : List UInt8}
    (hrow : Layout.rows (Entry.layout texts) row x) (hpass : s.cursor.Passes x behind)
    (hroom : s.index + (row.flatMap slotsOf).length ≤ stop) :
    ∃ slots, Reaches texts stop s ⟨s.index + (row.flatMap slotsOf).length, slots, behind⟩ := by
  induction row generalizing s x with
  | nil =>
    obtain rfl : x = [] := hrow
    obtain rfl := hpass.of_nil
    exact ⟨s.slots, .refl⟩
  | cons entry row ih =>
    obtain ⟨x, y, hentry, hrest, rfl⟩ := hrow
    obtain ⟨mid, hx, hy⟩ := hpass.split
    have hread := (Entry.reads s.index s.cursor entry mid).2 ⟨x, hx, hentry⟩
    rw [List.flatMap_cons, List.length_append, ← Nat.add_assoc] at hroom ⊢
    cases hwide : entry.isWide with
    | false =>
      rw [slotsOf_narrow hwide] at hroom ⊢
      have hstep : Step texts stop s _ := .narrow (by simp at hroom; omega) hread hwide
      obtain ⟨slots, hreach⟩ := ih (s := ⟨s.index + 1, _, mid⟩) hrest hy hroom
      exact ⟨slots, hreach.head hstep⟩
    | true =>
      rw [slotsOf_wide hwide] at hroom ⊢
      have hstep : Step texts stop s _ := .wide (by simp at hroom; omega) hread hwide
      obtain ⟨slots, hreach⟩ := ih (s := ⟨s.index + 2, _, mid⟩) hrest hy hroom
      exact ⟨slots, hreach.head hstep⟩

/-- One round reads an entry and passes as many slots as it takes. -/
theorem Step.exists_entry (h : Step texts stop s t) : ∃ entry x, Entry.layout texts entry x ∧
    s.cursor.Passes x t.cursor ∧ t.index = s.index + (slotsOf entry).length := by
  cases h with
  | @narrow entry _ _ hread hnarrow =>
    obtain ⟨x, hx, hentry⟩ := (Entry.reads _ _ _ _).1 hread
    exact ⟨entry, x, hentry, hx, by rw [slotsOf_narrow hnarrow]; rfl⟩
  | @wide entry _ _ hread hwide =>
    obtain ⟨x, hx, hentry⟩ := (Entry.reads _ _ _ _).1 hread
    exact ⟨entry, x, hentry, hx, by rw [slotsOf_wide hwide]; rfl⟩

/-- What the rounds read is entries that stand one behind the other. -/
theorem rows_of_reaches (h : Reaches texts stop s t) : ∃ row x,
    Layout.rows (Entry.layout texts) row x ∧
    s.cursor.Passes x t.cursor ∧ t.index = s.index + (row.flatMap slotsOf).length := by
  induction h using Relation.ReflTransGen.head_induction_on with
  | refl => exact ⟨[], [], rfl, Cursor.Passes.refl _, rfl⟩
  | head hstep _ ih =>
    obtain ⟨entry, x, hentry, hx, hmid⟩ := hstep.exists_entry
    obtain ⟨row, y, hrow, hy, hindex⟩ := ih
    refine ⟨entry :: row, x ++ y, ⟨x, y, hentry, hrow, rfl⟩, hx.trans hy, ?_⟩
    rw [hindex, hmid, List.flatMap_cons, List.length_append, Nat.add_assoc]

end Filling

/-! ## 4. Pools that are read -/

namespace ConstantPool

open Filling

variable {texts : TextReader} {pool : ConstantPool} {c mid behind : Cursor} {count : UInt16}

/-- Reading a pool is reading the count and filling the slots; a count of zero stands for one. -/
theorem read_eq (h : Cursor.u16 c = .ok (count, mid)) :
    read texts c =
      (fun p => (ConstantPool.mk p.1, p.2)) <$> (start mid).run texts (max count.toNat 1) := by
  have hrun : (start mid).run texts (max count.toNat 1) =
      readSlots texts (count.toNat - 1) 1 #[none] mid := by
    have hleft : max count.toNat 1 - 1 = count.toNat - 1 := by omega
    unfold run start
    rw [hleft]
  unfold read
  rw [hrun, Cursor.bind_of_ok h, Cursor.bind_apply]
  cases readSlots texts (count.toNat - 1) 1 #[none] mid <;> rfl

theorem read_eq_ok_iff (h : Cursor.u16 c = .ok (count, mid)) :
    read texts c = .ok (pool, behind) ↔
      Reaches texts (max count.toNat 1) (start mid) ⟨max count.toNat 1, pool.slots, behind⟩ := by
  rw [read_eq h, Outcome.map_eq_ok_iff, ← run_eq_ok_iff (inStep_start mid (by omega)).index_le]
  refine ⟨fun hread => ?_, fun hrun => ⟨_, hrun, rfl⟩⟩
  obtain ⟨⟨slots, behind'⟩, hrun, hpair⟩ := hread
  cases hpair
  exact hrun

theorem read_eq_error_iff {e : DecodeError} (h : Cursor.u16 c = .ok (count, mid)) :
    read texts c = .error e ↔
      ∃ s, Reaches texts (max count.toNat 1) (start mid) s ∧
        s.Stops texts (max count.toNat 1) e := by
  rw [read_eq h, Outcome.map_eq_error_iff]
  exact run_eq_error_iff (inStep_start mid (by omega)).index_le

/-- In a regular pool a slot is empty exactly if it is the first one or the slot in front of it
    holds an entry that takes two. -/
theorem IsRegular.empty_iff (h : pool.IsRegular) (i : Nat) :
    pool.slots[i]? = some none ↔
      i = 0 ∨ ∃ j e, i = j + 1 ∧ pool.slots[j]? = some (some e) ∧ e.isWide = true := by
  cases i with
  | zero => exact ⟨fun _ => .inl rfl, fun _ => h.first⟩
  | succ j =>
    refine ⟨fun hslot => ?_, fun hbehind => ?_⟩
    · obtain ⟨hlt, _⟩ := Array.getElem?_eq_some_iff.1 hslot
      obtain ⟨e, he, hwide⟩ := (h.behind j hlt).1 hslot
      exact .inr ⟨j, e, rfl, he, hwide⟩
    · obtain hzero | ⟨_, e, hj, he, hwide⟩ := hbehind
      · exact nomatch hzero
      · cases hj
        obtain ⟨hlt, _⟩ := Array.getElem?_eq_some_iff.1 he
        refine (h.behind _ ?_).2 ⟨e, he, hwide⟩
        -- an entry in the last slot is not wide
        by_contra hlast
        have hback : pool.slots.back? = some (some e) := by
          rw [Array.back?_eq_getElem?, ← he]
          congr 1
          unfold count at hlast
          omega
        rw [h.last e hback] at hwide
        exact Bool.false_ne_true hwide

/-- What holds of a pool that is read behind a stored count. -/
structure Represents (count : Nat) (pool : ConstantPool) : Prop where
  /-- A count of zero stands for one. -/
  count_eq : pool.count = max count 1
  empty_iff : ∀ i, pool.slots[i]? = some none ↔
    i = 0 ∨ ∃ j e, i = j + 1 ∧ pool.slots[j]? = some (some e) ∧ e.isWide = true
  last : ∀ e, pool.slots.back? = some (some e) → e.isWide = false
  get_iff : ∀ index e, pool.get index = .ok e ↔ (index, e) ∈ pool.entries
  get_missing : ∀ index, (∀ e, (index, e) ∉ pool.entries) →
    pool.get index = .error (.indexOutOfRange index.toNat)
  ascending : pool.entries.Pairwise (fun a b => a.1 < b.1)
  /-- The indices of the entries are the numbers of their slots and not cut to two bytes. -/
  uncut : pool.entries.map (fun p => (p.1.toNat, p.2)) = pool.numbered

theorem represents_of_read (h : Cursor.u16 c = .ok (count, mid))
    (hread : read texts c = .ok (pool, behind)) : pool.Represents count.toNat := by
  obtain ⟨_, _, hregular, _⟩ := (reads c pool behind).1 hread
  have hcount : pool.count ≤ 65536 := Nat.le_of_lt hregular.count_lt
  have hget : ∀ index e, pool.get index = .ok e ↔ (index, e) ∈ pool.entries :=
    fun index e => get_eq_ok_iff.trans (mem_entries_iff hcount).symm
  refine ⟨?_, hregular.empty_iff, hregular.last, hget, fun index hmissing => ?_,
    entries_ascending hcount, map_toNat_entries hcount⟩
  · have hend := inStep_of_reaches ((read_eq_ok_iff h).1 hread) (inStep_start mid (by omega))
    exact hend.index_eq.symm
  · refine get_eq_error_iff.2 ⟨Option.eq_none_iff_forall_ne_some.2 fun e he => ?_, rfl⟩
    exact hmissing e ((mem_entries_iff hcount).2 he)

/-- Entries of which the last one takes two slots where one is left are not a pool. -/
theorem read_of_overrun {row : List Entry} {last : Entry} {x y : List UInt8} {between : Cursor}
    (h : Cursor.u16 c = .ok (count, mid)) (hrow : Layout.rows (Entry.layout texts) row x)
    (hx : mid.Passes x between) (hlast : Entry.layout texts last y) (hy : between.Passes y behind)
    (hwide : last.isWide = true) (hcount : 1 + (row.flatMap slotsOf).length + 1 = count.toNat) :
    read texts c = .error (.indexOutOfRange count.toNat) := by
  have hmax : max count.toNat 1 = count.toNat := by omega
  have hroom : (start mid).index + (row.flatMap slotsOf).length ≤ count.toNat := by
    show 1 + _ ≤ _
    omega
  obtain ⟨slots, hreach⟩ := reaches_of_rows hrow hx hroom
  have hread : Entry.read texts (1 + (row.flatMap slotsOf).length) between = .ok (last, behind) :=
    (Entry.reads _ between last behind).2 ⟨y, hy, hlast⟩
  rw [read_eq_error_iff h, hmax]
  exact ⟨_, hreach, .overrun hcount hread hwide⟩

/-- **What holds of every pool that is read.** Behind a count the slots, the entries and the
    look-ups agree with each other; a wide entry that starts in the last slot makes the pool refused
    for the slot behind it; the outcome is told by the rounds, and none of them needs an index above
    the count, so two bytes hold every index. -/
theorem read_invariant (texts : TextReader) (h : Cursor.u16 c = .ok (count, mid)) :
    (∀ pool behind, read texts c = .ok (pool, behind) → pool.Represents count.toNat) ∧
    (∀ row last x y between behind, Layout.rows (Entry.layout texts) row x → mid.Passes x between →
      Entry.layout texts last y → between.Passes y behind → last.isWide = true →
      1 + (row.flatMap slotsOf).length + 1 = count.toNat →
      read texts c = .error (.indexOutOfRange count.toNat)) ∧
    (∀ pool behind, read texts c = .ok (pool, behind) ↔
      Reaches texts (max count.toNat 1) (start mid) ⟨max count.toNat 1, pool.slots, behind⟩) ∧
    (∀ e, read texts c = .error e ↔
      ∃ s, Reaches texts (max count.toNat 1) (start mid) s ∧ s.Stops texts (max count.toNat 1) e) ∧
    max count.toNat 1 < 65536 ∧
    ∀ s, Reaches texts (max count.toNat 1) (start mid) s →
      s.index = s.slots.size ∧ s.index ≤ max count.toNat 1 ∧
        (UInt16.ofNat s.index).toNat = s.index := by
  have hlt : max count.toNat 1 < 65536 := Nat.max_lt.2 ⟨count.toNat_lt, by decide⟩
  refine ⟨fun _ _ hread => represents_of_read h hread, fun _ _ _ _ _ _ hrow hx hlast hy hwide hn =>
    read_of_overrun h hrow hx hlast hy hwide hn, fun _ _ => read_eq_ok_iff h,
    fun _ => read_eq_error_iff h, hlt, fun s hreach => ?_⟩
  obtain ⟨hindex, hle⟩ := inStep_of_reaches hreach (inStep_start mid (by omega))
  exact ⟨hindex, hle, UInt16.toNat_ofNat_of_lt' (Nat.lt_of_le_of_lt hle hlt)⟩

/-- A pool that starts with a long integer, which takes the slots 1 and 2. -/
def longFirst : Cursor :=
  Cursor.ofBytes [0, 5, 5, 0, 0, 0, 0, 0, 0, 0, 42, 1, 0, 1, 120, 7, 0, 3] 0

/-- A text and behind it a number that takes two slots, where the count leaves one. -/
def doubleLast : Cursor := Cursor.ofBytes [0, 3, 1, 0, 1, 120, 6, 0, 0, 0, 0, 0, 0, 0, 0] 0

theorem read_invariant_longFirst :
    (∃ pool behind, read Text.text? longFirst = .ok (pool, behind) ∧ pool.Represents 5 ∧
      pool.entries.map Prod.fst = [1, 3, 4] ∧ pool.get 2 = .error (.indexOutOfRange 2)) ∧
    read Text.text? doubleLast = .error (.indexOutOfRange 3) := by
  refine ⟨⟨_, _, rfl, ?_, rfl, rfl⟩, ?_⟩
  · have hcount : Cursor.u16 longFirst = .ok (5, longFirst.advance 2) := rfl
    exact (read_invariant Text.text? hcount).1 _ _ rfl
  · have htext : Entry.layout Text.text? (.utf8 "x") [1, 0, 1, 120] :=
      ⟨trivial, [120], ⟨by decide, rfl⟩, rfl⟩
    have hnumber : Entry.layout Text.text? (.double 0) [6, 0, 0, 0, 0, 0, 0, 0, 0] :=
      ⟨trivial, [], trivial, rfl⟩
    have hcount : Cursor.u16 doubleLast = .ok (3, doubleLast.advance 2) := rfl
    exact (read_invariant Text.text? hcount).2.1 [.utf8 "x"] (.double 0) _ _ (doubleLast.advance 6)
      (doubleLast.advance 15) ⟨_, [], htext, rfl, rfl⟩ ⟨rfl, rfl, rfl⟩ hnumber ⟨rfl, rfl, rfl⟩
      rfl rfl

end ConstantPool

end ClassView
