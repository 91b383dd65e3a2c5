import ClassView.Bytes.Cursor
import Mathlib.Data.List.Forall2

/-!
# Layouts and the readers that keep to them

A `Layout` says as which byte strings a value can be stored. A reader *keeps to* a layout at a
cursor (`Reads`) if it succeeds there exactly when the bytes ahead start with a stored form of some
value, and then answers that value and stands behind that form. Both directions are in the one
statement: what is stored is read back, and what is read was stored.

* `Cursor.Passes`: one cursor stands behind another, with given bytes between them;
* `Layout.fixed`, `Layout.rows`, `Layout.table`, `Layout.bind`: layouts put together;
* `Layout.formed`: values that can be written in several forms;
* **`Reads.bind`**, **`Reads.times`**, **`Reads.table`**: readers in a row keep to the layouts in a
  row;
* **`Reads.whole`**: a reader that must use up a string takes the stored forms as a whole;
* `Reads.u8` to `Reads.i64`: numbers are stored big-endian.
-/

namespace ClassView

/-! ## 1. Bytes between two cursors -/

/-- The cursor `c'` stands behind `c`, with `bytes` between them. -/
structure Cursor.Passes (c : Cursor) (bytes : List UInt8) (c' : Cursor) : Prop where
  rest : c.rest = bytes ++ c'.rest
  position : c'.position = c.position + bytes.length
  base : c'.base = c.base

namespace Cursor

variable {c c' mid : Cursor} {x y bytes : List UInt8}

theorem Passes.refl (c : Cursor) : c.Passes [] c := ⟨rfl, rfl, rfl⟩

theorem Passes.trans (hx : c.Passes x mid) (hy : mid.Passes y c') : c.Passes (x ++ y) c' where
  rest := by rw [hx.rest, hy.rest, List.append_assoc]
  position := by rw [hy.position, hx.position, List.length_append, Nat.add_assoc]
  base := hy.base.trans hx.base

/-- Passing over two parts stops between them. -/
theorem Passes.split (h : c.Passes (x ++ y) c') : ∃ mid, c.Passes x mid ∧ mid.Passes y c' := by
  refine ⟨⟨y ++ c'.rest, c.position + x.length, c.base⟩, ⟨?_, rfl, rfl⟩, ⟨rfl, ?_, h.base⟩⟩
  · rw [h.rest, List.append_assoc]
  · rw [h.position, List.length_append, Nat.add_assoc]

/-- Where a cursor stands behind given bytes is settled by the bytes. -/
theorem Passes.unique (h : c.Passes x mid) (h' : c.Passes x c') : mid = c' := by
  obtain ⟨rest, position, base⟩ := mid
  obtain ⟨rest', position', base'⟩ := c'
  have hrest : rest = rest' := List.append_cancel_left (h.rest.symm.trans h'.rest)
  have hposition : position = position' := h.position.trans h'.position.symm
  have hbase : base = base' := h.base.trans h'.base.symm
  rw [hrest, hposition, hbase]

theorem Passes.remaining (h : c.Passes x c') : c.remaining = x.length + c'.remaining := by
  rw [Cursor.remaining, h.rest, List.length_append]
  rfl

theorem Passes.remaining_le (h : c.Passes x c') : c'.remaining ≤ c.remaining := by
  rw [h.remaining]
  exact Nat.le_add_left _ _

theorem Passes.of_nil (h : c.Passes [] c') : c' = c := Passes.unique h (Passes.refl c)

/-- Behind the first `n` of enough bytes. -/
theorem passes_advance {n : Nat} (h : n ≤ c.remaining) :
    c.Passes (c.rest.take n) (c.advance n) where
  rest := (List.take_append_drop n c.rest).symm
  position := by rw [List.length_take_of_le h]; rfl
  base := rfl

theorem Passes.eq_advance (h : c.Passes x c') : c' = c.advance x.length := by
  have hlen : x.length ≤ c.remaining := by rw [h.remaining]; exact Nat.le_add_right _ _
  have htake : c.rest.take x.length = x := by rw [h.rest, List.take_left]
  have hadvance := passes_advance hlen
  rw [htake] at hadvance
  exact Passes.unique h hadvance

/-- A cursor in front of a string passes over all of it exactly when nothing is left. -/
theorem passes_ofBytes_iff {base : Nat} (h : (ofBytes bytes base).Passes x c') :
    c'.isEmpty = true ↔ x = bytes := by
  have hrest : bytes = x ++ c'.rest := h.rest
  rw [Cursor.isEmpty, List.isEmpty_iff, hrest]
  refine ⟨?_, ?_⟩
  · intro hnil
    rw [hnil, List.append_nil]
  · intro hx
    exact List.append_cancel_left (hx.symm.trans (List.append_nil x).symm)

end Cursor

/-! ## 2. Layouts -/

/-- As which byte strings a value can be stored. -/
abbrev Layout (α : Type) : Type := α → List UInt8 → Prop

namespace Layout

variable {α β : Type}

/-- Every value has one stored form. -/
def fixed (write : α → List UInt8) : Layout α := fun a bytes => bytes = write a

/-- One value, stored in no bytes. -/
def only (a : α) : Layout α := fun b bytes => b = a ∧ bytes = []

/-- Bytes without a meaning. -/
def gap (size : Nat) : Layout Unit := fun _ bytes => bytes.length = size

/-- A value and behind it another one, whose layout depends on the first. -/
def bind (first : Layout α) (next : α → Layout β) : Layout β :=
  fun b bytes => ∃ a x y, first a x ∧ next a b y ∧ bytes = x ++ y

/-- Values one after the other. -/
def rows (item : Layout α) : Layout (List α)
  | [], bytes => bytes = []
  | a :: as, bytes => ∃ x y, item a x ∧ rows item as y ∧ bytes = x ++ y

theorem bind_only_iff {first : Layout α} {f : α → β} {b : β} {bytes : List UInt8} :
    bind first (fun a => only (f a)) b bytes ↔ ∃ a, b = f a ∧ first a bytes := by
  refine ⟨?_, ?_⟩
  · intro hgiven
    rcases hgiven with ⟨a, x, y, hx, ⟨rfl, rfl⟩, rfl⟩
    exact ⟨a, rfl, by rwa [List.append_nil]⟩
  · intro hgiven
    rcases hgiven with ⟨a, rfl, h⟩
    exact ⟨a, bytes, [], h, ⟨rfl, rfl⟩, (List.append_nil _).symm⟩

theorem bind_fixed_iff {write : α → List UInt8} {next : α → Layout β} {b : β}
    {bytes : List UInt8} :
    bind (fixed write) next b bytes ↔ ∃ a y, next a b y ∧ bytes = write a ++ y := by
  refine ⟨?_, ?_⟩
  · intro hgiven
    rcases hgiven with ⟨a, x, y, rfl, hy, rfl⟩
    exact ⟨a, y, hy, rfl⟩
  · intro hgiven
    rcases hgiven with ⟨a, y, hy, rfl⟩
    exact ⟨a, write a, y, rfl, hy, rfl⟩

theorem bind_gap_iff {size : Nat} {next : Unit → Layout β} {b : β} {bytes : List UInt8} :
    bind (gap size) next b bytes ↔ ∃ x y, x.length = size ∧ next () b y ∧ bytes = x ++ y :=
  ⟨fun ⟨_, x, y, h⟩ => ⟨x, y, h⟩, fun ⟨x, y, h⟩ => ⟨(), x, y, h⟩⟩

/-- Values of one stored form each are stored as these forms in a row. -/
theorem rows_fixed_iff {write : α → List UInt8} {as : List α} {bytes : List UInt8} :
    rows (fixed write) as bytes ↔ bytes = as.flatMap write := by
  induction as generalizing bytes with
  | nil => exact Iff.rfl
  | cons a as ih =>
    rw [List.flatMap_cons]
    refine ⟨?_, ?_⟩
    · intro hgiven
      rcases hgiven with ⟨x, y, rfl, hy, rfl⟩
      rw [ih.1 hy]
    · rintro rfl
      exact ⟨write a, as.flatMap write, rfl, ih.2 rfl, rfl⟩

/-- A count of two bytes and as many items behind it. -/
def table (item : Layout α) : Layout (List α) := fun as bytes =>
  as.length < 65536 ∧ ∃ items, rows item as items ∧
    bytes = BigEndian.toBytes 2 as.length ++ items

/-- Values of one stored form each, behind their number. -/
def tableBytes (write : α → List UInt8) (as : List α) : List UInt8 :=
  BigEndian.toBytes 2 as.length ++ as.flatMap write

theorem table_fixed_iff {write : α → List UInt8} {as : List α} {bytes : List UInt8} :
    table (fixed write) as bytes ↔ as.length < 65536 ∧ bytes = tableBytes write as := by
  unfold table
  refine and_congr_right fun _ => ⟨?_, ?_⟩
  · intro h
    obtain ⟨items, hrows, hbytes⟩ := h
    rw [hbytes, rows_fixed_iff.1 hrows, tableBytes]
  · intro h
    exact ⟨as.flatMap write, rows_fixed_iff.2 rfl, h⟩

/-- Items of one size each. -/
theorem length_flatMap {write : α → List UInt8} {size : Nat} (h : ∀ a, (write a).length = size)
    (as : List α) : (as.flatMap write).length = size * as.length := by
  induction as with
  | nil => rfl
  | cons a as ih =>
    rw [List.flatMap_cons, List.length_append, h, ih, List.length_cons, Nat.mul_succ, Nat.add_comm]

/-- A table of items of one size each. -/
theorem length_tableBytes {write : α → List UInt8} {size : Nat} (h : ∀ a, (write a).length = size)
    (as : List α) : (tableBytes write as).length = 2 + size * as.length := by
  rw [tableBytes, List.length_append, BigEndian.length_toBytes, length_flatMap h]

variable {φ : Type} {rule : α → Prop} {fits : φ → α → Prop} {write : φ → α → List UInt8}

/-- A value that keeps a rule, written in one of the forms that fit it. -/
def formed (rule : α → Prop) (fits : φ → α → Prop) (write : φ → α → List UInt8) : Layout α :=
  fun a bytes => rule a ∧ ∃ form, fits form a ∧ bytes = write form a

/-- Values one after the other, each in a form of its own. -/
def rowBytes (write : φ → α → List UInt8) (forms : List φ) (as : List α) : List UInt8 :=
  (List.zipWith write forms as).flatten

/-- Values in several forms are stored with one form for each. -/
theorem rows_formed_iff {as : List α} {bytes : List UInt8} :
    rows (formed rule fits write) as bytes ↔
      (∀ a ∈ as, rule a) ∧ ∃ forms, List.Forall₂ fits forms as ∧
        bytes = rowBytes write forms as := by
  induction as generalizing bytes with
  | nil =>
    refine ⟨fun h => ?_, fun h => ?_⟩
    · exact ⟨fun _ ha => absurd ha List.not_mem_nil, [], .nil, h⟩
    · obtain ⟨_, forms, hfits, hbytes⟩ := h
      cases hfits
      exact hbytes
  | cons a as ih =>
    refine ⟨fun h => ?_, fun h => ?_⟩
    · obtain ⟨x, y, ⟨ha, form, hform, hx⟩, hrest, hbytes⟩ := h
      obtain ⟨has, forms, hforms, hy⟩ := ih.1 hrest
      refine ⟨List.forall_mem_cons.2 ⟨ha, has⟩, form :: forms, .cons hform hforms, ?_⟩
      rw [hbytes, hx, hy]
      rfl
    · obtain ⟨hrule, forms, hforms, hbytes⟩ := h
      obtain ⟨ha, has⟩ := List.forall_mem_cons.1 hrule
      cases hforms with
      | cons hform hforms =>
        exact ⟨_, _, ⟨ha, _, hform, rfl⟩, ih.2 ⟨has, _, hforms, rfl⟩, hbytes⟩

/-- Values with a form each, behind their number. -/
def formTableBytes (write : φ → α → List UInt8) (forms : List φ) (as : List α) : List UInt8 :=
  BigEndian.toBytes 2 as.length ++ rowBytes write forms as

theorem table_formed_iff {as : List α} {bytes : List UInt8} :
    table (formed rule fits write) as bytes ↔
      (as.length < 65536 ∧ ∀ a ∈ as, rule a) ∧ ∃ forms, List.Forall₂ fits forms as ∧
        bytes = formTableBytes write forms as := by
  unfold table
  refine ⟨fun h => ?_, fun h => ?_⟩
  · obtain ⟨hlt, items, hrows, rfl⟩ := h
    obtain ⟨hall, forms, hforms, rfl⟩ := rows_formed_iff.1 hrows
    exact ⟨⟨hlt, hall⟩, forms, hforms, rfl⟩
  · obtain ⟨⟨hlt, hall⟩, forms, hforms, rfl⟩ := h
    exact ⟨hlt, _, rows_formed_iff.2 ⟨hall, forms, hforms, rfl⟩, rfl⟩

end Layout

/-! ## 3. Readers that keep to a layout -/

/-- At the cursor `c`, the reader takes just the stored forms of the layout, and answers what is
    stored there. -/
def Reads {α : Type} (read : Read α) (layout : Layout α) (c : Cursor) : Prop :=
  ∀ a c', read c = .ok (a, c') ↔ ∃ bytes, c.Passes bytes c' ∧ layout a bytes

namespace Reads

variable {α β : Type} {read : Read α} {layout : Layout α} {c : Cursor}

theorem congr {layout' : Layout α} (h : Reads read layout c)
    (hl : ∀ a bytes, layout a bytes ↔ layout' a bytes) : Reads read layout' c := by
  intro a c'
  rw [h a c']
  exact exists_congr fun bytes => and_congr_right fun _ => hl a bytes

theorem pure (a : α) (c : Cursor) : Reads (Pure.pure a) (Layout.only a) c := by
  intro b c'
  rw [Cursor.pure_apply]
  refine ⟨?_, ?_⟩
  · intro h
    cases h
    exact ⟨[], Cursor.Passes.refl c, rfl, rfl⟩
  · intro hgiven
    rcases hgiven with ⟨bytes, hpass, rfl, rfl⟩
    rw [hpass.of_nil]

theorem throw (e : DecodeError) (c : Cursor) :
    Reads (MonadExcept.throw e : Read α) (fun _ _ => False) c := by
  intro a c'
  refine ⟨?_, ?_⟩
  · intro h
    exact nomatch h
  · intro hgiven
    rcases hgiven with ⟨_, _, h⟩
    exact h.elim

/-- **Readers in a row keep to the layouts in a row.** -/
theorem bind {next : α → Read β} {layouts : α → Layout β} (h : Reads read layout c)
    (hnext : ∀ a x mid, c.Passes x mid → layout a x → Reads (next a) (layouts a) mid) :
    Reads (read >>= next) (layout.bind layouts) c := by
  intro b c'
  rw [Cursor.bind_eq_ok_iff]
  refine ⟨?_, ?_⟩
  · intro hgiven
    rcases hgiven with ⟨a, mid, hread, hb⟩
    obtain ⟨x, hx, ha⟩ := (h a mid).1 hread
    obtain ⟨y, hy, hb⟩ := (hnext a x mid hx ha b c').1 hb
    exact ⟨x ++ y, hx.trans hy, a, x, y, ha, hb, rfl⟩
  · intro hgiven
    rcases hgiven with ⟨_, hpass, a, x, y, ha, hb, rfl⟩
    obtain ⟨mid, hx, hy⟩ := hpass.split
    exact ⟨a, mid, (h a mid).2 ⟨x, hx, ha⟩, (hnext a x mid hx ha b c').2 ⟨y, hy, hb⟩⟩

theorem map (f : α → β) (h : Reads read layout c) :
    Reads (f <$> read) (fun b bytes => ∃ a, b = f a ∧ layout a bytes) c := by
  have hmap : Reads (read >>= fun a => Pure.pure (f a)) _ c :=
    h.bind fun a _ mid _ _ => Reads.pure (f a) mid
  exact hmap.congr fun _ _ => Layout.bind_only_iff

/-- A value that is read through an invertible function. -/
theorem map_inverse {f : α → β} {g : β → α} (hfg : ∀ b, f (g b) = b) (hgf : ∀ a, g (f a) = a)
    (h : Reads read layout c) : Reads (f <$> read) (fun b => layout (g b)) c := by
  refine (h.map f).congr fun b bytes => ⟨?_, fun hb => ⟨g b, (hfg b).symm, hb⟩⟩
  intro hgiven
  rcases hgiven with ⟨a, rfl, ha⟩
  rwa [hgf]

/-- A test that stops the reader restricts the layout. -/
theorem guard {bad : Prop} [Decidable bad] {e : DecodeError} {next : Unit → Read α}
    (h : ¬ bad → Reads (next ()) layout c) :
    Reads (if bad then MonadExcept.throw e >>= next else next ())
      (fun a bytes => ¬ bad ∧ layout a bytes) c := by
  by_cases hbad : bad
  · rw [if_pos hbad]
    intro a c'
    refine ⟨?_, ?_⟩
    · intro hok
      exact nomatch hok
    · intro hgiven
      rcases hgiven with ⟨_, _, hnot, _⟩
      exact absurd hbad hnot
  · rw [if_neg hbad]
    refine (h hbad).congr fun a bytes => ⟨fun ha => ⟨hbad, ha⟩, fun ha => ha.2⟩

/-- Asking for the cursor takes nothing. -/
theorem get {next : Cursor → Read α} (h : Reads (next c) layout c) :
    Reads (MonadState.get >>= next) layout c := h

/-- A look-up beside the bytes takes nothing. -/
theorem lift {x : Outcome β} {next : β → Read α} {layouts : β → Layout α}
    (h : ∀ b, x = .ok b → Reads (next b) (layouts b) c) :
    Reads ((liftM x : Read β) >>= next) (fun a bytes => ∃ b, x = .ok b ∧ layouts b a bytes) c := by
  intro a c'
  cases x with
  | error e =>
    refine ⟨?_, ?_⟩
    · intro hok
      exact nomatch hok
    · intro hgiven
      rcases hgiven with ⟨_, _, b, hb, _⟩
      exact nomatch hb
  | ok b =>
    have hstep : ((liftM (Except.ok b : Outcome β) : Read β) >>= next) c = next b c := rfl
    rw [hstep, h b rfl a c']
    refine exists_congr fun bytes => and_congr_right fun _ => ⟨fun ha => ⟨b, rfl, ha⟩, ?_⟩
    intro hgiven
    rcases hgiven with ⟨b', hb', ha⟩
    cases hb'
    exact ha

/-- A look-up alone takes nothing. -/
theorem lift_only (x : Outcome α) (c : Cursor) :
    Reads (liftM x : Read α) (fun a bytes => x = .ok a ∧ bytes = []) c := by
  intro a c'
  cases x with
  | error e =>
    refine ⟨?_, ?_⟩
    · intro hok
      exact nomatch hok
    · intro hgiven
      rcases hgiven with ⟨_, _, hb, _⟩
      exact nomatch hb
  | ok b =>
    have hstep : (liftM (Except.ok b : Outcome α) : Read α) c = .ok (b, c) := rfl
    rw [hstep]
    refine ⟨?_, ?_⟩
    · intro hok
      cases hok
      exact ⟨[], Cursor.Passes.refl c, rfl, rfl⟩
    · intro hgiven
      rcases hgiven with ⟨_, hpass, hb, rfl⟩
      cases hb
      rw [hpass.of_nil]

/-- A reader that must use up a byte string takes the stored forms as a whole, whatever the faults
    of the others are. -/
theorem whole {bytes : List UInt8} {base : Nat} {outcome : Outcome α} {a : α}
    (h : Reads read layout (Cursor.ofBytes bytes base)) (left : Cursor → DecodeError)
    (hok : ∀ a behind, read (Cursor.ofBytes bytes base) = .ok (a, behind) →
      outcome = if behind.isEmpty then .ok a else .error (left behind))
    (herror : ∀ e, read (Cursor.ofBytes bytes base) = .error e → ∃ e', outcome = .error e') :
    outcome = .ok a ↔ layout a bytes := by
  refine ⟨fun houtcome => ?_, fun ha => ?_⟩
  · cases hread : read (Cursor.ofBytes bytes base) with
    | error e =>
      obtain ⟨e', he⟩ := herror e hread
      exact nomatch he.symm.trans houtcome
    | ok p =>
      obtain ⟨a', behind⟩ := p
      obtain ⟨x, hpass, hx⟩ := (h a' behind).1 hread
      rw [hok a' behind hread] at houtcome
      by_cases hempty : behind.isEmpty = true
      · rw [if_pos hempty] at houtcome
        cases houtcome
        rwa [(Cursor.passes_ofBytes_iff hpass).1 hempty] at hx
      · rw [if_neg hempty] at houtcome
        exact nomatch houtcome
  · have hpass := Cursor.passes_advance (Nat.le_refl (Cursor.ofBytes bytes base).remaining)
    have htake : (Cursor.ofBytes bytes base).rest.take
        (Cursor.ofBytes bytes base).remaining = bytes := List.take_length
    rw [htake] at hpass
    rw [hok a _ ((h a _).2 ⟨bytes, hpass, ha⟩),
      if_pos ((Cursor.passes_ofBytes_iff hpass).2 rfl)]

/-- A value made of two parts, of one stored form each. -/
theorem pair {γ : Type} {readA : Read α} {readB : Read β} {writeA : α → List UInt8}
    {writeB : β → List UInt8} (make : α → β → γ) (c : Cursor)
    (ha : ∀ mid, Reads readA (Layout.fixed writeA) mid)
    (hb : ∀ mid, Reads readB (Layout.fixed writeB) mid) :
    Reads (readA >>= fun a => readB >>= fun b => Pure.pure (make a b))
      (fun g bytes => ∃ a b, g = make a b ∧ bytes = writeA a ++ writeB b) c := by
  have h : Reads (readA >>= fun a => readB >>= fun b => Pure.pure (make a b)) _ c :=
    (ha c).bind fun a _ mid _ _ => (hb mid).bind fun b _ behind _ _ => Reads.pure (make a b) behind
  refine h.congr fun g bytes => ?_
  simp only [Layout.bind_fixed_iff, Layout.bind_only_iff, Layout.fixed]
  refine exists_congr fun a => ⟨fun h => ?_, fun h => ?_⟩
  · obtain ⟨_, ⟨b, hg, rfl⟩, hbytes⟩ := h
    exact ⟨b, hg, hbytes⟩
  · obtain ⟨b, hg, hbytes⟩ := h
    exact ⟨writeB b, ⟨b, hg, rfl⟩, hbytes⟩

/-! ## 4. Bytes and numbers -/

theorem take (n : Nat) (c : Cursor) :
    Reads (Cursor.take n) (fun taken bytes => taken = bytes ∧ bytes.length = n) c := by
  intro taken c'
  rw [Cursor.take_eq_ok_iff]
  refine ⟨?_, ?_⟩
  · intro hgiven
    rcases hgiven with ⟨hn, rfl, rfl⟩
    exact ⟨_, Cursor.passes_advance hn, rfl, List.length_take_of_le hn⟩
  · intro hgiven
    rcases hgiven with ⟨bytes, hpass, rfl, rfl⟩
    refine ⟨?_, ?_, hpass.eq_advance⟩
    · rw [hpass.remaining]
      exact Nat.le_add_right _ _
    · rw [hpass.rest, List.take_left]

theorem skip (n : Nat) (c : Cursor) :
    Reads (Cursor.skip n) (Layout.gap n) c := by
  have h : Reads (Cursor.take n >>= fun _ => Pure.pure ()) _ c :=
    (take n c).bind fun _ _ mid _ _ => Reads.pure () mid
  refine h.congr fun _ bytes => ⟨?_, fun hlen => ?_⟩
  · intro hgiven
    rcases hgiven with ⟨_, x, _, ⟨_, hlen⟩, ⟨_, rfl⟩, rfl⟩
    rwa [List.append_nil]
  · exact ⟨bytes, bytes, [], ⟨rfl, hlen⟩, ⟨rfl, rfl⟩, (List.append_nil _).symm⟩

/-- Asking for bytes that the reader behind takes anyway changes nothing. -/
theorem expect {n : Nat} {next : Unit → Read α} (h : Reads (next ()) layout c)
    (hn : ∀ a bytes, layout a bytes → n ≤ bytes.length) :
    Reads (Cursor.expect n >>= next) layout c := by
  intro a c'
  rw [Cursor.bind_apply, Cursor.expect]
  by_cases hholds : c.holds n = true
  · rw [if_pos hholds]
    exact h a c'
  · rw [if_neg hholds]
    refine ⟨?_, ?_⟩
    · intro hok
      exact nomatch hok
    · intro hgiven
      rcases hgiven with ⟨bytes, hpass, ha⟩
      have hle : n ≤ c.remaining := by
        rw [hpass.remaining]
        exact Nat.le_trans (hn a bytes ha) (Nat.le_add_right _ _)
      exact absurd ((c.holds_iff n).2 hle) hholds

theorem unsigned (width : Nat) (c : Cursor) :
    Reads (Cursor.unsigned width)
      (fun n bytes => n < BigEndian.capacity width ∧ bytes = BigEndian.toBytes width n) c := by
  refine ((take width c).map BigEndian.ofBytes).congr fun n bytes => ⟨?_, ?_⟩
  · intro hgiven
    rcases hgiven with ⟨_, rfl, rfl, rfl⟩
    exact ⟨BigEndian.ofBytes_lt _, (BigEndian.toBytes_ofBytes _).symm⟩
  · intro hgiven
    rcases hgiven with ⟨hn, rfl⟩
    exact ⟨_, (BigEndian.ofBytes_toBytes width n hn).symm, rfl, BigEndian.length_toBytes width n⟩

/-- A word of `width` bytes is stored as the number that it is. -/
theorem word {width : Nat} {toNat : α → Nat} {ofNat : Nat → α} (c : Cursor)
    (hlt : ∀ a, toNat a < BigEndian.capacity width) (hto : ∀ a, ofNat (toNat a) = a)
    (hof : ∀ n, n < BigEndian.capacity width → toNat (ofNat n) = n) :
    Reads (ofNat <$> Cursor.unsigned width)
      (Layout.fixed fun a => BigEndian.toBytes width (toNat a)) c := by
  refine ((unsigned width c).map ofNat).congr fun a bytes => ⟨?_, ?_⟩
  · intro hgiven
    rcases hgiven with ⟨n, rfl, hn, rfl⟩
    rw [Layout.fixed, hof n hn]
  · intro h
    exact ⟨toNat a, (hto a).symm, hlt a, h⟩

end Reads

/-- A byte, stored as itself. -/
def BigEndian.u8 (v : UInt8) : List UInt8 := [v]

/-- An unsigned number in two bytes. -/
def BigEndian.u16 (v : UInt16) : List UInt8 := toBytes 2 v.toNat

/-- An unsigned number in four bytes. -/
def BigEndian.u32 (v : UInt32) : List UInt8 := toBytes 4 v.toNat

/-- An unsigned number in eight bytes. -/
def BigEndian.u64 (v : UInt64) : List UInt8 := toBytes 8 v.toNat

/-- A number of one byte in two's complement. -/
def BigEndian.i8 (v : Int8) : List UInt8 := u8 v.toUInt8

/-- A number of two bytes in two's complement. -/
def BigEndian.i16 (v : Int16) : List UInt8 := u16 v.toUInt16

/-- A number of four bytes in two's complement. -/
def BigEndian.i32 (v : Int32) : List UInt8 := u32 v.toUInt32

/-- A number of eight bytes in two's complement. -/
def BigEndian.i64 (v : Int64) : List UInt8 := u64 v.toUInt64

namespace BigEndian

@[simp] theorem length_u8 (v : UInt8) : (u8 v).length = 1 := rfl

@[simp] theorem length_u16 (v : UInt16) : (u16 v).length = 2 := length_toBytes 2 _

@[simp] theorem length_u32 (v : UInt32) : (u32 v).length = 4 := length_toBytes 4 _

@[simp] theorem length_u64 (v : UInt64) : (u64 v).length = 8 := length_toBytes 8 _

@[simp] theorem length_i8 (v : Int8) : (i8 v).length = 1 := rfl

@[simp] theorem length_i16 (v : Int16) : (i16 v).length = 2 := length_u16 _

@[simp] theorem length_i32 (v : Int32) : (i32 v).length = 4 := length_u32 _

@[simp] theorem length_i64 (v : Int64) : (i64 v).length = 8 := length_u64 _

end BigEndian

/-- Reading one item more, as two readers in a row. -/
theorem Cursor.times_succ_bind {α : Type} (count : Nat) (item : Read α) :
    times (count + 1) item = item >>= fun a => (a :: ·) <$> times count item := by
  funext c
  rw [times_succ, bind_apply]
  cases item c with
  | error e => rfl
  | ok p =>
    have hmap : ((p.1 :: ·) <$> times count item) p.2 =
        (times count item p.2 >>= fun q => Except.ok (p.1 :: q.1, q.2)) := rfl
    simp only
    rw [hmap]
    cases times count item p.2 <;> rfl

namespace Reads

theorem u8 (c : Cursor) : Reads Cursor.u8 (Layout.fixed BigEndian.u8) c := by
  have h : Reads Cursor.u8 (Layout.fixed fun v => BigEndian.toBytes 1 v.toNat) c :=
    word c (fun v => v.toNat_lt) (fun _ => UInt8.ofNat_toNat)
      (fun _ hn => UInt8.toNat_ofNat_of_lt' hn)
  refine h.congr fun v bytes => ?_
  have hbyte : BigEndian.toBytes 1 v.toNat = [v] := by
    have := BigEndian.toBytes_ofBytes [v]
    rwa [BigEndian.ofBytes_singleton] at this
  rw [Layout.fixed, Layout.fixed, hbyte, BigEndian.u8]

theorem u16 (c : Cursor) : Reads Cursor.u16 (Layout.fixed BigEndian.u16) c :=
  word c (fun v => v.toNat_lt) (fun _ => UInt16.ofNat_toNat)
    (fun _ hn => UInt16.toNat_ofNat_of_lt' hn)

theorem u32 (c : Cursor) : Reads Cursor.u32 (Layout.fixed BigEndian.u32) c :=
  word c (fun v => v.toNat_lt) (fun _ => UInt32.ofNat_toNat)
    (fun _ hn => UInt32.toNat_ofNat_of_lt' hn)

theorem u64 (c : Cursor) : Reads Cursor.u64 (Layout.fixed BigEndian.u64) c :=
  word c (fun v => v.toNat_lt) (fun _ => UInt64.ofNat_toNat)
    (fun _ hn => UInt64.toNat_ofNat_of_lt' hn)

theorem i8 (c : Cursor) : Reads Cursor.i8 (Layout.fixed BigEndian.i8) c :=
  (u8 c).map_inverse Int8.toInt8_toUInt8 UInt8.toUInt8_toInt8

theorem i16 (c : Cursor) : Reads Cursor.i16 (Layout.fixed BigEndian.i16) c :=
  (u16 c).map_inverse Int16.toInt16_toUInt16 UInt16.toUInt16_toInt16

theorem i32 (c : Cursor) : Reads Cursor.i32 (Layout.fixed BigEndian.i32) c :=
  (u32 c).map_inverse Int32.toInt32_toUInt32 UInt32.toUInt32_toInt32

theorem i64 (c : Cursor) : Reads Cursor.i64 (Layout.fixed BigEndian.i64) c :=
  (u64 c).map_inverse Int64.toInt64_toUInt64 UInt64.toUInt64_toInt64

/-! ## 5. Repetition -/

variable {α : Type} {item : Read α} {layout : Layout α} {c : Cursor}

/-- **Reading items in a row takes just items in a row**, if that is so of one item wherever it
    may start. -/
theorem times (count : Nat)
    (h : ∀ x mid, c.Passes x mid → Reads item layout mid) :
    Reads (Cursor.times count item)
      (fun as bytes => as.length = count ∧ Layout.rows layout as bytes) c := by
  induction count generalizing c with
  | zero =>
    refine (Reads.pure [] c).congr fun as bytes => ⟨?_, ?_⟩
    · intro hgiven
      rcases hgiven with ⟨rfl, rfl⟩
      exact ⟨rfl, rfl⟩
    · intro hgiven
      rcases hgiven with ⟨hlen, hrows⟩
      obtain rfl := List.eq_nil_of_length_eq_zero hlen
      exact ⟨rfl, hrows⟩
  | succ count ih =>
    rw [Cursor.times_succ_bind]
    have hitem : Reads item layout c := h [] c (Cursor.Passes.refl c)
    have hrows : Reads (item >>= fun a => (a :: ·) <$> Cursor.times count item) _ c :=
      hitem.bind fun a x mid hx _ =>
        (ih fun y mid' hy => h (x ++ y) mid' (hx.trans hy)).map (a :: ·)
    refine hrows.congr fun as bytes => ⟨?_, ?_⟩
    · intro hgiven
      rcases hgiven with ⟨a, x, y, hx, ⟨rest, rfl, hlen, hy⟩, rfl⟩
      exact ⟨congrArg (· + 1) hlen, x, y, hx, hy, rfl⟩
    · intro hgiven
      rcases hgiven with ⟨hlen, hrows⟩
      obtain ⟨a, rest, rfl⟩ := List.exists_cons_of_length_eq_add_one hlen
      obtain ⟨x, y, hx, hy, rfl⟩ := hrows
      exact ⟨a, x, y, hx, ⟨rest, rfl, Nat.succ.inj hlen, hy⟩, rfl⟩

/-- Reading items in a row fails as reading one of them does, behind fewer than all. -/
theorem times_eq_error_iff {count : Nat} {e : DecodeError}
    (h : ∀ x mid, c.Passes x mid → Reads item layout mid) :
    Cursor.times count item c = .error e ↔ ∃ as x mid, c.Passes x mid ∧
      Layout.rows layout as x ∧ as.length < count ∧ item mid = .error e := by
  induction count generalizing c with
  | zero =>
    refine ⟨fun herror => (nomatch herror), fun herror => ?_⟩
    obtain ⟨_, _, _, _, _, hlt, _⟩ := herror
    exact absurd hlt (Nat.not_lt_zero _)
  | succ count ih =>
    have hitem : Reads item layout c := h [] c (Cursor.Passes.refl c)
    rw [Cursor.times_succ_bind, Cursor.bind_eq_error_iff]
    refine ⟨fun herror => ?_, fun herror => ?_⟩
    · rcases herror with hfirst | ⟨a, mid, ha, hrest⟩
      · exact ⟨[], [], c, Cursor.Passes.refl c, rfl, Nat.succ_pos count, hfirst⟩
      · obtain ⟨x, hx, hstored⟩ := (hitem a mid).1 ha
        obtain ⟨as, y, behind, hy, hrows, hlt, herror⟩ :=
          (ih fun y mid' hy => h (x ++ y) mid' (hx.trans hy)).1 (Cursor.map_eq_error_iff.1 hrest)
        exact ⟨a :: as, x ++ y, behind, hx.trans hy, ⟨x, y, hstored, hrows, rfl⟩,
          Nat.succ_lt_succ hlt, herror⟩
    · obtain ⟨as, x, behind, hpass, hrows, hlt, herror⟩ := herror
      cases as with
      | nil =>
        obtain rfl : x = [] := hrows
        rw [hpass.of_nil] at herror
        exact .inl herror
      | cons a as =>
        obtain ⟨x, y, hstored, hrows, rfl⟩ := hrows
        obtain ⟨mid, hx, hy⟩ := hpass.split
        refine .inr ⟨a, mid, (hitem a mid).2 ⟨x, hx, hstored⟩, Cursor.map_eq_error_iff.2 ?_⟩
        exact (ih fun y mid' hy => h (x ++ y) mid' (hx.trans hy)).2
          ⟨as, y, behind, hy, hrows, Nat.lt_of_succ_lt_succ hlt, herror⟩

/-- Items of one stored form each. -/
theorem times_fixed {write : α → List UInt8} (count : Nat) (c : Cursor)
    (h : ∀ mid, Reads item (Layout.fixed write) mid) :
    Reads (Cursor.times count item)
      (fun as bytes => as.length = count ∧ bytes = as.flatMap write) c :=
  (times count fun _ mid _ => h mid).congr fun _ _ => and_congr_right fun _ =>
    Layout.rows_fixed_iff

/-- **Reading a table takes just tables.** -/
theorem table (h : ∀ x mid, c.Passes x mid → Reads item layout mid) :
    Reads (Cursor.table item) (Layout.table layout) c := by
  have hbind : Reads (Cursor.u16 >>= fun count => Cursor.times count.toNat item) _ c :=
    (u16 c).bind fun count x mid hx _ =>
      times count.toNat fun y mid' hy => h (x ++ y) mid' (hx.trans hy)
  refine hbind.congr fun as bytes => ⟨?_, ?_⟩
  · intro hgiven
    rcases hgiven with ⟨count, x, y, rfl, ⟨hlen, hrows⟩, rfl⟩
    exact ⟨hlen ▸ count.toNat_lt, y, hrows, by rw [BigEndian.u16, hlen]⟩
  · intro hgiven
    rcases hgiven with ⟨hlen, y, hrows, rfl⟩
    have hcount : (UInt16.ofNat as.length).toNat = as.length := UInt16.toNat_ofNat_of_lt' hlen
    exact ⟨UInt16.ofNat as.length, _, y, rfl, ⟨hcount.symm, hrows⟩,
      by rw [BigEndian.u16, hcount]⟩

/-- Reading a table fails at its count, or as reading one of its items does. -/
theorem table_eq_error_iff {e : DecodeError} (h : ∀ x mid, c.Passes x mid → Reads item layout mid) :
    Cursor.table item c = .error e ↔ Cursor.u16 c = .error e ∨
      ∃ (count : UInt16) (as : List α) (x : List UInt8) (mid : Cursor),
        c.Passes (BigEndian.u16 count ++ x) mid ∧ Layout.rows layout as x ∧
          as.length < count.toNat ∧ item mid = .error e := by
  have hbind : (Cursor.u16 >>= fun count => Cursor.times count.toNat item) c = .error e ↔ _ :=
    Cursor.bind_eq_error_iff
  refine hbind.trans (or_congr_right ⟨fun herror => ?_, fun herror => ?_⟩)
  · obtain ⟨count, mid, hcount, herror⟩ := herror
    obtain ⟨_, hx, rfl⟩ := (u16 c count mid).1 hcount
    obtain ⟨as, y, behind, hy, hrows, hlt, herror⟩ :=
      (times_eq_error_iff fun y mid' hy => h _ mid' (hx.trans hy)).1 herror
    exact ⟨count, as, y, behind, hx.trans hy, hrows, hlt, herror⟩
  · obtain ⟨count, as, y, behind, hpass, hrows, hlt, herror⟩ := herror
    obtain ⟨mid, hx, hy⟩ := hpass.split
    refine ⟨count, mid, (u16 c count mid).2 ⟨_, hx, rfl⟩, ?_⟩
    exact (times_eq_error_iff fun y mid' hy => h _ mid' (hx.trans hy)).2
      ⟨as, y, behind, hy, hrows, hlt, herror⟩

/-- A table of items of one stored form each. -/
theorem table_fixed {write : α → List UInt8} (c : Cursor)
    (h : ∀ mid, Reads item (Layout.fixed write) mid) :
    Reads (Cursor.table item)
      (fun as bytes => as.length < 65536 ∧ bytes = Layout.tableBytes write as) c :=
  (table fun _ mid _ => h mid).congr fun _ _ => Layout.table_fixed_iff

end Reads

end ClassView
