import ClassView.Proofs.Layout
import ClassView.Proofs.Outcome

/-!
# Readers and the bytes that follow

A reader that goes through the bytes from front to back cannot know what lies behind those that it
takes. So what it reads, and what it finds wrong with it, stays the same if more bytes follow; and
if the bytes run out in front of an item, they run out there wherever behind it they are cut.
`Stable` says so of a reader, for every cursor and for all bytes that may follow.

* `Cursor.extend`, `Cursor.stop`: a cursor with more bytes ahead, and the end of those ahead;
* `DecodeError.IsAboutEnd`: the faults that tell where the input ends;
* **`Stable.bind`**, **`Stable.times`**, **`Stable.table`**: stable readers in a row are stable;
* `Agree`: two readers that do the same on inputs of bounded length.
-/

namespace ClassView

/-- The fault is about the end of the input, and not about what stands in front of it. -/
def DecodeError.IsAboutEnd : DecodeError → Prop
  | .truncatedInput _ | .trailingBytes _ _ => True
  | _ => False

/-! ## 1. Cursors with more bytes ahead -/

namespace Cursor

variable {c c' : Cursor} {x more : List UInt8}

/-- The cursor at the same place, with more bytes behind those ahead. -/
def extend (c : Cursor) (more : List UInt8) : Cursor := ⟨c.rest ++ more, c.position, c.base⟩

/-- The place behind the last byte ahead. -/
def stop (c : Cursor) : Nat := c.offset + c.remaining

@[simp] theorem offset_extend (c : Cursor) (more : List UInt8) :
    (c.extend more).offset = c.offset := rfl

@[simp] theorem remaining_extend (c : Cursor) (more : List UInt8) :
    (c.extend more).remaining = c.remaining + more.length := List.length_append

theorem offset_advance (c : Cursor) (n : Nat) : (c.advance n).offset = c.offset + n :=
  (Nat.add_assoc _ _ _).symm

theorem Passes.offset (h : c.Passes x c') : c'.offset = c.offset + x.length := by
  rw [Cursor.offset, Cursor.offset, h.base, h.position, Nat.add_assoc]

theorem Passes.offset_le (h : c.Passes x c') : c.offset ≤ c'.offset := by
  rw [h.offset]
  exact Nat.le_add_right _ _

/-- Moving on does not move the end. -/
theorem Passes.stop (h : c.Passes x c') : c'.stop = c.stop := by
  rw [Cursor.stop, Cursor.stop, h.offset, h.remaining, Nat.add_assoc]

theorem take_extend {n : Nat} (h : n ≤ c.remaining) :
    (c.extend more).rest.take n = c.rest.take n := List.take_append_of_le_length h

theorem advance_extend {n : Nat} (h : n ≤ c.remaining) :
    (c.extend more).advance n = (c.advance n).extend more := by
  have hdrop : (c.rest ++ more).drop n = c.rest.drop n ++ more :=
    List.drop_append_of_le_length h
  rw [advance, advance, extend, extend]
  exact congrArg (Cursor.mk · _ _) hdrop

theorem extend_ofBytes (bytes more : List UInt8) (base : Nat) :
    (ofBytes bytes base).extend more = ofBytes (bytes ++ more) base := rfl

/-- A cut of a byte string, and what was cut off. -/
theorem extend_ofBytes_take (bytes : List UInt8) (base k : Nat) :
    (ofBytes (bytes.take k) base).extend (bytes.drop k) = ofBytes bytes base := by
  rw [extend_ofBytes, List.take_append_drop]

end Cursor

/-! ## 2. Stable readers -/

/-- The reader goes from front to back, and what it does is told by the bytes that it passes over:
    it is the same in front of more bytes, and where an item does not fit, it does not fit wherever
    behind its start the bytes are cut. -/
structure Stable {α : Type} (read : Read α) : Prop where
  /-- A reader moves over bytes ahead. -/
  passes : ∀ {c c' : Cursor} {a : α}, read c = .ok (a, c') → ∃ x, c.Passes x c'
  /-- What is read is read as well in front of more bytes. -/
  ok_extend : ∀ {c c' : Cursor} {a : α} (more : List UInt8),
    read c = .ok (a, c') → read (c.extend more) = .ok (a, c'.extend more)
  /-- What is wrong stays wrong in front of more bytes. -/
  error_extend : ∀ {c : Cursor} {e : DecodeError} (more : List UInt8),
    read c = .error e → ¬ e.IsAboutEnd → read (c.extend more) = .error e
  /-- The only fault about the end is that an item ahead does not fit. -/
  short : ∀ {c : Cursor} {e : DecodeError}, read c = .error e → e.IsAboutEnd →
    ∃ o, e = .truncatedInput o ∧ c.offset ≤ o ∧ o ≤ c.stop
  /-- What is read of the bytes in front of a cut is read without those behind it. -/
  ok_cut : ∀ {c c' : Cursor} {a : α} (more : List UInt8),
    read (c.extend more) = .ok (a, c') → c'.offset ≤ c.stop → ∃ mid, read c = .ok (a, mid)
  /-- An item that starts in front of a cut and does not fit does not fit without the bytes
      behind the cut. -/
  error_cut : ∀ {c : Cursor} {o : Nat} (more : List UInt8),
    read (c.extend more) = .error (.truncatedInput o) → o ≤ c.stop →
      read c = .error (.truncatedInput o)

namespace Stable

variable {α β : Type} {read : Read α}

/-- What is read of a byte string is read of a longer one. -/
theorem ok_append {bytes : List UInt8} {base : Nat} {a : α} {c' : Cursor} (h : Stable read)
    (more : List UInt8) (hok : read (Cursor.ofBytes bytes base) = .ok (a, c')) :
    read (Cursor.ofBytes (bytes ++ more) base) = .ok (a, c'.extend more) := by
  rw [← Cursor.extend_ofBytes]
  exact h.ok_extend more hok

/-- What is wrong in a byte string is wrong in a longer one. -/
theorem error_append {bytes : List UInt8} {base : Nat} {e : DecodeError} (h : Stable read)
    (more : List UInt8) (herror : read (Cursor.ofBytes bytes base) = .error e)
    (he : ¬ e.IsAboutEnd) : read (Cursor.ofBytes (bytes ++ more) base) = .error e := by
  rw [← Cursor.extend_ofBytes]
  exact h.error_extend more herror he

theorem pure (a : α) : Stable (Pure.pure a : Read α) where
  passes {c _ _} h := by
    cases h
    exact ⟨[], Cursor.Passes.refl c⟩
  ok_extend _ h := by
    cases h
    rfl
  error_extend _ h := nomatch h
  short h := nomatch h
  ok_cut {c _ _} _ h _ := by
    cases h
    exact ⟨c, rfl⟩
  error_cut _ h := nomatch h

/-- A look-up beside the bytes, if no fault of it is about their end. -/
theorem lift {x : Outcome α} (h : x.FailsOnly fun e => ¬ e.IsAboutEnd) :
    Stable (liftM x : Read α) := by
  cases x with
  | ok a => exact pure a
  | error e =>
    have he : ¬ e.IsAboutEnd := h e rfl
    refine ⟨fun h => (nomatch h), fun _ h => (nomatch h), fun _ h _ => h, fun h hend => ?_,
      fun _ h _ => (nomatch h), fun _ h _ => ?_⟩
    · exact absurd (Except.error.inj h ▸ hend) he
    · rw [Except.error.inj h] at he
      exact absurd trivial he

theorem throw {e : DecodeError} (h : ¬ e.IsAboutEnd) :
    Stable (MonadExcept.throw e : Read α) :=
  lift (x := .error e) fun _ he => Except.error.inj he ▸ h

/-- **Two stable readers in a row are stable.** -/
theorem bind {next : α → Read β} (h : Stable read) (hnext : ∀ a, Stable (next a)) :
    Stable (read >>= next) where
  passes hok := by
    obtain ⟨a, mid, hread, hb⟩ := Cursor.bind_eq_ok_iff.1 hok
    obtain ⟨x, hx⟩ := h.passes hread
    obtain ⟨y, hy⟩ := (hnext a).passes hb
    exact ⟨x ++ y, hx.trans hy⟩
  ok_extend more hok := by
    obtain ⟨a, mid, hread, hb⟩ := Cursor.bind_eq_ok_iff.1 hok
    exact Cursor.bind_eq_ok_iff.2
      ⟨a, mid.extend more, h.ok_extend more hread, (hnext a).ok_extend more hb⟩
  error_extend more herror he := by
    refine Cursor.bind_eq_error_iff.2 ?_
    rcases Cursor.bind_eq_error_iff.1 herror with hread | ⟨a, mid, hread, hb⟩
    · exact .inl (h.error_extend more hread he)
    · exact .inr
        ⟨a, mid.extend more, h.ok_extend more hread, (hnext a).error_extend more hb he⟩
  short {c e} herror he := by
    rcases Cursor.bind_eq_error_iff.1 herror with hread | ⟨a, mid, hread, hb⟩
    · exact h.short hread he
    · obtain ⟨x, hx⟩ := h.passes hread
      obtain ⟨o, rfl, hle, hstop⟩ := (hnext a).short hb he
      exact ⟨o, rfl, Nat.le_trans hx.offset_le hle, hx.stop ▸ hstop⟩
  ok_cut {c c' b} more hok hstop := by
    obtain ⟨a, mid', hread, hb⟩ := Cursor.bind_eq_ok_iff.1 hok
    obtain ⟨y, hy⟩ := (hnext a).passes hb
    obtain ⟨mid, hmid⟩ := h.ok_cut more hread (Nat.le_trans hy.offset_le hstop)
    obtain ⟨x, hx⟩ := h.passes hmid
    -- the first reader stands at the same place with and without the bytes behind the cut
    have hsame : (a, mid') = (a, mid.extend more) :=
      Except.ok.inj (hread.symm.trans (h.ok_extend more hmid))
    rw [(Prod.mk.inj hsame).2] at hb
    obtain ⟨behind, hbehind⟩ := (hnext a).ok_cut more hb (hx.stop ▸ hstop)
    exact ⟨behind, Cursor.bind_eq_ok_iff.2 ⟨a, mid, hmid, hbehind⟩⟩
  error_cut {c o} more herror hstop := by
    refine Cursor.bind_eq_error_iff.2 ?_
    rcases Cursor.bind_eq_error_iff.1 herror with hread | ⟨a, mid', hread, hb⟩
    · exact .inl (h.error_cut more hread hstop)
    · obtain ⟨o', ho', hle, _⟩ := (hnext a).short hb trivial
      cases ho'
      obtain ⟨mid, hmid⟩ := h.ok_cut more hread (Nat.le_trans hle hstop)
      obtain ⟨x, hx⟩ := h.passes hmid
      have hsame : (a, mid') = (a, mid.extend more) :=
        Except.ok.inj (hread.symm.trans (h.ok_extend more hmid))
      rw [(Prod.mk.inj hsame).2] at hb
      exact .inr ⟨a, mid, hmid, (hnext a).error_cut more hb (hx.stop ▸ hstop)⟩

theorem map (f : α → β) (h : Stable read) : Stable (f <$> read) :=
  h.bind fun a => pure (f a)

/-- A test that stops the reader. -/
theorem guard {bad : Prop} [Decidable bad] {e : DecodeError} {next : Unit → Read α}
    (he : ¬ e.IsAboutEnd) (h : Stable (next ())) :
    Stable (if bad then MonadExcept.throw e >>= next else next ()) := by
  by_cases hbad : bad
  · rw [if_pos hbad]
    exact (throw he).bind fun _ => h
  · rw [if_neg hbad]
    exact h

/-- Asking for the cursor, if only its place counts. -/
theorem get {next : Cursor → Read α} (h : ∀ c, Stable (next c))
    (hplace : ∀ c more, next (c.extend more) = next c) : Stable (MonadState.get >>= next) := by
  have hextend : ∀ (c : Cursor) (more : List UInt8),
      (MonadState.get >>= next) (c.extend more) = next c (c.extend more) := by
    intro c more
    rw [Cursor.get_bind_apply, hplace]
  refine ⟨fun hok => (h _).passes hok, fun {c _ _} more hok => ?_, fun {c _} more herror he => ?_,
    fun herror he => (h _).short herror he, fun {c _ _} more hok hstop => ?_,
    fun {c _} more herror hstop => ?_⟩
  · rw [hextend]
    exact (h c).ok_extend more hok
  · rw [hextend]
    exact (h c).error_extend more herror he
  · rw [hextend] at hok
    exact (h c).ok_cut more hok hstop
  · rw [hextend] at herror
    exact (h c).error_cut more herror hstop

/-! ## 3. Bytes, numbers and rows -/

theorem take (n : Nat) : Stable (Cursor.take n) where
  passes hok := by
    obtain ⟨hn, rfl, rfl⟩ := Cursor.take_eq_ok_iff.1 hok
    exact ⟨_, Cursor.passes_advance hn⟩
  ok_extend {c _ _} more hok := by
    obtain ⟨hn, rfl, rfl⟩ := Cursor.take_eq_ok_iff.1 hok
    refine Cursor.take_eq_ok_iff.2 ⟨?_, (Cursor.take_extend hn).symm,
      (Cursor.advance_extend hn).symm⟩
    rw [Cursor.remaining_extend]
    exact Nat.le_trans hn (Nat.le_add_right _ _)
  error_extend _ herror he := by
    obtain ⟨_, rfl⟩ := Cursor.take_eq_error_iff.1 herror
    exact absurd trivial he
  short {c e} herror _ := by
    obtain ⟨_, rfl⟩ := Cursor.take_eq_error_iff.1 herror
    exact ⟨c.offset, rfl, Nat.le_refl _, Nat.le_add_right _ _⟩
  ok_cut {c _ _} more hok hstop := by
    obtain ⟨_, rfl, rfl⟩ := Cursor.take_eq_ok_iff.1 hok
    rw [Cursor.offset_advance, Cursor.offset_extend, Cursor.stop] at hstop
    have hn : n ≤ c.remaining := Nat.le_of_add_le_add_left hstop
    exact ⟨c.advance n, Cursor.take_eq_ok_iff.2 ⟨hn, Cursor.take_extend hn, rfl⟩⟩
  error_cut {c _} more herror _ := by
    obtain ⟨hlt, ho⟩ := Cursor.take_eq_error_iff.1 herror
    rw [Cursor.remaining_extend] at hlt
    exact Cursor.take_eq_error_iff.2 ⟨Nat.lt_of_le_of_lt (Nat.le_add_right _ _) hlt, ho⟩

theorem unsigned (width : Nat) : Stable (Cursor.unsigned width) := (take width).map _

theorem u8 : Stable Cursor.u8 := (unsigned 1).map _

theorem u16 : Stable Cursor.u16 := (unsigned 2).map _

theorem u32 : Stable Cursor.u32 := (unsigned 4).map _

theorem u64 : Stable Cursor.u64 := (unsigned 8).map _

theorem i32 : Stable Cursor.i32 := u32.map _

theorem i64 : Stable Cursor.i64 := u64.map _

/-- **Items in a row are read by a stable reader** if one item is. -/
theorem times {item : Read α} (h : Stable item) (count : Nat) :
    Stable (Cursor.times count item) := by
  induction count with
  | zero => exact pure []
  | succ count ih =>
    rw [Cursor.times_succ_bind]
    exact h.bind fun a => ih.map (a :: ·)

theorem table {item : Read α} (h : Stable item) : Stable (Cursor.table item) :=
  u16.bind fun count => h.times count.toNat

end Stable

/-! ## 4. Readers that agree on inputs of bounded length -/

/-- Two readers do the same wherever at most `n` bytes are ahead. -/
def Agree {α : Type} (n : Nat) (read read' : Read α) : Prop :=
  ∀ c : Cursor, c.remaining ≤ n → read c = read' c

namespace Agree

variable {α β : Type} {n : Nat} {read read' : Read α}

theorem refl (n : Nat) (read : Read α) : Agree n read read := fun _ _ => rfl

theorem symm (h : Agree n read read') : Agree n read' read := fun c hc => (h c hc).symm

theorem mono {m : Nat} (h : Agree n read read') (hle : m ≤ n) : Agree m read read' :=
  fun c hc => h c (Nat.le_trans hc hle)

/-- What is behind a stable reader has no more bytes ahead than it. -/
theorem bind {next next' : α → Read β} (hstable : Stable read) (h : Agree n read read')
    (hnext : ∀ a, Agree n (next a) (next' a)) : Agree n (read >>= next) (read' >>= next') := by
  intro c hc
  rw [Cursor.bind_apply, Cursor.bind_apply, ← h c hc]
  cases hread : read c with
  | error e => rfl
  | ok p =>
    obtain ⟨x, hx⟩ := hstable.passes hread
    exact hnext p.1 p.2 (Nat.le_trans hx.remaining_le hc)

theorem behind {next next' : α → Read β} (hstable : Stable read)
    (hnext : ∀ a, Agree n (next a) (next' a)) : Agree n (read >>= next) (read >>= next') :=
  bind hstable (refl n read) hnext

theorem map (f : α → β) (hstable : Stable read) (h : Agree n read read') :
    Agree n (f <$> read) (f <$> read') :=
  bind hstable h fun a => refl n (Pure.pure (f a))

theorem get {next next' : Cursor → Read α} (h : ∀ c, Agree n (next c) (next' c)) :
    Agree n (MonadState.get >>= next) (MonadState.get >>= next') := fun c hc => h c c hc

/-- What is taken is no longer than what was ahead. -/
theorem take {k : Nat} {next next' : List UInt8 → Read α}
    (h : ∀ taken, taken.length ≤ n → Agree n (next taken) (next' taken)) :
    Agree n (Cursor.take k >>= next) (Cursor.take k >>= next') := by
  intro c hc
  rw [Cursor.bind_apply, Cursor.bind_apply]
  cases hread : Cursor.take k c with
  | error e => rfl
  | ok p =>
    obtain ⟨taken, c'⟩ := p
    obtain ⟨hk, htaken, hc'⟩ := Cursor.take_eq_ok_iff.1 hread
    have hlen : taken.length ≤ n := by
      rw [htaken]
      exact Nat.le_trans (List.length_take_le' k c.rest) hc
    have hrest : c'.remaining ≤ n := by
      rw [hc']
      exact Nat.le_trans (Cursor.passes_advance hk).remaining_le hc
    exact h taken hlen c' hrest

theorem times {item item' : Read α} (hstable : Stable item) (h : Agree n item item')
    (count : Nat) : Agree n (Cursor.times count item) (Cursor.times count item') := by
  induction count with
  | zero => exact refl n _
  | succ count ih =>
    rw [Cursor.times_succ_bind, Cursor.times_succ_bind]
    exact bind hstable h fun a => map _ (hstable.times count) ih

/-- The count in front of a table takes two bytes of those ahead. -/
theorem table {item item' : Read α} (hstable : Stable item) (h : Agree n item item') :
    Agree (n + 2) (Cursor.table item) (Cursor.table item') := by
  intro c hc
  show (Cursor.u16 >>= fun count => Cursor.times count.toNat item) c =
    (Cursor.u16 >>= fun count => Cursor.times count.toNat item') c
  rw [Cursor.bind_apply, Cursor.bind_apply]
  cases hread : Cursor.u16 c with
  | error e => rfl
  | ok p =>
    obtain ⟨x, hx, hcount⟩ := (Reads.u16 c p.1 p.2).1 hread
    have hlen : x.length = 2 := by
      rw [show x = BigEndian.u16 p.1 from hcount, BigEndian.length_u16]
    have hremaining := hx.remaining
    refine times hstable h p.1.toNat p.2 ?_
    omega

end Agree

end ClassView
