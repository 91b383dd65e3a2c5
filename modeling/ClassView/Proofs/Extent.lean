import ClassView.Proofs.Stability

/-!
# Readers and how many bytes they take

Most readers take a number of bytes that is known in advance, or told by a count in front of the
items. Such a reader can fail in one way only: it runs out of bytes, exactly when fewer are ahead
than it takes. `Takes` says so of a reader at a cursor.

* `BigEndian.numberAt`, `BigEndian.int16At`, `BigEndian.int32At`: the number that stands at a place
  of a byte string;
* `Cursor.u16_of_le`, `Cursor.u32_of_le`, `Cursor.take_of_le`: what is read where enough is ahead;
* **`Takes.bind`**, **`Takes.times`**, **`Takes.table`**: readers in a row take what they take one
  by one;
* `Short.bind`: readers in a row that run out;
* **`Takes.error_behind`**: what is wrong, other than that the bytes run out, is wrong further on.
-/

namespace ClassView

/-! ## 1. Numbers at a place -/

/-- The number in the `width` bytes from `start` on. -/
def BigEndian.numberAt (bytes : List UInt8) (start width : Nat) : Nat :=
  ofBytes ((bytes.drop start).take width)

/-- The number in two's complement in the two bytes from `start` on. -/
def BigEndian.int16At (bytes : List UInt8) (start : Nat) : Int16 :=
  (UInt16.ofNat (numberAt bytes start 2)).toInt16

/-- The number in two's complement in the four bytes from `start` on. -/
def BigEndian.int32At (bytes : List UInt8) (start : Nat) : Int32 :=
  (UInt32.ofNat (numberAt bytes start 4)).toInt32

theorem BigEndian.capacity_mono {m n : Nat} (h : m ≤ n) : capacity m ≤ capacity n := by
  induction h with
  | refl => exact Nat.le_refl _
  | step _ ih => exact Nat.le_trans ih (Nat.le_mul_of_pos_left _ (by decide))

theorem BigEndian.numberAt_lt (bytes : List UInt8) (start width : Nat) :
    numberAt bytes start width < capacity width :=
  Nat.lt_of_lt_of_le (ofBytes_lt _) (capacity_mono (List.length_take_le _ _))

section Prefixes

variable {bytes x y : List UInt8} {start width : Nat}

/-- What stands from a place on stands there part by part. -/
theorem prefix_drop_of_append (h : x ++ y <+: bytes.drop start) :
    x <+: bytes.drop start ∧ y <+: bytes.drop (start + x.length) := by
  obtain ⟨back, hback⟩ := h
  refine ⟨⟨y ++ back, by rw [← hback, List.append_assoc]⟩, back, ?_⟩
  rw [← List.drop_drop, ← hback, List.append_assoc, List.drop_left]

theorem BigEndian.numberAt_of_stored (h : x <+: bytes.drop start) (hwidth : x.length = width) :
    numberAt bytes start width = ofBytes x := by
  rw [numberAt, ← hwidth, ← List.prefix_iff_eq_take.1 h]

/-- A number stands in a part of the bytes as it does in the whole. -/
theorem BigEndian.numberAt_of_part {k : Nat} (h : x <+: bytes.drop start)
    (hk : k + width ≤ x.length) : numberAt bytes (start + k) width = numberAt x k width := by
  obtain ⟨back, hback⟩ := h
  have hlen : width ≤ (x.drop k).length := by
    rw [List.length_drop]
    omega
  rw [numberAt, numberAt, ← List.drop_drop, ← hback, List.drop_append_of_le_length (by omega),
    List.take_append_of_le_length hlen]

end Prefixes

namespace Cursor

variable {c : Cursor}

@[simp] theorem advance_advance (c : Cursor) (m n : Nat) :
    (c.advance m).advance n = c.advance (m + n) := by
  rw [advance, advance, advance, List.drop_drop, Nat.add_assoc]

@[simp] theorem remaining_advance (c : Cursor) (n : Nat) :
    (c.advance n).remaining = c.remaining - n := List.length_drop

theorem numberAt_advance (c : Cursor) (n start width : Nat) :
    BigEndian.numberAt (c.advance n).rest start width =
      BigEndian.numberAt c.rest (n + start) width := by
  rw [BigEndian.numberAt, BigEndian.numberAt, advance, List.drop_drop]

theorem int32At_advance (c : Cursor) (n start : Nat) :
    BigEndian.int32At (c.advance n).rest start = BigEndian.int32At c.rest (n + start) := by
  rw [BigEndian.int32At, BigEndian.int32At, numberAt_advance]

/-- Any beginning of the bytes ahead can be passed over. -/
theorem exists_passes {x y : List UInt8} (h : c.rest = x ++ y) :
    ∃ mid, c.Passes x mid ∧ mid.rest = y :=
  ⟨⟨y, c.position + x.length, c.base⟩, ⟨h, rfl, rfl⟩, rfl⟩

theorem take_of_le {n : Nat} (h : n ≤ c.remaining) :
    take n c = .ok (c.rest.take n, c.advance n) := take_eq_ok_iff.2 ⟨h, rfl, rfl⟩

theorem u16_of_le (h : 2 ≤ c.remaining) :
    u16 c = .ok (UInt16.ofNat (BigEndian.numberAt c.rest 0 2), c.advance 2) :=
  map_eq_ok_iff.2 ⟨_, map_eq_ok_iff.2 ⟨_, take_of_le h, rfl⟩, rfl⟩

theorem u32_of_le (h : 4 ≤ c.remaining) :
    u32 c = .ok (UInt32.ofNat (BigEndian.numberAt c.rest 0 4), c.advance 4) :=
  map_eq_ok_iff.2 ⟨_, map_eq_ok_iff.2 ⟨_, take_of_le h, rfl⟩, rfl⟩

theorem i32_of_le (h : 4 ≤ c.remaining) :
    i32 c = .ok (BigEndian.int32At c.rest 0, c.advance 4) :=
  map_eq_ok_iff.2 ⟨_, u32_of_le h, rfl⟩

/-- A byte that is read is the first one ahead. -/
theorem head?_of_u8 {b : UInt8} {c' : Cursor} (h : u8 c = .ok (b, c')) : c.rest.head? = some b := by
  obtain ⟨_, hpasses, rfl⟩ := (Reads.u8 c b c').1 h
  rw [hpasses.rest]
  rfl

/-- In a whole byte string it stands at the place where the reader does. -/
theorem getElem?_of_u8_advance {bytes : List UInt8} {p : Nat} {b : UInt8} {c' : Cursor}
    (h : u8 ((ofBytes bytes 0).advance p) = .ok (b, c')) : bytes[p]? = some b :=
  List.head?_drop.symm.trans (head?_of_u8 h)

end Cursor

/-! ## 2. Readers that run out -/

variable {α β : Type} {read : Read α} {next : α → Read β} {c : Cursor} {m n : Nat}

/-- The bytes ahead end in front of what the reader asks for. -/
def Short (read : Read α) (c : Cursor) : Prop := ∃ o, read c = .error (.truncatedInput o)

/-- The reader takes `size` bytes and runs out if there are fewer. -/
structure Takes (read : Read α) (size : Nat) (c : Cursor) : Prop where
  fits : size ≤ c.remaining → ∃ a, read c = .ok (a, c.advance size)
  short : c.remaining < size → Short read c

/-- Two readers in a row run out if the second one does wherever the first does not. -/
theorem Short.bind (h : Takes read m c)
    (hnext : ∀ a, m ≤ c.remaining → read c = .ok (a, c.advance m) →
      Short (next a) (c.advance m)) : Short (read >>= next) c := by
  by_cases hm : m ≤ c.remaining
  · obtain ⟨a, ha⟩ := h.fits hm
    obtain ⟨o, ho⟩ := hnext a hm ha
    exact ⟨o, Cursor.bind_eq_error_iff.2 (.inr ⟨a, c.advance m, ha, ho⟩)⟩
  · obtain ⟨o, ho⟩ := h.short (Nat.lt_of_not_le hm)
    exact ⟨o, Cursor.bind_eq_error_iff.2 (.inl ho)⟩

/-- Asking for the cursor takes nothing. -/
theorem Short.get {next : Cursor → Read α} (h : Short (next c) c) :
    Short (MonadState.get >>= next) c := h

namespace Takes

theorem pure (a : α) (c : Cursor) : Takes (Pure.pure a) 0 c where
  fits _ := ⟨a, rfl⟩
  short h := absurd h (Nat.not_lt_zero _)

theorem take (n : Nat) (c : Cursor) : Takes (Cursor.take n) n c where
  fits h := ⟨_, Cursor.take_of_le h⟩
  short h := ⟨c.offset, Cursor.take_eq_error_iff.2 ⟨h, rfl⟩⟩

/-- **Two readers in a row take what the first takes, and behind it what the second takes.** -/
theorem bind (h : Takes read m c)
    (hnext : ∀ a, m ≤ c.remaining → read c = .ok (a, c.advance m) →
      Takes (next a) n (c.advance m)) : Takes (read >>= next) (m + n) c where
  fits hle := by
    have hm : m ≤ c.remaining := Nat.le_trans (Nat.le_add_right m n) hle
    have hn : n ≤ (c.advance m).remaining := by
      rw [Cursor.remaining_advance]
      omega
    obtain ⟨a, ha⟩ := h.fits hm
    obtain ⟨b, hb⟩ := (hnext a hm ha).fits hn
    rw [Cursor.advance_advance] at hb
    exact ⟨b, Cursor.bind_eq_ok_iff.2 ⟨a, c.advance m, ha, hb⟩⟩
  short hlt := by
    refine Short.bind h fun a hm ha => (hnext a hm ha).short ?_
    rw [Cursor.remaining_advance]
    omega

theorem map (f : α → β) (h : Takes read m c) : Takes (f <$> read) m c :=
  h.bind fun a _ _ => pure (f a) (c.advance m)

theorem skip (n : Nat) (c : Cursor) : Takes (Cursor.skip n) n c :=
  (take n c).bind fun _ _ _ => pure () _

theorem u8 (c : Cursor) : Takes Cursor.u8 1 c := ((take 1 c).map _).map _

theorem u16 (c : Cursor) : Takes Cursor.u16 2 c := ((take 2 c).map _).map _

theorem u32 (c : Cursor) : Takes Cursor.u32 4 c := ((take 4 c).map _).map _

theorem i8 (c : Cursor) : Takes Cursor.i8 1 c := (u8 c).map _

theorem i16 (c : Cursor) : Takes Cursor.i16 2 c := (u16 c).map _

theorem i32 (c : Cursor) : Takes Cursor.i32 4 c := (u32 c).map _

theorem u64 (c : Cursor) : Takes Cursor.u64 8 c := ((take 8 c).map _).map _

/-- **Items of one size take that size each.** -/
theorem times {size : Nat} (h : ∀ c, Takes read size c) (count : Nat) (c : Cursor) :
    Takes (Cursor.times count read) (size * count) c := by
  induction count generalizing c with
  | zero => exact pure [] c
  | succ count ih =>
    rw [Cursor.times_succ_bind, Nat.mul_succ, Nat.add_comm]
    exact (h c).bind fun a _ _ => (ih _).map (a :: ·)

/-- **A table of items of one size takes as many of them as its count says.** -/
theorem table {size : Nat} (h : ∀ c, Takes read size c) (c : Cursor) :
    Takes (Cursor.table read) (2 + size * BigEndian.numberAt c.rest 0 2) c := by
  have hbind : Takes (Cursor.u16 >>= fun count => Cursor.times count.toNat read)
      (2 + size * BigEndian.numberAt c.rest 0 2) c := by
    refine (u16 c).bind fun count hle hcount => ?_
    rw [Cursor.u16_of_le hle] at hcount
    obtain ⟨rfl, _⟩ := Prod.mk.inj (Except.ok.inj hcount)
    rw [UInt16.toNat_ofNat_of_lt' (BigEndian.numberAt_lt c.rest 0 2)]
    exact times h _ _
  exact hbind

/-! ## 3. Faults that are not about the end -/

variable {e : DecodeError}

/-- A reader that takes a number of bytes can only run out of them. -/
theorem isAboutEnd (h : Takes read m c) (herror : read c = .error e) : e.IsAboutEnd := by
  by_cases hm : m ≤ c.remaining
  · obtain ⟨a, ha⟩ := h.fits hm
    exact nomatch ha.symm.trans herror
  · obtain ⟨o, ho⟩ := h.short (Nat.lt_of_not_le hm)
    cases ho.symm.trans herror
    trivial

/-- What it reads lies ahead. -/
theorem of_ok {a : α} {c' : Cursor} (h : Takes read m c) (hok : read c = .ok (a, c')) :
    m ≤ c.remaining ∧ c' = c.advance m := by
  have hm : m ≤ c.remaining := by
    by_contra hlt
    obtain ⟨o, ho⟩ := h.short (Nat.lt_of_not_le hlt)
    exact nomatch ho.symm.trans hok
  obtain ⟨a', ha⟩ := h.fits hm
  cases ha.symm.trans hok
  exact ⟨hm, rfl⟩

/-- **What is wrong, other than that the bytes run out, is wrong behind what the first of two
    readers takes.** -/
theorem error_behind (h : Takes read m c) (he : ¬ e.IsAboutEnd)
    (herror : (read >>= next) c = .error e) :
    ∃ a, m ≤ c.remaining ∧ read c = .ok (a, c.advance m) ∧ next a (c.advance m) = .error e := by
  rcases Cursor.bind_eq_error_iff.1 herror with hfirst | ⟨a, mid, hfirst, hnext⟩
  · exact absurd (h.isAboutEnd hfirst) he
  · obtain ⟨hm, rfl⟩ := h.of_ok hfirst
    exact ⟨a, hm, hfirst, hnext⟩

/-- The same, where it is known what is read. -/
theorem error_behind_of_eq {a : α} (h : Takes read m c)
    (ha : m ≤ c.remaining → read c = .ok (a, c.advance m)) (he : ¬ e.IsAboutEnd)
    (herror : (read >>= next) c = .error e) :
    m ≤ c.remaining ∧ next a (c.advance m) = .error e := by
  obtain ⟨_, hm, hfirst, hnext⟩ := h.error_behind he herror
  cases (ha hm).symm.trans hfirst
  exact ⟨hm, hnext⟩

end Takes

end ClassView
