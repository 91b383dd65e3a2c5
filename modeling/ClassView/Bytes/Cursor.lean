import ClassView.DecodeError
import ClassView.Bytes.BigEndian

/-!
# A position in a byte string

A `Cursor` stands between two bytes of a string: it holds the bytes still ahead and how many lie
behind. A string that was cut out of a larger one carries where it was cut (`base`), so that
faults are reported by their place in the whole.

A reader is a function of type `Read α`: it answers a value and the cursor behind it, or the
reason there is none. A failed read answers no cursor, so whoever called it still stands where it
stood. Every read goes through `Cursor.take`.

* **`take_eq_ok_iff`**: taking succeeds exactly when enough bytes are ahead, answers these bytes and
  moves behind them;
* `times_succ`: reading one item more is reading one and then the others;
* `bind_eq_ok_iff`, `bind_eq_error_iff`, `map_eq_ok_iff`, `map_eq_error_iff`: readers in a row
  succeed exactly when each of them does, and fail as the first that fails.
-/

namespace ClassView

/-- A position in a byte string that starts `base` bytes into a larger one. -/
structure Cursor where
  /-- The bytes ahead. -/
  rest : List UInt8
  /-- How many bytes lie behind. -/
  position : Nat
  /-- Where the string starts in the outermost one. -/
  base : Nat
  deriving DecidableEq, Repr

/-- A reader: it takes a value off the front of the bytes ahead, or says why it cannot. -/
abbrev Read : Type → Type := StateT Cursor (Except DecodeError)

namespace Cursor

/-! ## 1. Where a cursor stands -/

/-- A cursor in front of a whole byte string. -/
def ofBytes (bytes : List UInt8) (base : Nat) : Cursor := ⟨bytes, 0, base⟩

/-- The position in the outermost byte string. -/
def offset (c : Cursor) : Nat := c.base + c.position

/-- How many bytes are ahead. -/
def remaining (c : Cursor) : Nat := c.rest.length

/-- Nothing is ahead. -/
def isEmpty (c : Cursor) : Bool := c.rest.isEmpty

/-- At least `n` bytes are ahead; looks at no more than `n` of them. -/
def holds (c : Cursor) (n : Nat) : Bool :=
  n == 0 || !(c.rest.drop (n - 1)).isEmpty

/-- The cursor `n` bytes further on. -/
def advance (c : Cursor) (n : Nat) : Cursor :=
  ⟨c.rest.drop n, c.position + n, c.base⟩

theorem holds_iff (c : Cursor) (n : Nat) : c.holds n = true ↔ n ≤ c.remaining := by
  cases n with
  | zero => simp [holds]
  | succ n =>
    have h : (c.rest.drop n).isEmpty = true ↔ c.rest.length ≤ n := by
      rw [List.isEmpty_iff, List.drop_eq_nil_iff]
    have h' : c.holds (n + 1) = !(c.rest.drop n).isEmpty := rfl
    rw [h', Bool.not_eq_true', ← Bool.not_eq_true, h, remaining]
    omega

/-! ## 2. Taking bytes -/

/-- Takes the next `n` bytes. -/
def take (n : Nat) : Read (List UInt8) := fun c =>
  if c.holds n then .ok (c.rest.take n, c.advance n) else .error (.truncatedInput c.offset)

/-- **Taking succeeds exactly when enough bytes are ahead, and answers just these.** -/
theorem take_eq_ok_iff {n : Nat} {c c' : Cursor} {bytes : List UInt8} :
    take n c = .ok (bytes, c') ↔
      n ≤ c.remaining ∧ bytes = c.rest.take n ∧ c' = c.advance n := by
  unfold take
  by_cases h : c.holds n = true
  · have hn := (c.holds_iff n).1 h
    simp only [h, if_true, Except.ok.injEq, Prod.mk.injEq, hn, true_and]
    exact ⟨fun ⟨a, b⟩ => ⟨a.symm, b.symm⟩, fun ⟨a, b⟩ => ⟨a.symm, b.symm⟩⟩
  · have hn : ¬ n ≤ c.remaining := fun hn => h ((c.holds_iff n).2 hn)
    simp [h, hn]

/-- Taking more than is ahead reports where the cursor stands. -/
theorem take_eq_error_iff {n : Nat} {c : Cursor} {e : DecodeError} :
    take n c = .error e ↔ c.remaining < n ∧ e = .truncatedInput c.offset := by
  unfold take
  by_cases h : c.holds n = true
  · have hn := (c.holds_iff n).1 h
    simp only [h, if_true, reduceCtorEq, false_iff, not_and]
    omega
  · have hn : c.remaining < n := by
      have := mt (c.holds_iff n).2 h
      omega
    simp [h, hn, eq_comm]

/-- Passes over the next `n` bytes. -/
def skip (n : Nat) : Read Unit := do
  let _ ← take n

/-- Fails unless `n` bytes are ahead; moves nothing. -/
def expect (n : Nat) : Read Unit := fun c =>
  if c.holds n then .ok ((), c) else .error (.truncatedInput c.offset)

/-! ## 3. Numbers -/

/-- The unsigned number in the next `width` bytes. -/
def unsigned (width : Nat) : Read Nat := BigEndian.ofBytes <$> take width

/-- An unsigned number of one byte. -/
def u8 : Read UInt8 := UInt8.ofNat <$> unsigned 1

/-- An unsigned number of two bytes. -/
def u16 : Read UInt16 := UInt16.ofNat <$> unsigned 2

/-- An unsigned number of four bytes. -/
def u32 : Read UInt32 := UInt32.ofNat <$> unsigned 4

/-- An unsigned number of eight bytes. -/
def u64 : Read UInt64 := UInt64.ofNat <$> unsigned 8

/-- A number of one byte in two's complement. -/
def i8 : Read Int8 := UInt8.toInt8 <$> u8

/-- A number of two bytes in two's complement. -/
def i16 : Read Int16 := UInt16.toInt16 <$> u16

/-- A number of four bytes in two's complement. -/
def i32 : Read Int32 := UInt32.toInt32 <$> u32

/-- A number of eight bytes in two's complement. -/
def i64 : Read Int64 := UInt64.toInt64 <$> u64

/-! ## 4. Repetition -/

/-- Reads `count` items in a row behind those already read, which are kept last first. -/
def repeatOnto {α : Type} (read : Read α) :
    (count : Nat) → List α → Cursor → Except DecodeError (List α × Cursor)
  | 0, done, c => .ok (done.reverse, c)
  | count + 1, done, c =>
    match read c with
    | .ok (a, c') => repeatOnto read count (a :: done) c'
    | .error e => .error e

/-- Reads `count` items in a row. -/
def times {α : Type} (count : Nat) (read : Read α) : Read (List α) :=
  fun c => repeatOnto read count [] c

theorem repeatOnto_eq {α : Type} (read : Read α) :
    ∀ (count : Nat) (done : List α) (c : Cursor),
      repeatOnto read count done c =
        (repeatOnto read count [] c).map (fun p => (done.reverse ++ p.1, p.2))
  | 0, done, c => by simp [repeatOnto, Except.map]
  | count + 1, done, c => by
      unfold repeatOnto
      cases read c with
      | error e => rfl
      | ok p =>
        simp only
        rw [repeatOnto_eq read count (p.1 :: done), repeatOnto_eq read count [p.1]]
        cases repeatOnto read count [] p.2 <;> simp [Except.map]

@[simp] theorem times_zero {α : Type} (read : Read α) (c : Cursor) :
    times 0 read c = .ok ([], c) := rfl

/-- **Reading one item more is reading one and then the others.** -/
theorem times_succ {α : Type} (count : Nat) (read : Read α) (c : Cursor) :
    times (count + 1) read c =
      match read c with
      | .ok (a, c') => (times count read c').map (fun p => (a :: p.1, p.2))
      | .error e => .error e := by
  unfold times
  rw [repeatOnto]
  cases read c with
  | error e => rfl
  | ok p =>
    simp only
    rw [repeatOnto_eq]
    simp

/-- A count of two bytes and as many items behind it. -/
def table {α : Type} (item : Read α) : Read (List α) := do
  let count ← u16
  times count.toNat item

/-! ## 5. Readers in a row -/

section Laws

variable {α β : Type}

theorem pure_apply (a : α) (c : Cursor) : (pure a : Read α) c = .ok (a, c) := rfl

/-- The second of two readers starts where the first one stopped. -/
theorem bind_apply (read : Read α) (next : α → Read β) (c : Cursor) :
    (read >>= next) c =
      match read c with
      | .ok (a, c') => next a c'
      | .error e => .error e := by
  have h : (read >>= next) c = (read c >>= fun p => next p.1 p.2) := rfl
  rw [h]
  cases read c <;> rfl

theorem bind_of_ok {read : Read α} {next : α → Read β} {c mid : Cursor} {a : α}
    (h : read c = .ok (a, mid)) : (read >>= next) c = next a mid := by
  rw [bind_apply, h]

/-- Two readers in a row succeed exactly when both do. -/
theorem bind_eq_ok_iff {read : Read α} {next : α → Read β} {c c' : Cursor} {b : β} :
    (read >>= next) c = .ok (b, c') ↔
      ∃ a mid, read c = .ok (a, mid) ∧ next a mid = .ok (b, c') := by
  rw [bind_apply]
  cases h : read c with
  | error e => exact ⟨fun h' => (nomatch h'), fun ⟨_, _, h', _⟩ => (nomatch h')⟩
  | ok p =>
    refine ⟨fun h' => ⟨p.1, p.2, rfl, h'⟩, ?_⟩
    rintro ⟨a, mid, h', hnext⟩
    cases h'
    exact hnext

/-- Two readers in a row fail as the first one that fails. -/
theorem bind_eq_error_iff {read : Read α} {next : α → Read β} {c : Cursor} {e : DecodeError} :
    (read >>= next) c = .error e ↔
      read c = .error e ∨ ∃ a mid, read c = .ok (a, mid) ∧ next a mid = .error e := by
  rw [bind_apply]
  cases h : read c with
  | error e' =>
    refine ⟨fun h' => .inl (by cases h'; rfl), ?_⟩
    rintro (h' | ⟨_, _, h', _⟩)
    · cases h'
      rfl
    · exact nomatch h'
  | ok p =>
    refine ⟨fun h' => .inr ⟨p.1, p.2, rfl, h'⟩, ?_⟩
    rintro (h' | ⟨a, mid, h', hnext⟩)
    · exact nomatch h'
    · cases h'
      exact hnext

/-- A function applied to what is read changes nothing else. -/
theorem map_eq_ok_iff {read : Read α} {f : α → β} {c c' : Cursor} {b : β} :
    (f <$> read) c = .ok (b, c') ↔ ∃ a, read c = .ok (a, c') ∧ b = f a := by
  have h : (f <$> read) c = (read >>= fun a => pure (f a)) c := rfl
  rw [h, bind_eq_ok_iff]
  refine ⟨?_, ?_⟩
  · rintro ⟨a, mid, hread, hpure⟩
    rw [pure_apply] at hpure
    cases hpure
    exact ⟨a, hread, rfl⟩
  · rintro ⟨a, hread, rfl⟩
    exact ⟨a, c', hread, rfl⟩

/-- A function applied to what is read fails where the reader does. -/
theorem map_eq_error_iff {read : Read α} {f : α → β} {c : Cursor} {e : DecodeError} :
    (f <$> read) c = .error e ↔ read c = .error e := by
  have h : (f <$> read) c = (read >>= fun a => pure (f a)) c := rfl
  rw [h, bind_eq_error_iff]
  refine ⟨?_, .inl⟩
  rintro (hread | ⟨_, _, _, hpure⟩)
  · exact hread
  · exact nomatch hpure

/-- A look-up beside the bytes moves nothing. -/
theorem lift_apply (x : Outcome α) (c : Cursor) :
    (liftM x : Read α) c = (fun a => (a, c)) <$> x := by
  cases x <;> rfl

theorem lift_bind_apply (x : Outcome α) (next : α → Read β) (c : Cursor) :
    ((liftM x : Read α) >>= next) c = x >>= fun a => next a c := by
  cases x <;> rfl

/-- Asking for the cursor moves nothing. -/
theorem get_bind_apply (next : Cursor → Read α) (c : Cursor) :
    (MonadState.get >>= next) c = next c c := rfl

end Laws

end Cursor

end ClassView
