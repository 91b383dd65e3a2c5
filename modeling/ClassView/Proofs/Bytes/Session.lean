import ClassView.Bytes.Request
import ClassView.Proofs.Extent
import ClassView.Proofs.Outcome

/-!
# A session with a cursor

Requests are served one after the other, some with success and some without. A request that needs
more bytes than are ahead changes nothing, so that the session goes on as if it had not been made.
All others take exactly the bytes that they need.

* `Request.meaning`: what a request answers, told by the bytes that it takes;
* `BigEndian.toInt_eq_signedOfBytes`: two's complement;
* `Request.read_of_le`, `Request.read_of_lt`: the two outcomes of a request;
* `Cursor.takeWithin`, **`Cursor.takeWithin_eq`**: taking bytes with numbers of bounded size;
* `Cursor.StandsIn`, `Request.IsServed`, `Request.InOrder`: what is true of a cursor at every
  moment, of every request and of a whole session;
* `Request.serve_isServed`, `Request.serve_standsIn`: one request keeps to it;
* `Request.serveAll_eraseIdx`, `Request.serveAll_shift`: a session without a request that failed,
  and one whose bytes were cut out further on;
* **`Request.serveAll_exact`**: every session keeps to it.
-/

namespace ClassView

/-! ## 1. What is answered -/

/-- The number that the bytes stand for in two's complement: it is negative if their first bit is
    set. -/
def BigEndian.signedOfBytes (bytes : List UInt8) : Int :=
  if 2 * ofBytes bytes < capacity bytes.length then ofBytes bytes
  else (ofBytes bytes : Int) - capacity bytes.length

/-- What a request answers, told by the bytes that it takes. -/
def Request.meaning : Request → List UInt8 → Answer
  | .unsigned _, taken => .unsigned (BigEndian.ofBytes taken)
  | .signed _, taken => .signed (BigEndian.signedOfBytes taken)
  | .float, taken => .float (UInt32.ofNat (BigEndian.ofBytes taken))
  | .double, taken => .double (UInt64.ofNat (BigEndian.ofBytes taken))
  | .bytes _, taken => .bytes taken
  | .skip _, _ => .done

namespace BigEndian

variable {bytes : List UInt8}

theorem ofBytes_lt_of_length {width : Nat} (h : bytes.length = width) :
    ofBytes bytes < capacity width := h ▸ ofBytes_lt bytes

/-- A row of bits that is, without sign, the number of a byte string as wide as it is the number of
    that string in two's complement with sign. -/
theorem toInt_eq_signedOfBytes {n : Nat} {x : BitVec n} (hvalue : x.toNat = ofBytes bytes)
    (hwidth : capacity bytes.length = Nat.pow 2 n) : x.toInt = signedOfBytes bytes := by
  rw [BitVec.toInt_eq_toNat_cond, hvalue, signedOfBytes, hwidth]
  rfl

end BigEndian

/-! ## 2. One request -/

namespace Cursor

variable {α β : Type} {c c' : Cursor}

theorem map_of_ok {read : Read α} {f : α → β} {a : α} {b : β} (h : read c = .ok (a, c'))
    (hb : f a = b) : (f <$> read) c = .ok (b, c') := map_eq_ok_iff.2 ⟨a, h, hb.symm⟩

theorem map_of_error {read : Read α} {f : α → β} {e : DecodeError} (h : read c = .error e) :
    (f <$> read) c = .error e := map_eq_error_iff.2 h

end Cursor

namespace Request

variable {c : Cursor} {request : Request}

/-- Where enough bytes are ahead, a request takes these and answers what they mean. -/
theorem read_of_le (h : request.size ≤ c.remaining) : request.read c =
    .ok (request.meaning (c.rest.take request.size), c.advance request.size) := by
  have htake := Cursor.take_of_le h
  have hlen : (c.rest.take request.size).length = request.size := List.length_take_of_le h
  have hlt := BigEndian.ofBytes_lt_of_length hlen
  have hnumber := Cursor.map_of_ok (f := BigEndian.ofBytes) htake rfl
  -- every reader is a row of maps behind `take`; the cases differ in what the last of them answers
  cases request with
  | unsigned width =>
    have hanswer {n : Nat} (hn : n = BigEndian.ofBytes (c.rest.take width.bytes)) :=
      congrArg Answer.unsigned hn
    cases width with
    | one =>
      have hvalue := hanswer (UInt8.toNat_ofNat_of_lt' hlt)
      exact Cursor.map_of_ok (Cursor.map_of_ok hnumber rfl) hvalue
    | two =>
      have hvalue := hanswer (UInt16.toNat_ofNat_of_lt' hlt)
      exact Cursor.map_of_ok (Cursor.map_of_ok hnumber rfl) hvalue
    | four =>
      have hvalue := hanswer (UInt32.toNat_ofNat_of_lt' hlt)
      exact Cursor.map_of_ok (Cursor.map_of_ok hnumber rfl) hvalue
    | eight =>
      have hvalue := hanswer (UInt64.toNat_ofNat_of_lt' hlt)
      exact Cursor.map_of_ok (Cursor.map_of_ok hnumber rfl) hvalue
  | signed width =>
    have hanswer {n : Nat} {x : BitVec n}
        (hx : x.toNat = BigEndian.ofBytes (c.rest.take width.bytes))
        (hn : BigEndian.capacity width.bytes = Nat.pow 2 n) :=
      congrArg Answer.signed
        (BigEndian.toInt_eq_signedOfBytes hx ((congrArg BigEndian.capacity hlen).trans hn))
    cases width with
    | one =>
      have hvalue := hanswer (UInt8.toNat_ofNat_of_lt' hlt) rfl
      exact Cursor.map_of_ok (Cursor.map_of_ok (Cursor.map_of_ok hnumber rfl) rfl) hvalue
    | two =>
      have hvalue := hanswer (UInt16.toNat_ofNat_of_lt' hlt) rfl
      exact Cursor.map_of_ok (Cursor.map_of_ok (Cursor.map_of_ok hnumber rfl) rfl) hvalue
    | four =>
      have hvalue := hanswer (UInt32.toNat_ofNat_of_lt' hlt) rfl
      exact Cursor.map_of_ok (Cursor.map_of_ok (Cursor.map_of_ok hnumber rfl) rfl) hvalue
    | eight =>
      have hvalue := hanswer (UInt64.toNat_ofNat_of_lt' hlt) rfl
      exact Cursor.map_of_ok (Cursor.map_of_ok (Cursor.map_of_ok hnumber rfl) rfl) hvalue
  | float => exact Cursor.map_of_ok (Cursor.map_of_ok hnumber rfl) rfl
  | double => exact Cursor.map_of_ok (Cursor.map_of_ok hnumber rfl) rfl
  | bytes count => exact Cursor.map_of_ok htake rfl
  | skip count => exact Cursor.map_of_ok (Cursor.bind_of_ok htake) rfl

/-- Where there are not enough, it reports where the cursor stands. -/
theorem read_of_lt (h : c.remaining < request.size) :
    request.read c = .error (.truncatedInput c.offset) := by
  have htake := Cursor.take_eq_error_iff.2 ⟨h, rfl⟩
  have hnumber := Cursor.map_of_error (f := BigEndian.ofBytes) htake
  have hsized {α : Type} (f : Nat → α) := Cursor.map_of_error (f := f) hnumber
  cases request with
  | unsigned width => cases width <;> exact Cursor.map_of_error (hsized _)
  | signed width => cases width <;> exact Cursor.map_of_error (Cursor.map_of_error (hsized _))
  | float => exact Cursor.map_of_error (hsized _)
  | double => exact Cursor.map_of_error (hsized _)
  | bytes count => exact Cursor.map_of_error htake
  | skip count => exact Cursor.map_of_error (Cursor.bind_eq_error_iff.2 (.inl htake))

theorem serve_of_le (h : request.size ≤ c.remaining) : serve c request =
    ⟨.ok (request.meaning (c.rest.take request.size)), c.advance request.size⟩ := by
  rw [serve, read_of_le h]

theorem serve_of_lt (h : c.remaining < request.size) :
    serve c request = ⟨.error (.truncatedInput c.offset), c⟩ := by
  rw [serve, read_of_lt h]

/-- A request that fails leaves the cursor where it is. -/
theorem serve_cursor_of_error {e : DecodeError} (h : (serve c request).outcome = .error e) :
    (serve c request).cursor = c := by
  rcases Nat.lt_or_ge c.remaining request.size with hlt | hle
  · rw [serve_of_lt hlt]
  · rw [serve_of_le hle] at h
    exact nomatch h

end Request

/-! ## 3. Numbers of bounded size -/

namespace Cursor

variable {bytes : List UInt8} {base limit : Nat} {c : Cursor}

/-- Where the next `n` bytes end, if that is a number up to the limit. -/
def endWithin (limit n : Nat) (c : Cursor) : Option Nat :=
  if c.position + n ≤ limit then some (c.position + n) else none

/-- Takes the next `n` bytes with numbers up to the limit: where they end is computed first, and
    only then compared with where the string ends. -/
def takeWithin (limit n : Nat) : Read (List UInt8) := fun c =>
  match c.endWithin limit n with
  | none => .error (.truncatedInput c.offset)
  | some stop =>
    if stop ≤ c.position + c.remaining then
      .ok (c.rest.take (stop - c.position), c.advance (stop - c.position))
    else .error (.truncatedInput c.offset)

/-- **Where the string ends within the limit, the limit makes no difference**: an end that is no
    number up to the limit is behind the string. -/
theorem takeWithin_eq (h : c.position + c.remaining ≤ limit) (n : Nat) :
    takeWithin limit n c = take n c := by
  unfold takeWithin endWithin
  by_cases hle : n ≤ c.remaining
  · have hend : c.position + n ≤ c.position + c.remaining := Nat.add_le_add_left hle _
    rw [if_pos (Nat.le_trans hend h), take_of_le hle]
    simp only [hend, if_true, Nat.add_sub_cancel_left]
  · have htake := take_eq_error_iff.2 ⟨Nat.lt_of_not_le hle, rfl⟩
    have hend : ¬ c.position + n ≤ c.position + c.remaining := by omega
    rw [htake]
    by_cases hlimit : c.position + n ≤ limit
    · simp only [hlimit, hend, if_true, if_false]
    · simp only [hlimit, if_false]

/-- A cursor stands in a byte string that starts `base` bytes into a larger one, and all that it
    counts is within the limit. -/
structure StandsIn (bytes : List UInt8) (base limit : Nat) (c : Cursor) : Prop where
  position_le : c.position ≤ bytes.length
  base_eq : c.base = base
  rest_eq : c.rest = bytes.drop c.position
  remaining_eq : c.remaining = bytes.length - c.position
  offset_eq : c.offset = base + c.position
  offset_le : c.offset ≤ limit
  isEmpty_iff : c.isEmpty = true ↔ c.position = bytes.length
  /-- The bounded numbers take the same bytes. -/
  take_eq : ∀ n, takeWithin limit n c = take n c

/-- Everything follows from where the cursor is and what is ahead of it. -/
theorem standsIn (hlimit : base + bytes.length ≤ limit) (hposition : c.position ≤ bytes.length)
    (hbase : c.base = base) (hrest : c.rest = bytes.drop c.position) :
    c.StandsIn bytes base limit where
  position_le := hposition
  base_eq := hbase
  rest_eq := hrest
  remaining_eq := by rw [remaining, hrest, List.length_drop]
  offset_eq := by rw [offset, hbase]
  offset_le := by
    rw [offset, hbase]
    omega
  isEmpty_iff := by
    rw [isEmpty, hrest, List.isEmpty_iff, List.drop_eq_nil_iff]
    omega
  take_eq := by
    refine takeWithin_eq ?_
    rw [remaining, hrest, List.length_drop]
    omega

theorem ofBytes_standsIn (hlimit : base + bytes.length ≤ limit) :
    (ofBytes bytes base).StandsIn bytes base limit :=
  standsIn hlimit (Nat.zero_le _) rfl rfl

theorem StandsIn.advance {n : Nat} (h : c.StandsIn bytes base limit)
    (hlimit : base + bytes.length ≤ limit) (hn : n ≤ c.remaining) :
    (c.advance n).StandsIn bytes base limit := by
  have hremaining := h.remaining_eq
  have hle := h.position_le
  have hposition : (c.advance n).position ≤ bytes.length := by
    show c.position + n ≤ bytes.length
    omega
  refine standsIn hlimit hposition h.base_eq ?_
  show c.rest.drop n = bytes.drop (c.position + n)
  rw [h.rest_eq, List.drop_drop]

end Cursor

/-! ## 4. One request keeps to it -/

namespace Request

variable {bytes : List UInt8} {base limit : Nat} {c : Cursor} {request : Request}

/-- What it is to serve a request from a cursor in a byte string: all of it or nothing. -/
structure IsServed (bytes : List UInt8) (base limit : Nat) (before : Cursor) (request : Request)
    (served : Served) : Prop where
  succeeds_iff : served.outcome.Succeeds ↔ request.size ≤ before.remaining
  /-- The answer is what exactly the next bytes mean, and the cursor is behind them. -/
  answer : ∀ a, served.outcome = .ok a → ∃ taken,
    taken.length = request.size ∧ taken <+: bytes.drop before.position ∧
      a = request.meaning taken ∧ served.cursor.position = before.position + request.size
  fault : ∀ e, served.outcome = .error e →
    e = .truncatedInput (base + before.position) ∧ served.cursor = before
  /-- An end that is no number up to the limit is one behind the string. -/
  overflow : limit < before.position + request.size →
    served.outcome = .error (.truncatedInput (base + before.position))

/-- A request is served, all of it or nothing. -/
theorem serve_isServed (h : c.StandsIn bytes base limit) (hlimit : base + bytes.length ≤ limit)
    (request : Request) : IsServed bytes base limit c request (serve c request) := by
  have hposition := h.position_le
  have hremaining := h.remaining_eq
  rcases Nat.lt_or_ge c.remaining request.size with hlt | hle
  · have hserve := serve_of_lt hlt
    rw [h.offset_eq] at hserve
    rw [hserve]
    exact {
      succeeds_iff := ⟨fun ⟨_, hok⟩ => (nomatch hok), fun hle => absurd hle (Nat.not_le.2 hlt)⟩
      answer := fun _ hok => nomatch hok
      fault := fun _ herror => ⟨(Except.error.inj herror).symm, rfl⟩
      overflow := fun _ => rfl }
  · have htaken : c.rest.take request.size <+: bytes.drop c.position := by
      rw [h.rest_eq]
      exact List.take_prefix _ _
    rw [serve_of_le hle]
    exact {
      succeeds_iff := ⟨fun _ => hle, fun _ => ⟨_, rfl⟩⟩
      answer := fun _ hok =>
        ⟨_, List.length_take_of_le hle, htaken, (Except.ok.inj hok).symm, rfl⟩
      fault := fun _ herror => nomatch herror
      overflow := fun hover => by omega }

/-- Afterwards the cursor still stands in the byte string. -/
theorem serve_standsIn (h : c.StandsIn bytes base limit) (hlimit : base + bytes.length ≤ limit)
    (request : Request) : (serve c request).cursor.StandsIn bytes base limit := by
  rcases Nat.lt_or_ge c.remaining request.size with hlt | hle
  · rw [serve_of_lt hlt]
    exact h
  · rw [serve_of_le hle]
    exact h.advance hlimit hle

/-! ## 5. A whole session -/

/-- A session in order: the cursor stands in the byte string at every moment, and every request is
    served, all of it or nothing, from where the one before left the cursor. -/
inductive InOrder (bytes : List UInt8) (base limit : Nat) :
    Cursor → List Request → List Served → Prop where
  | done {c : Cursor} (hstands : c.StandsIn bytes base limit) : InOrder bytes base limit c [] []
  | serve {c : Cursor} {request : Request} {served : Served} {requests : List Request}
      {run : List Served} (hstands : c.StandsIn bytes base limit)
      (hserved : IsServed bytes base limit c request served)
      (hrun : InOrder bytes base limit served.cursor requests run) :
      InOrder bytes base limit c (request :: requests) (served :: run)

theorem serveAll_inOrder (h : c.StandsIn bytes base limit) (hlimit : base + bytes.length ≤ limit)
    (requests : List Request) : InOrder bytes base limit c requests (serveAll c requests) := by
  induction requests generalizing c with
  | nil => exact .done h
  | cons request requests ih =>
    exact .serve h (serve_isServed h hlimit request) (ih (serve_standsIn h hlimit request))

/-- A session goes on behind a request that failed as if it had not been made. -/
theorem serveAll_eraseIdx {requests : List Request} {i : Nat} {served : Served} {e : DecodeError}
    (hserved : (serveAll c requests)[i]? = some served) (herror : served.outcome = .error e) :
    serveAll c (requests.eraseIdx i) = (serveAll c requests).eraseIdx i := by
  induction requests generalizing c i with
  | nil => exact nomatch hserved
  | cons request requests ih =>
    cases i with
    | zero =>
      cases Option.some.inj hserved
      show serveAll c requests = serveAll (serve c request).cursor requests
      rw [serve_cursor_of_error herror]
    | succ i => exact congrArg (serve c request :: ·) (ih hserved)

end Request

/-! ## 6. Where the bytes were cut out -/

variable {k : Nat}

/-- The same place in the same byte string, which is cut out `k` bytes further on. -/
def Cursor.shift (k : Nat) (c : Cursor) : Cursor := { c with base := c.base + k }

/-- The same fault, if it is that the bytes run out, `k` bytes further on. -/
def DecodeError.shift (k : Nat) : DecodeError → DecodeError
  | .truncatedInput offset => .truncatedInput (offset + k)
  | e => e

/-- The same answer or the same fault `k` bytes further on. -/
def Request.Served.shift (k : Nat) (served : Served) : Served :=
  ⟨served.outcome.mapError (DecodeError.shift k), served.cursor.shift k⟩

namespace Request

variable {bytes : List UInt8} {base limit : Nat} {c : Cursor}

theorem serve_shift (request : Request) :
    serve (c.shift k) request = (serve c request).shift k := by
  rcases Nat.lt_or_ge c.remaining request.size with hlt | hle
  · have hoffset : (c.shift k).offset = c.offset + k := Nat.add_right_comm _ _ _
    have hlt' : (c.shift k).remaining < request.size := hlt
    rw [serve_of_lt hlt, serve_of_lt hlt', hoffset]
    rfl
  · have hle' : request.size ≤ (c.shift k).remaining := hle
    rw [serve_of_le hle, serve_of_le hle']
    rfl

theorem serveAll_shift (requests : List Request) :
    serveAll (c.shift k) requests = (serveAll c requests).map (Served.shift k) := by
  induction requests generalizing c with
  | nil => rfl
  | cons request requests ih =>
    rw [serveAll, serveAll, serve_shift, List.map_cons, ← ih]
    rfl

/-- **Every session with a cursor is exact, request by request.** Requests are served in order, all
    of each or nothing of it; the ones that fail could as well not have been made; and where the
    bytes were cut out changes nothing but the offsets that are reported. -/
theorem serveAll_exact (hlimit : base + bytes.length ≤ limit) (requests : List Request) :
    InOrder bytes base limit (.ofBytes bytes base) requests
        (serveAll (.ofBytes bytes base) requests) ∧
      (∀ i served e, (serveAll (.ofBytes bytes base) requests)[i]? = some served →
        served.outcome = .error e →
          serveAll (.ofBytes bytes base) (requests.eraseIdx i) =
            (serveAll (.ofBytes bytes base) requests).eraseIdx i) ∧
      serveAll (.ofBytes bytes base) requests =
        (serveAll (.ofBytes bytes 0) requests).map (Served.shift base) := by
  have hstart : Cursor.ofBytes bytes base = (Cursor.ofBytes bytes 0).shift base := by
    rw [Cursor.shift, Cursor.ofBytes, Cursor.ofBytes, Nat.zero_add]
  refine ⟨serveAll_inOrder (Cursor.ofBytes_standsIn hlimit) hlimit requests, ?_, ?_⟩
  · intro i served e hserved herror
    exact serveAll_eraseIdx hserved herror
  · rw [hstart]
    exact serveAll_shift requests

/-- A session in which two requests fail between two that succeed, one of them because where it
    would end is no number of 64 bits. -/
theorem serveAll_exact_pastEnd :
    let bytes : List UInt8 := [0xFF, 0x01, 0x02]
    let requests := [.signed .two, .unsigned .four, .skip 18446744073709551615, .unsigned .one]
    let run := [⟨.ok (.signed (-255)), ⟨[0x02], 2, 100⟩⟩,
      ⟨.error (.truncatedInput 102), ⟨[0x02], 2, 100⟩⟩,
      ⟨.error (.truncatedInput 102), ⟨[0x02], 2, 100⟩⟩, ⟨.ok (.unsigned 2), ⟨[], 3, 100⟩⟩]
    serveAll (.ofBytes bytes 100) requests = run ∧
      InOrder bytes 100 18446744073709551615 (.ofBytes bytes 100) requests run ∧
      serveAll (.ofBytes bytes 100) (requests.eraseIdx 1) = run.eraseIdx 1 := by
  intro bytes requests run
  have hrun : serveAll (.ofBytes bytes 100) requests = run := rfl
  have hexact := @serveAll_exact bytes 100 18446744073709551615 (by decide) requests
  rw [hrun] at hexact
  exact ⟨hrun, hexact.1, hexact.2.1 1 _ _ rfl rfl⟩

end Request

end ClassView
