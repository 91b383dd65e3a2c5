import ClassView.Proofs.Attribute.Reading
import ClassView.Proofs.Extent
import ClassView.Proofs.Pool.LookUp

/-!
# Frames of attributes and the faults in them

What `Attribute.read` answers, told by the bytes ahead alone. The frame of an attribute is taken
before anything in it is looked at, so the file is truncated exactly if a frame at its own level
does not fit. Inside of a frame the first fault in reading order decides, and a body that runs out
or has bytes left is blamed on the attribute whose body it is.

* `Attribute.FrameFits`, `Attribute.neededLength`: what the lengths and counts in the bytes ask for;
* `Attribute.BodyFault`, `Attribute.FrameFault`: the faults of bodies and of frames, at every depth;
* `Attribute.ofBody_eq_error_iff`: a body fails with just its faults;
* **`Attribute.read_framing`**: what becomes of an attribute, wherever it stands.
-/

namespace ClassView

/-- Only a body that runs out is told differently outside of it. -/
theorem DecodeError.outside_eq {e : DecodeError} (h : ∀ o, e ≠ .truncatedInput o)
    (name : AttributeName) : e.outside name = e := by
  cases e with
  | truncatedInput o => exact absurd rfl (h o)
  | _ => rfl

theorem DecodeError.IsReference.ne_truncatedInput {e : DecodeError} (h : e.IsReference) (o : Nat) :
    e ≠ .truncatedInput o := by
  rintro rfl
  exact h

namespace Attribute

open BigEndian (numberAt numberAt_lt)

variable {pool : ConstantPool} {nested : Read (List Attribute)} {c : Cursor}

/-! ## 1. Frames -/

/-- The index of the name that a frame starts with. -/
def frameIndex (bytes : List UInt8) : UInt16 := UInt16.ofNat (numberAt bytes 0 2)

/-- The length that a frame declares for its body. -/
def frameLength (bytes : List UInt8) : Nat := numberAt bytes 2 4

/-- The body of a frame. -/
def frameBody (bytes : List UInt8) : List UInt8 := (bytes.drop 6).take (frameLength bytes)

/-- A whole frame is at the front of the bytes: an index, a length and as many bytes as it says. -/
def FrameFits (bytes : List UInt8) : Prop :=
  6 ≤ bytes.length ∧ frameLength bytes ≤ bytes.length - 6

instance (bytes : List UInt8) : Decidable (FrameFits bytes) :=
  inferInstanceAs (Decidable (_ ∧ _))

/-- The attribute in a frame whose body starts `base` bytes into the file. -/
def content (pool : ConstantPool) (nested : Read (List Attribute)) (index : UInt16)
    (body : List UInt8) (base : Nat) : Outcome Attribute := do
  let text ← pool.text index
  match AttributeName.ofText? text with
  | some name => ofBody nested name (Cursor.ofBytes body base)
  | none => return .unknown index body

theorem frameLength_lt (bytes : List UInt8) : frameLength bytes < 4294967296 :=
  numberAt_lt bytes 2 4

/-- A frame that fits is passed over as a whole, and its content alone decides. -/
theorem read_of_fits (h : FrameFits c.rest) :
    read pool nested c =
      (fun a => (a, c.advance (6 + frameLength c.rest))) <$>
        content pool nested (frameIndex c.rest) (frameBody c.rest) (c.offset + 6) := by
  have hsix : 6 ≤ c.remaining := h.1
  have hlength : frameLength c.rest ≤ c.remaining - 6 := h.2
  have hindex : Cursor.u16 c = .ok (frameIndex c.rest, c.advance 2) :=
    Cursor.u16_of_le (by omega)
  have hcount : Cursor.u32 (c.advance 2) =
      .ok (UInt32.ofNat (frameLength c.rest), c.advance 6) := by
    rw [Cursor.u32_of_le (by rw [Cursor.remaining_advance]; omega), Cursor.numberAt_advance,
      Cursor.advance_advance]
    rfl
  have hbody : Cursor.take (UInt32.ofNat (frameLength c.rest)).toNat (c.advance 6) =
      .ok (frameBody c.rest, c.advance (6 + frameLength c.rest)) := by
    rw [UInt32.toNat_ofNat_of_lt' (frameLength_lt c.rest),
      Cursor.take_of_le (by rw [Cursor.remaining_advance]; exact hlength), Cursor.advance_advance]
    rfl
  have hoffset : (c.advance 6).offset = c.offset + 6 := (Nat.add_assoc _ _ _).symm
  unfold read content
  rw [Cursor.bind_of_ok hindex, Cursor.bind_of_ok hcount, Cursor.get_bind_apply,
    Cursor.bind_of_ok hbody, hoffset, Cursor.lift_bind_apply, map_bind]
  refine bind_congr fun text => ?_
  cases AttributeName.ofText? text with
  | none => rfl
  | some name => exact Cursor.lift_apply _ _

/-- A frame that does not fit runs out. -/
theorem short_of_not_fits (h : ¬ FrameFits c.rest) : Short (read pool nested) c := by
  refine Short.bind (Takes.u16 c) fun index htwo _ => ?_
  refine Short.bind (Takes.u32 _) fun length hfour hlength => Short.get ?_
  rw [Cursor.u32_of_le hfour, Cursor.numberAt_advance] at hlength
  obtain ⟨rfl, _⟩ := Prod.mk.inj (Except.ok.inj hlength)
  rw [Cursor.remaining_advance] at hfour
  refine Short.bind (Takes.take _ _) fun body hbody _ => ?_
  have htoNat : (UInt32.ofNat (numberAt c.rest (2 + 0) 4)).toNat = frameLength c.rest :=
    UInt32.toNat_ofNat_of_lt' (frameLength_lt c.rest)
  rw [htoNat, Cursor.advance_advance, Cursor.remaining_advance] at hbody
  have hsix : 6 ≤ c.remaining := by omega
  exact absurd ⟨hsix, hbody⟩ h

/-! ## 2. Lengths that bodies ask for -/

/-- The length that a body of code declares for the code is one that code can have. -/
def HasCodeLength (body : List UInt8) : Prop := 0 < numberAt body 4 4 ∧ numberAt body 4 4 < 65536

/-- How many bytes of code stand in front of the attributes that it carries, as the length of the
    code and the count of its handlers tell. -/
def frontLength (body : List UInt8) : Nat :=
  8 + numberAt body 4 4 + (2 + 8 * numberAt body (8 + numberAt body 4 4) 2)

/-- How many bytes a body has to have, as the counts in it tell. Code ends here with the count of
    the attributes that it carries. -/
def neededLength (body : List UInt8) : AttributeName → Nat
  | .code => frontLength body + 2
  | .constantValue | .sourceFile | .signature => 2
  | .exceptions => 2 + 2 * numberAt body 0 2
  | .lineNumberTable => 2 + 4 * numberAt body 0 2
  | .localVariableTable => 2 + 10 * numberAt body 0 2
  | .deprecated | .synthetic => 0

theorem takes_handler (c : Cursor) : Takes readHandler 8 c :=
  (Takes.u16 _).bind fun _ _ _ => (Takes.u16 _).bind fun _ _ _ => (Takes.u16 _).bind fun _ _ _ =>
    (Takes.u16 _).bind fun _ _ _ => Takes.pure _ _

theorem takes_lineNumber (c : Cursor) : Takes readLineNumber 4 c :=
  (Takes.u16 _).bind fun _ _ _ => (Takes.u16 _).bind fun _ _ _ => Takes.pure _ _

theorem takes_localVariable (c : Cursor) : Takes readLocalVariable 10 c :=
  (Takes.u16 _).bind fun _ _ _ => (Takes.u16 _).bind fun _ _ _ => (Takes.u16 _).bind fun _ _ _ =>
    (Takes.u16 _).bind fun _ _ _ => (Takes.u16 _).bind fun _ _ _ => Takes.pure _ _

/-- A body other than code takes what it asks for. -/
theorem takes_leaf {name : AttributeName} (h : name ≠ .code) (c : Cursor) :
    Takes (readBody nested name) (neededLength c.rest name) c := by
  cases name with
  | code => exact absurd rfl h
  | constantValue | sourceFile | signature => exact (Takes.u16 c).map _
  | exceptions => exact (Takes.table Takes.u16 c).map _
  | lineNumberTable => exact (Takes.table takes_lineNumber c).map _
  | localVariableTable => exact (Takes.table takes_localVariable c).map _
  | deprecated | synthetic => exact Takes.pure _ c

/-- Code is read in two parts: what stands in front of the attributes that it carries, and these. -/
theorem readCode_eq (nested : Read (List Attribute)) :
    readCode nested = readCode (pure []) >>= fun front =>
      (fun attributes => { front with attributes }) <$> nested := by
  unfold readCode
  simp only [bind_assoc, pure_bind, map_eq_pure_bind]
  refine bind_congr fun maxStack => bind_congr fun maxLocals => bind_congr fun length => ?_
  by_cases h : length = 0 ∨ 65536 ≤ length
  · simp only [if_pos h, bind_assoc]
    rfl
  · simp only [if_neg h, bind_assoc, pure_bind]

theorem not_hasCodeLength_iff (body : List UInt8) :
    ¬ HasCodeLength body ↔ numberAt body 4 4 = 0 ∨ 65536 ≤ numberAt body 4 4 := by
  rw [HasCodeLength]
  omega

/-- The test of the length of code, said of the number that stands in the body. -/
theorem isBadLength_numberAt_iff (body : List UInt8) :
    (UInt32.ofNat (numberAt body 4 4) = 0 ∨ 65536 ≤ UInt32.ofNat (numberAt body 4 4)) ↔
      ¬ HasCodeLength body := by
  rw [isBadLength_iff, UInt32.toNat_ofNat_of_lt' (numberAt_lt body 4 4)]
  exact (not_hasCodeLength_iff body).symm

/-- The part in front takes what it asks for, unless there is a length that code cannot have. -/
theorem takes_front (h : 8 ≤ c.remaining → HasCodeLength c.rest) :
    Takes (readCode (pure [])) (frontLength c.rest) c := by
  have hsplit : frontLength c.rest = 2 + (2 + (4 + (numberAt c.rest 4 4 +
      (2 + 8 * numberAt c.rest (8 + numberAt c.rest 4 4) 2 + (0 + 0))))) := by
    rw [frontLength]
    omega
  rw [hsplit]
  refine (Takes.u16 c).bind fun maxStack _ _ => (Takes.u16 _).bind fun maxLocals _ _ =>
    (Takes.u32 _).bind fun length hfour hlength => ?_
  rw [Cursor.u32_of_le hfour, Cursor.advance_advance, Cursor.numberAt_advance] at hlength
  obtain ⟨rfl, _⟩ := Prod.mk.inj (Except.ok.inj hlength)
  rw [Cursor.advance_advance, Cursor.remaining_advance] at hfour
  have hgood : ¬ (UInt32.ofNat (numberAt c.rest 4 4) = 0 ∨
      65536 ≤ UInt32.ofNat (numberAt c.rest 4 4)) := by
    rw [isBadLength_numberAt_iff, not_not]
    exact h (by omega)
  rw [if_neg hgood, UInt32.toNat_ofNat_of_lt' (numberAt_lt c.rest 4 4)]
  have hplace : ((c.advance 2).advance 2).advance 4 = c.advance 8 := by
    rw [Cursor.advance_advance, Cursor.advance_advance]
  rw [hplace]
  refine (Takes.take _ _).bind fun bytes _ _ => ?_
  rw [Cursor.advance_advance]
  have htable := Takes.table takes_handler (c.advance (8 + numberAt c.rest 4 4))
  rw [Cursor.numberAt_advance, Nat.add_zero] at htable
  exact htable.bind fun handlers _ _ => (Takes.pure _ _).bind fun _ _ _ => Takes.pure _ _

/-- A length that code cannot have is a fault as soon as it is read. -/
theorem front_of_badLength (h : 8 ≤ c.remaining) (hbad : ¬ HasCodeLength c.rest) :
    readCode (pure []) c = .error (.malformedAttribute .code) := by
  have hstack : 2 ≤ c.remaining := by omega
  have hlocals : 2 ≤ (c.advance 2).remaining := by
    rw [Cursor.remaining_advance]
    omega
  have hlength : Cursor.u32 ((c.advance 2).advance 2) =
      .ok (UInt32.ofNat (numberAt c.rest 4 4), c.advance 8) := by
    rw [Cursor.u32_of_le (by simp only [Cursor.remaining_advance]; omega), Cursor.advance_advance,
      Cursor.advance_advance, Cursor.numberAt_advance]
  unfold readCode
  rw [Cursor.bind_of_ok (Cursor.u16_of_le hstack), Cursor.bind_of_ok (Cursor.u16_of_le hlocals),
    Cursor.bind_of_ok hlength, if_pos ((isBadLength_numberAt_iff c.rest).2 hbad)]
  rfl

/-! ## 3. Faults -/

/-- The beginning of a body of code up to where one more attribute of those that it carries has to
    start; the ones in front of it are all stored as they should be. -/
def IsOpenCode (pool : ConstantPool) (bytes : List UInt8) : Prop :=
  ∃ (code : Code) (count : UInt16) (carried : List UInt8), (Attribute.code code).IsSized ∧
    Layout.rows (layout pool) code.attributes carried ∧ code.attributes.length < count.toNat ∧
      bytes = (Attribute.code code).body (BigEndian.u16 count ++ carried)

mutual

/-- What is wrong with a body that belongs to an attribute of this name: the first fault in reading
    order. A body that runs out or has bytes left is the fault of its own attribute, and what is
    wrong inside of a frame in it stands as it is. -/
inductive BodyFault (pool : ConstantPool) : AttributeName → List UInt8 → DecodeError → Prop
  /-- The length of the code is none that code can have. -/
  | codeLength {body : List UInt8} (hread : 8 ≤ body.length)
      (hlength : numberAt body 4 4 = 0 ∨ 65536 ≤ numberAt body 4 4) :
      BodyFault pool .code body (.malformedAttribute .code)
  /-- The body ends in front of something that it has to have. -/
  | runsOut {name : AttributeName} {body : List UInt8}
      (hshort : body.length < neededLength body name) :
      BodyFault pool name body (.malformedAttribute name)
  /-- The body ends inside of the frame of an attribute that it carries. -/
  | carriedRunsOut {front rest : List UInt8} (hfront : IsOpenCode pool front)
      (hshort : ¬ FrameFits rest) :
      BodyFault pool .code (front ++ rest) (.malformedAttribute .code)
  /-- An attribute that the body carries has a fault. -/
  | carried {front rest : List UInt8} {e : DecodeError} (hfront : IsOpenCode pool front)
      (hfits : FrameFits rest) (h : FrameFault pool (frameIndex rest) (frameBody rest) e) :
      BodyFault pool .code (front ++ rest) e
  /-- There are bytes left behind all that is in the body. -/
  | leftOver {name : AttributeName} {a : Attribute} {stored left : List UInt8}
      (hstored : bodyLayout pool name a stored) (hleft : left ≠ []) :
      BodyFault pool name (stored ++ left) (.malformedAttribute name)

/-- What is wrong in a frame with this index and this body. -/
inductive FrameFault (pool : ConstantPool) : UInt16 → List UInt8 → DecodeError → Prop
  /-- There is no text at the index of the name. -/
  | name {index : UInt16} {body : List UInt8} {e : DecodeError} (h : pool.text index = .error e) :
      FrameFault pool index body e
  /-- The name is recognised, and the body has a fault. -/
  | body {index : UInt16} {body : List UInt8} {name : AttributeName} {e : DecodeError}
      (hname : pool.text index = .ok name.text) (h : BodyFault pool name body e) :
      FrameFault pool index body e

end

/-! ## 4. Bodies fail with their faults -/

/-- A body fails where it is read, or for the bytes left behind what is read. -/
theorem ofBody_eq_error_iff_read {name : AttributeName} {e : DecodeError} :
    ofBody nested name c = .error e ↔
      (∃ e', readBody nested name c = .error e' ∧ e = e'.outside name) ∨
        e = .malformedAttribute name ∧
          ∃ a behind, readBody nested name c = .ok (a, behind) ∧ behind.isEmpty = false := by
  refine ⟨fun h => ?_, fun h => ?_⟩
  · cases hread : readBody nested name c with
    | ok p =>
      obtain ⟨a, behind⟩ := p
      rw [ofBody_of_ok hread] at h
      by_cases hempty : behind.isEmpty = true
      · rw [if_pos hempty] at h
        exact nomatch h
      · rw [if_neg hempty] at h
        exact .inr ⟨(Except.error.inj h).symm, a, behind, rfl, Bool.eq_false_iff.2 hempty⟩
    | error e' =>
      rw [ofBody_of_error hread] at h
      exact .inl ⟨e', rfl, (Except.error.inj h).symm⟩
  · rcases h with ⟨e', hread, rfl⟩ | ⟨rfl, a, behind, hread, hempty⟩
    · exact ofBody_of_error hread
    · rw [ofBody_of_ok hread, hempty]
      rfl

/-- No body runs out for those outside of it. -/
theorem ofBody_ne_truncatedInput {name : AttributeName} {e : DecodeError}
    (h : ofBody nested name c = .error e) (o : Nat) : e ≠ .truncatedInput o := by
  rintro rfl
  rcases ofBody_eq_error_iff_read.1 h with ⟨e', _, he⟩ | ⟨he, _⟩
  · cases e' <;> exact nomatch he
  · exact nomatch he

/-- Bytes are left behind an attribute that is read. -/
theorem exists_left_iff {name : AttributeName}
    (h : Reads (readBody nested name) (bodyLayout pool name) c) :
    (∃ a behind, readBody nested name c = .ok (a, behind) ∧ behind.isEmpty = false) ↔
      ∃ a stored left, bodyLayout pool name a stored ∧ left ≠ [] ∧ c.rest = stored ++ left := by
  refine ⟨fun hread => ?_, fun hleft => ?_⟩
  · obtain ⟨a, behind, hok, hempty⟩ := hread
    obtain ⟨stored, hpass, hstored⟩ := (h a behind).1 hok
    exact ⟨a, stored, behind.rest, hstored, List.isEmpty_eq_false_iff.1 hempty, hpass.rest⟩
  · obtain ⟨a, stored, left, hstored, hleft, hrest⟩ := hleft
    obtain ⟨mid, hpass, rfl⟩ := Cursor.exists_passes hrest
    exact ⟨a, mid, (h a mid).2 ⟨stored, hpass, hstored⟩, List.isEmpty_eq_false_iff.2 hleft⟩

/-- A reader that takes a known number of bytes fails for those that are missing. -/
theorem takes_fails_iff {α : Type} {read : Read α} {size : Nat} {name : AttributeName}
    {e : DecodeError} (h : Takes read size c) :
    (∃ e', read c = .error e' ∧ e = e'.outside name) ↔
      e = .malformedAttribute name ∧ c.remaining < size := by
  refine ⟨fun hfault => ?_, fun hfault => ?_⟩
  · obtain ⟨e', he, rfl⟩ := hfault
    by_cases hfits : size ≤ c.remaining
    · obtain ⟨a, ha⟩ := h.fits hfits
      exact nomatch he.symm.trans ha
    · have hshort := Nat.lt_of_not_le hfits
      obtain ⟨o, ho⟩ := h.short hshort
      cases Except.error.inj (he.symm.trans ho)
      exact ⟨rfl, hshort⟩
  · obtain ⟨rfl, hshort⟩ := hfault
    obtain ⟨o, ho⟩ := h.short hshort
    exact ⟨_, ho, rfl⟩

/-- A body other than code fails if it runs out, or has bytes left. -/
theorem ofBody_leaf_eq_error_iff {name : AttributeName} (hname : name ≠ .code) {e : DecodeError}
    (h : Reads (readBody nested name) (bodyLayout pool name) c) :
    ofBody nested name c = .error e ↔ BodyFault pool name c.rest e := by
  rw [ofBody_eq_error_iff_read, exists_left_iff h, takes_fails_iff (takes_leaf hname c)]
  refine ⟨fun hfault => ?_, fun hfault => ?_⟩
  · rcases hfault with ⟨rfl, hshort⟩ | ⟨rfl, a, stored, left, hstored, hleft, hrest⟩
    · exact .runsOut hshort
    · rw [hrest]
      exact .leftOver hstored hleft
  · generalize hbytes : c.rest = bytes at hfault
    have hremaining : c.remaining = bytes.length := congrArg List.length hbytes
    cases hfault with
    | codeLength | carriedRunsOut | carried => exact absurd rfl hname
    | runsOut hshort => exact .inl ⟨rfl, hremaining ▸ hshort⟩
    | leftOver hstored hleft => exact .inr ⟨rfl, _, _, _, hstored, hleft, rfl⟩

/-- Code up to and with the count of the attributes that it carries. -/
def readOpening : Read UInt16 := readCode (pure []) >>= fun _ => Cursor.u16

/-- Code fails in front of the attributes that it carries for its length, or if it runs out. -/
theorem opening_fails_iff {e : DecodeError} :
    (∃ e', readOpening c = .error e' ∧ e = e'.outside .code) ↔
      e = .malformedAttribute .code ∧ (8 ≤ c.remaining ∧ ¬ HasCodeLength c.rest ∨
        c.remaining < neededLength c.rest .code) := by
  by_cases hbad : 8 ≤ c.remaining ∧ ¬ HasCodeLength c.rest
  · have herror : readOpening c = .error (.malformedAttribute .code) :=
      Cursor.bind_eq_error_iff.2 (.inl (front_of_badLength hbad.1 hbad.2))
    rw [herror]
    refine ⟨fun h => ?_, fun h => ⟨_, rfl, h.1⟩⟩
    obtain ⟨e', he, rfl⟩ := h
    cases he
    exact ⟨rfl, .inl hbad⟩
  · have htakes : Takes readOpening (neededLength c.rest .code) c :=
      (takes_front fun hle => not_not.1 fun hnot => hbad ⟨hle, hnot⟩).bind fun _ _ _ => Takes.u16 _
    rw [takes_fails_iff htakes, or_iff_right hbad]

theorem reads_front (c : Cursor) :
    Reads (readCode (pure [])) (codeLayout (Layout.only [])) c :=
  reads_codeOf fun _ mid _ => Reads.pure [] mid

/-- What is at the end of the code moves behind the attributes that are put in. -/
theorem body_code_append (code : Code) (attributes : List Attribute) (x y : List UInt8) :
    (Attribute.code code).body x ++ y =
      (Attribute.code { code with attributes }).body (x ++ y) := by
  simp only [body, List.append_assoc]

/-- Code with a table of attributes fails in front of them, or as one of them does behind others. -/
theorem readCode_eq_error_iff {item : Read Attribute} {e : DecodeError}
    (hitem : ∀ x mid, c.Passes x mid → Reads item (layout pool) mid) :
    readCode (Cursor.table item) c = .error e ↔ readOpening c = .error e ∨
      ∃ front mid, c.Passes front mid ∧ IsOpenCode pool front ∧ item mid = .error e := by
  rw [readCode_eq, readOpening, Cursor.bind_eq_error_iff, Cursor.bind_eq_error_iff, or_assoc]
  refine or_congr_right ⟨fun h => ?_, fun h => ?_⟩
  · obtain ⟨code, mid, hfront, hrest⟩ := h
    obtain ⟨x, hx, ⟨hpos, hle, hhandlers⟩, _, ⟨_, rfl⟩, rfl⟩ := (reads_front c code mid).1 hfront
    rcases (Reads.table_eq_error_iff fun y mid' hy => hitem _ mid' (hx.trans hy)).1
      (Cursor.map_eq_error_iff.1 hrest) with hcount | ⟨count, as, y, behind, hy, hrows, hlt, he⟩
    · exact .inl ⟨code, mid, hfront, hcount⟩
    · -- the attributes read so far are put into the code that was read in front of them
      have hlength : as.length < 65536 := Nat.lt_trans hlt count.toNat_lt
      refine .inr ⟨_, behind, hx.trans hy, ⟨{ code with attributes := as }, count, y,
        ⟨hpos, hle, hhandlers, hlength⟩, hrows, hlt, ?_⟩, he⟩
      exact body_code_append code as [] _
  · rcases h with ⟨code, mid, hfront, hcount⟩ | ⟨_, behind, hpass, hopen, he⟩
    · refine ⟨code, mid, hfront, Cursor.map_eq_error_iff.2 ?_⟩
      exact Cursor.bind_eq_error_iff.2 (.inl hcount)
    · obtain ⟨code, count, carried, ⟨hpos, hle, hhandlers, _⟩, hrows, hlt, rfl⟩ := hopen
      have hcut : (Attribute.code code).body (BigEndian.u16 count ++ carried) =
          (Attribute.code { code with attributes := [] }).body [] ++
            (BigEndian.u16 count ++ carried) := (body_code_append _ code.attributes [] _).symm
      rw [hcut] at hpass
      obtain ⟨mid, hx, hy⟩ := hpass.split
      refine ⟨{ code with attributes := [] }, mid, (reads_front c _ mid).2 ⟨_, hx,
        ⟨hpos, hle, hhandlers⟩, [], ⟨rfl, rfl⟩, rfl⟩, Cursor.map_eq_error_iff.2 ?_⟩
      exact (Reads.table_eq_error_iff fun y mid' hy => hitem _ mid' (hx.trans hy)).2
        (.inr ⟨count, code.attributes, carried, behind, hy, hrows, hlt, he⟩)

/-! ## 5. Every depth -/

theorem length_frameBody {bytes : List UInt8} (h : FrameFits bytes) :
    (frameBody bytes).length + 6 ≤ bytes.length := by
  obtain ⟨hsix, _⟩ := h
  have htake : (frameBody bytes).length ≤ (bytes.drop 6).length := List.length_take_le' _ _
  rw [List.length_drop] at htake
  omega

/-- The content of a frame fails with the faults of the frame if bodies fail with theirs. -/
theorem content_eq_error_iff {index : UInt16} {body : List UInt8} {base : Nat} {e : DecodeError}
    (h : ∀ name, ofBody nested name (Cursor.ofBytes body base) = .error e ↔
      BodyFault pool name body e) :
    content pool nested index body base = .error e ↔ FrameFault pool index body e := by
  unfold content
  rw [Outcome.bind_eq_error_iff]
  refine ⟨fun herror => ?_, fun hfault => ?_⟩
  · rcases herror with hindex | ⟨text, htext, herror⟩
    · exact .name hindex
    · cases hname : AttributeName.ofText? text with
      | none =>
        rw [hname] at herror
        exact nomatch herror
      | some name =>
        rw [hname] at herror
        rw [← AttributeName.ofText?_eq_some_iff.1 hname] at htext
        exact .body htext ((h name).1 herror)
  · cases hfault with
    | name hindex => exact .inl hindex
    | @body _ _ name _ htext hbody =>
      refine .inr ⟨name.text, htext, ?_⟩
      rw [AttributeName.ofText?_eq_some_iff.2 rfl]
      exact (h name).2 hbody

/-- Nothing inside of a frame runs out for those outside of it. -/
theorem content_ne_truncatedInput {index : UInt16} {body : List UInt8} {base : Nat}
    {e : DecodeError} (h : content pool nested index body base = .error e) (o : Nat) :
    e ≠ .truncatedInput o := by
  rcases Outcome.bind_eq_error_iff.1 h with hindex | ⟨text, _, herror⟩
  · exact (pool.text_fails index e hindex).ne_truncatedInput o
  · cases hname : AttributeName.ofText? text with
    | none =>
      rw [hname] at herror
      exact nomatch herror
    | some name =>
      rw [hname] at herror
      exact ofBody_ne_truncatedInput herror o

/-- One attribute is read just from the stored forms of attributes. -/
theorem reads_attribute {room : Nat} (h : c.remaining ≤ room) :
    Reads (read pool (readList pool room)) (layout pool) c := by
  refine (reads_frame fun body base x mid hbody hx => ?_).congr fun _ _ => frameLayout_iff
  have hmid : body.length = x.length + mid.remaining := hx.remaining
  exact reads_list room mid (by omega)

/-- The faults of one attribute, as they are told outside of the body that carries it. -/
theorem carried_fails_iff {name : AttributeName} {e : DecodeError}
    (h : FrameFits c.rest → ∀ name e, ofBody nested name
      (Cursor.ofBytes (frameBody c.rest) (c.offset + 6)) = .error e ↔
        BodyFault pool name (frameBody c.rest) e) :
    (∃ e', read pool nested c = .error e' ∧ e = e'.outside name) ↔
      ¬ FrameFits c.rest ∧ e = .malformedAttribute name ∨
        FrameFits c.rest ∧ FrameFault pool (frameIndex c.rest) (frameBody c.rest) e := by
  by_cases hfits : FrameFits c.rest
  · have hfault : ∀ e, read pool nested c = .error e ↔
        FrameFault pool (frameIndex c.rest) (frameBody c.rest) e := by
      intro e
      rw [read_of_fits hfits, Outcome.map_eq_error_iff]
      exact content_eq_error_iff fun name => h hfits name e
    have houtside : ∀ e, read pool nested c = .error e → e.outside name = e := by
      intro e he
      rw [read_of_fits hfits, Outcome.map_eq_error_iff] at he
      exact DecodeError.outside_eq (content_ne_truncatedInput he) name
    refine ⟨fun herror => ?_, fun hcase => ?_⟩
    · obtain ⟨e', he, rfl⟩ := herror
      rw [houtside e' he]
      exact .inr ⟨hfits, (hfault e').1 he⟩
    · rcases hcase with ⟨hnot, _⟩ | ⟨_, he⟩
      · exact absurd hfits hnot
      · have herror := (hfault e).2 he
        exact ⟨e, herror, (houtside e herror).symm⟩
  · obtain ⟨o, ho⟩ : Short (read pool nested) c := short_of_not_fits hfits
    rw [ho]
    refine ⟨fun herror => ?_, fun hcase => ?_⟩
    · obtain ⟨_, he, rfl⟩ := herror
      cases he
      exact .inl ⟨hfits, rfl⟩
    · rcases hcase with ⟨_, rfl⟩ | ⟨hfits', _⟩
      · exact ⟨_, rfl, rfl⟩
      · exact absurd hfits' hfits

/-- The faults of code, as they are told outside of it, if the bodies that it carries fail with
    theirs. -/
theorem code_fails_iff {e : DecodeError}
    (hitem : ∀ x mid, c.Passes x mid → Reads (read pool nested) (layout pool) mid)
    (hbody : ∀ x mid, c.Passes x mid → FrameFits mid.rest → ∀ name e, ofBody nested name
      (Cursor.ofBytes (frameBody mid.rest) (mid.offset + 6)) = .error e ↔
        BodyFault pool name (frameBody mid.rest) e) :
    (∃ e', readBody (Cursor.table (read pool nested)) .code c = .error e' ∧
        e = e'.outside .code) ↔
      (e = .malformedAttribute .code ∧ (8 ≤ c.remaining ∧ ¬ HasCodeLength c.rest ∨
        c.remaining < neededLength c.rest .code)) ∨
      ∃ front mid, c.Passes front mid ∧ IsOpenCode pool front ∧
        (¬ FrameFits mid.rest ∧ e = .malformedAttribute .code ∨
          FrameFits mid.rest ∧ FrameFault pool (frameIndex mid.rest) (frameBody mid.rest) e) := by
  have hread : ∀ e', readBody (Cursor.table (read pool nested)) .code c = .error e' ↔ _ :=
    fun e' => Cursor.map_eq_error_iff.trans (readCode_eq_error_iff hitem)
  rw [← opening_fails_iff]
  refine ⟨fun hfault => ?_, fun hfault => ?_⟩
  · obtain ⟨e', he, rfl⟩ := hfault
    rcases (hread e').1 he with hopening | ⟨front, mid, hpass, hfront, he⟩
    · exact .inl ⟨e', hopening, rfl⟩
    · exact .inr ⟨front, mid, hpass, hfront,
        (carried_fails_iff (hbody front mid hpass)).1 ⟨e', he, rfl⟩⟩
  · rcases hfault with ⟨e', hopening, rfl⟩ | ⟨front, mid, hpass, hfront, hcase⟩
    · exact ⟨e', (hread e').2 (.inl hopening), rfl⟩
    · obtain ⟨e', he, rfl⟩ := (carried_fails_iff (hbody front mid hpass)).2 hcase
      exact ⟨e', (hread e').2 (.inr ⟨front, mid, hpass, hfront, he⟩), rfl⟩

/-- Code fails with just its faults if the bodies that it carries do. -/
theorem ofBody_code_eq_error_iff {e : DecodeError}
    (hreads : Reads (readBody (Cursor.table (read pool nested)) .code) (bodyLayout pool .code) c)
    (hitem : ∀ x mid, c.Passes x mid → Reads (read pool nested) (layout pool) mid)
    (hbody : ∀ x mid, c.Passes x mid → FrameFits mid.rest → ∀ name e, ofBody nested name
      (Cursor.ofBytes (frameBody mid.rest) (mid.offset + 6)) = .error e ↔
        BodyFault pool name (frameBody mid.rest) e) :
    ofBody (Cursor.table (read pool nested)) .code c = .error e ↔
      BodyFault pool .code c.rest e := by
  rw [ofBody_eq_error_iff_read, exists_left_iff hreads, code_fails_iff hitem hbody]
  refine ⟨fun hfault => ?_, fun hfault => ?_⟩
  · rcases hfault with (⟨rfl, ⟨hlong, hbad⟩ | hshort⟩ | ⟨front, mid, hpass, hfront, hcase⟩) |
      ⟨rfl, a, stored, left, hstored, hleft, hrest⟩
    · exact .codeLength hlong ((not_hasCodeLength_iff c.rest).1 hbad)
    · exact .runsOut hshort
    · rw [hpass.rest]
      rcases hcase with ⟨hnot, rfl⟩ | ⟨hfits, hframe⟩
      · exact .carriedRunsOut hfront hnot
      · exact .carried hfront hfits hframe
    · rw [hrest]
      exact .leftOver hstored hleft
  · generalize hbytes : c.rest = bytes at hfault
    have hremaining : c.remaining = bytes.length := congrArg List.length hbytes
    cases hfault with
    | codeLength hlong hlength =>
      exact .inl (.inl ⟨rfl, .inl ⟨hremaining ▸ hlong, (not_hasCodeLength_iff bytes).2 hlength⟩⟩)
    | runsOut hshort => exact .inl (.inl ⟨rfl, .inr (hremaining ▸ hshort)⟩)
    | carriedRunsOut hfront hnot =>
      obtain ⟨mid, hpass, rfl⟩ := Cursor.exists_passes hbytes
      exact .inl (.inr ⟨_, mid, hpass, hfront, .inl ⟨hnot, rfl⟩⟩)
    | carried hfront hfits hframe =>
      obtain ⟨mid, hpass, rfl⟩ := Cursor.exists_passes hbytes
      exact .inl (.inr ⟨_, mid, hpass, hfront, .inr ⟨hfits, hframe⟩⟩)
    | leftOver hstored hleft => exact .inr ⟨rfl, _, _, _, hstored, hleft, rfl⟩

/-- **A body fails with just its faults.** The induction is on the room, which is more than the
    bytes of the body: a body that code carries is shorter than the code. -/
theorem ofBody_eq_error_iff {room : Nat} {body : List UInt8} {base : Nat}
    (h : body.length < room) (name : AttributeName) (e : DecodeError) :
    ofBody (readList pool room) name (Cursor.ofBytes body base) = .error e ↔
      BodyFault pool name body e := by
  induction room generalizing body base name e with
  | zero => exact absurd h (Nat.not_lt_zero _)
  | succ room ih =>
    have hlength : ∀ {x mid}, (Cursor.ofBytes body base).Passes x mid → mid.remaining ≤ room := by
      intro x mid hx
      have hle : mid.remaining ≤ body.length := hx.remaining_le
      omega
    have hreads : Reads (readBody (readList pool (room + 1)) name) (bodyLayout pool name)
        (Cursor.ofBytes body base) :=
      reads_body (fun x mid hx => reads_list (room + 1) mid (Nat.le_succ_of_le (hlength hx))) name
    by_cases hname : name = .code
    · subst hname
      refine ofBody_code_eq_error_iff hreads (fun x mid hx => reads_attribute (hlength hx)) ?_
      intro x mid hx hfits name e
      have hframe : (frameBody mid.rest).length + 6 ≤ mid.remaining := length_frameBody hfits
      have hmid := hlength hx
      exact ih (by omega) name e
    · exact ofBody_leaf_eq_error_iff hname hreads

theorem content_of_unrecognised {index : UInt16} {text : String} {body : List UInt8} {base : Nat}
    (htext : pool.text index = .ok text) (hname : ∀ name, text ≠ AttributeName.text name) :
    content pool nested index body base = .ok (.unknown index body) := by
  unfold content
  rw [htext]
  show (match AttributeName.ofText? text with
    | some name => ofBody nested name (Cursor.ofBytes body base)
    | none => .ok (.unknown index body) : Outcome Attribute) = _
  rw [AttributeName.ofText?_eq_none hname]

theorem content_of_recognised {index : UInt16} {name : AttributeName} {body : List UInt8}
    {base : Nat} (hname : pool.text index = .ok name.text) :
    content pool nested index body base = ofBody nested name (Cursor.ofBytes body base) := by
  unfold content
  rw [hname]
  show (match AttributeName.ofText? name.text with
    | some name => ofBody nested name (Cursor.ofBytes body base)
    | none => .ok (.unknown index body) : Outcome Attribute) = _
  rw [AttributeName.ofText?_eq_some_iff.2 rfl]

/-- **What becomes of an attribute, wherever it stands.** The input is too short exactly if its
    frame does not fit. Where it fits, it is passed over as a whole; a name that is not recognised
    keeps the body as it is, a recognised one takes just the bodies that are stored forms, and the
    faults are those of the frame. -/
theorem read_framing {room : Nat} (hroom : c.remaining ≤ room) :
    ((∃ o, read pool (readList pool room) c = .error (.truncatedInput o)) ↔
      ¬ FrameFits c.rest) ∧
    (FrameFits c.rest →
      (∀ a c', read pool (readList pool room) c = .ok (a, c') →
        c' = c.advance (6 + frameLength c.rest)) ∧
      (∀ text, pool.text (frameIndex c.rest) = .ok text → (∀ name, text ≠ AttributeName.text name) →
        read pool (readList pool room) c =
          .ok (.unknown (frameIndex c.rest) (frameBody c.rest),
            c.advance (6 + frameLength c.rest))) ∧
      (∀ name, pool.text (frameIndex c.rest) = .ok (AttributeName.text name) →
        ∀ a, (∃ c', read pool (readList pool room) c = .ok (a, c')) ↔
          bodyLayout pool name a (frameBody c.rest)) ∧
      ∀ e, read pool (readList pool room) c = .error e ↔
        FrameFault pool (frameIndex c.rest) (frameBody c.rest) e) := by
  have hshort : ¬ FrameFits c.rest → ∃ o, read pool (readList pool room) c =
      .error (.truncatedInput o) := short_of_not_fits
  by_cases hfits : FrameFits c.rest
  · have hbody : (frameBody c.rest).length + 6 ≤ c.remaining := length_frameBody hfits
    have hread : read pool (readList pool room) c = _ := read_of_fits hfits
    refine ⟨iff_of_false (fun herror => ?_) (not_not_intro hfits), fun _ => ⟨?_, ?_, ?_, ?_⟩⟩
    · obtain ⟨o, ho⟩ := herror
      rw [hread, Outcome.map_eq_error_iff] at ho
      exact content_ne_truncatedInput ho o rfl
    · intro a c' hok
      rw [hread] at hok
      obtain ⟨a', _, ha⟩ := Outcome.map_eq_ok_iff.1 hok
      exact (Prod.mk.inj ha).2.symm
    · intro text htext hname
      rw [hread, content_of_unrecognised htext hname]
      rfl
    · intro name hname a
      have hcontent : ofBody (readList pool room) name
          (Cursor.ofBytes (frameBody c.rest) (c.offset + 6)) = .ok a ↔
            bodyLayout pool name a (frameBody c.rest) := by
        refine ofBody_eq_ok_iff (reads_body (fun x mid hx => reads_list room mid ?_) name)
        have hle : mid.remaining ≤ (frameBody c.rest).length := hx.remaining_le
        omega
      rw [hread, content_of_recognised hname, ← hcontent]
      simp only [Outcome.map_eq_ok_iff, Prod.mk.injEq]
      refine ⟨fun hok => ?_, fun hok => ⟨_, a, hok, rfl, rfl⟩⟩
      obtain ⟨_, _, hok, rfl, _⟩ := hok
      exact hok
    · intro e
      rw [hread, Outcome.map_eq_error_iff]
      exact content_eq_error_iff fun name => ofBody_eq_error_iff (by omega) name e
  · exact ⟨iff_of_true (hshort hfits) hfits, fun h => absurd h hfits⟩

/-- Code of one byte, in which the body of a carried attribute is one byte too short. -/
def shortSourceFile : List UInt8 :=
  [0, 1, 0, 0, 0, 20, 0, 0, 0, 0, 0, 0, 0, 1, 0xb1, 0, 0, 0, 1, 0, 2, 0, 0, 0, 1, 7, 0]

/-- The names of the two attributes. -/
def codeAndSourceFile : ConstantPool := ⟨#[none, some (.utf8 "Code"), some (.utf8 "SourceFile")]⟩

/-- The inner attribute is blamed, and the file is not truncated. -/
theorem read_framing_shortSourceFile :
    (Cursor.ofBytes shortSourceFile 100).remaining ≤ 27 ∧ FrameFits shortSourceFile ∧
      FrameFault codeAndSourceFile 1 (frameBody shortSourceFile)
        (.malformedAttribute .sourceFile) := by
  have hroom : (Cursor.ofBytes shortSourceFile 100).remaining ≤ 27 := by decide
  have hfits : FrameFits shortSourceFile := by decide
  obtain ⟨_, hframe⟩ := @read_framing codeAndSourceFile _ 27 hroom
  obtain ⟨_, _, _, hfault⟩ := hframe hfits
  exact ⟨hroom, hfits, (hfault _).1 rfl⟩

end Attribute

end ClassView
