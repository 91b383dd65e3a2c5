import ClassView.Proofs.Attribute.Framing
import ClassView.Proofs.ClassFile.Extension
import ClassView.Proofs.ClassFile.RoundTrip
import ClassView.Proofs.Pool.Causes

/-!
# What is wrong with a class file that cannot be read

Every fault that `ClassFile.parse` tells is traced back to the bytes that it is about. It is about
the magic number, about an entry of the pool, about an attribute at some depth, or about the end of
the file, and what it tells can be checked there: the place, the index, the tag, the name.

* `ConstantPool.fault_of_text`: what is wrong with an index that should be of a text;
* `Attribute.IsOpenList`, `Member.IsOpenTable`, `ClassFile.IsOpen`: beginnings up to a place where
  an attribute has to start;
* `FaultBehind`: such a beginning, and behind it an attribute with a fault;
* `AttributeAt`: the frame of an attribute that stands in a class file, at any depth;
* **`Attribute.cause_of_frame`**: a fault inside of a frame is one of an attribute that stands
  there or deeper;
* `ClassFile.Cause`: the faults of a class file, as the bytes show them;
* **`ClassFile.cause_of_parse`**: a class file that cannot be read has one of them.
-/

namespace ClassView

open BigEndian (numberAt)

/-! ## 1. Names of attributes -/

/-- **What is wrong with an index that should be of a text**: there is no entry, or another one. -/
theorem ConstantPool.fault_of_text {pool : ConstantPool} {index : UInt16} {e : DecodeError}
    (h : pool.text index = .error e) :
    (pool.entry? index = none ∧ e = .indexOutOfRange index.toNat) ∨
      ∃ entry, pool.entry? index = some entry ∧ entry.tag ≠ .utf8 ∧
        e = .tagMismatch index.toNat .utf8 entry.tag := by
  rcases Outcome.bind_eq_error_iff.1 h with hget | ⟨entry, hget, hpick⟩
  · exact .inl (get_eq_error_iff.1 hget)
  · refine .inr ⟨entry, get_eq_ok_iff.1 hget, ?_⟩
    by_cases htag : entry.tag = .utf8
    · obtain ⟨text, rfl⟩ := (Entry.tag_eq_iff .utf8 entry).1 htag
      exact nomatch hpick
    · refine ⟨htag, ?_⟩
      cases entry with
      | utf8 text => exact absurd rfl htag
      | _ =>
        cases hpick
        rfl

/-! ## 2. Beginnings of class files -/

/-- The beginning of a list of attributes up to where one more of them has to start. -/
def Attribute.IsOpenList (pool : ConstantPool) (bytes : List UInt8) : Prop :=
  ∃ (count : UInt16) (attributes : List Attribute) (stored : List UInt8),
    Layout.rows (Attribute.layout pool) attributes stored ∧ attributes.length < count.toNat ∧
      bytes = BigEndian.u16 count ++ stored

namespace Member

/-- The beginning of a field or method up to where an attribute of it has to start. -/
def IsOpen (pool : ConstantPool) (bytes : List UInt8) : Prop :=
  ∃ head list, head.length = 6 ∧ Attribute.IsOpenList pool list ∧ bytes = head ++ list

/-- The beginning of the fields or methods up to where an attribute of one of them has to start. -/
def IsOpenTable (kind : AccessKind) (pool : ConstantPool) (bytes : List UInt8) : Prop :=
  ∃ (count : UInt16) (members : List (Member kind)) (stored opening : List UInt8),
    Layout.rows (layout kind pool) members stored ∧ members.length < count.toNat ∧
      IsOpen pool opening ∧ bytes = BigEndian.u16 count ++ stored ++ opening

end Member

namespace ClassFile

/-- What stands in front of the fields: the magic number, the version, the pool, the flags with the
    names of the class and its superclass, and the interfaces. -/
def IsHeader (texts : TextReader) (pool : ConstantPool) (bytes : List UInt8) : Prop :=
  ∃ version stored names interfaces, version.length = 4 ∧
    ConstantPool.layout texts pool stored ∧ names.length = 6 ∧ interfaces.length < 65536 ∧
      bytes = BigEndian.u32 classMagic ++ version ++ stored ++ names ++
        Layout.tableBytes BigEndian.u16 interfaces

/-- From the fields of a class file up to where an attribute has to start: one of a field, of a
    method or of the class itself. -/
inductive IsOpenBehind (pool : ConstantPool) : List UInt8 → Prop
  | field {opening : List UInt8} (hopening : Member.IsOpenTable .ofField pool opening) :
      IsOpenBehind pool opening
  | method {stored opening : List UInt8} {fields : List Field}
      (hfields : Layout.table (Member.layout .ofField pool) fields stored)
      (hopening : Member.IsOpenTable .ofMethod pool opening) :
      IsOpenBehind pool (stored ++ opening)
  | whole {stored stored' opening : List UInt8} {fields : List Field} {methods : List Method}
      (hfields : Layout.table (Member.layout .ofField pool) fields stored)
      (hmethods : Layout.table (Member.layout .ofMethod pool) methods stored')
      (hopening : Attribute.IsOpenList pool opening) :
      IsOpenBehind pool (stored ++ (stored' ++ opening))

/-- The beginning of a class file up to where an attribute has to start. -/
def IsOpen (texts : TextReader) (pool : ConstantPool) (bytes : List UInt8) : Prop :=
  ∃ header opening, IsHeader texts pool header ∧ IsOpenBehind pool opening ∧
    bytes = header ++ opening

end ClassFile

/-! ## 3. Faults behind a beginning -/

open Attribute (FrameFits FrameFault BodyFault frameIndex frameLength frameBody readList IsOpenCode)

/-- Behind such a beginning stands the whole frame of an attribute, and it has the fault. -/
def FaultBehind (pool : ConstantPool) (opening : List UInt8 → Prop) (c : Cursor)
    (e : DecodeError) : Prop :=
  ∃ front mid, c.Passes front mid ∧ opening front ∧ FrameFits mid.rest ∧
    FrameFault pool (frameIndex mid.rest) (frameBody mid.rest) e

section Behind

variable {pool : ConstantPool} {opening opening' : List UInt8 → Prop} {c mid : Cursor}
  {e : DecodeError} {room : Nat}

theorem FaultBehind.after {x : List UInt8} (h : FaultBehind pool opening mid e)
    (hx : c.Passes x mid) (hopening : ∀ y, opening y → opening' (x ++ y)) :
    FaultBehind pool opening' c e := by
  obtain ⟨front, behind, hfront, hopen, hfits, hfault⟩ := h
  exact ⟨x ++ front, behind, hx.trans hfront, hopening front hopen, hfits, hfault⟩

/-- A list of attributes cannot be read for the fault of one of them. -/
theorem Attribute.faultBehind_of_list (hroom : c.remaining < room) (he : ¬ e.IsAboutEnd)
    (h : readList pool room c = .error e) : FaultBehind pool (IsOpenList pool) c e := by
  cases room with
  | zero => exact absurd hroom (Nat.not_lt_zero _)
  | succ room =>
    have hlength : ∀ {x mid}, c.Passes x mid → mid.remaining ≤ room :=
      fun hx => Nat.le_trans hx.remaining_le (Nat.lt_succ_iff.1 hroom)
    rcases (Reads.table_eq_error_iff fun x mid hx => reads_attribute (hlength hx)).1 h with
      hcount | ⟨count, attributes, stored, mid, hpass, hrows, hlt, hread⟩
    · exact absurd ((Takes.u16 c).isAboutEnd hcount) he
    · obtain ⟨hshort, hframe⟩ := @read_framing pool mid room (hlength hpass)
      by_cases hfits : FrameFits mid.rest
      · obtain ⟨_, _, _, hfault⟩ := hframe hfits
        exact ⟨_, mid, hpass, ⟨count, attributes, stored, hrows, hlt, rfl⟩, hfits,
          (hfault e).1 hread⟩
      · obtain ⟨o, ho⟩ := hshort.2 hfits
        cases ho.symm.trans hread
        exact absurd trivial he

namespace Member

variable {kind : AccessKind}

/-- A field or method cannot be read for the fault of an attribute. -/
theorem faultBehind_of_read (hroom : c.remaining < room) (he : ¬ e.IsAboutEnd)
    (h : Member.read kind (readList pool room) c = .error e) :
    FaultBehind pool (IsOpen pool) c e := by
  obtain ⟨word, _, _, h⟩ := (Takes.u16 c).error_behind he h
  obtain ⟨name, _, _, h⟩ := (Takes.u16 _).error_behind he h
  obtain ⟨descriptor, hlast, _, h⟩ := (Takes.u16 _).error_behind he h
  simp only [Cursor.advance_advance, Cursor.remaining_advance] at hlast h
  have hsix : 6 ≤ c.remaining := by omega
  have hhead : c.Passes (c.rest.take 6) (c.advance 6) := Cursor.passes_advance hsix
  rcases Cursor.bind_eq_error_iff.1 h with hlist | ⟨attributes, behind, _, hpure⟩
  · have hless : (c.advance 6).remaining < room := Nat.lt_of_le_of_lt hhead.remaining_le hroom
    exact (Attribute.faultBehind_of_list hless he hlist).after hhead fun list hopen =>
      ⟨_, list, List.length_take_of_le hsix, hopen, rfl⟩
  · exact nomatch hpure

/-- Wherever a field or method may start, it is read back. -/
theorem reads_behind {x : List UInt8} (hroom : c.remaining ≤ room) (hx : c.Passes x mid) :
    Reads (Member.read kind (readList pool room)) (layout kind pool) mid :=
  reads fun _ behind hy =>
    Attribute.reads_list room behind (Nat.le_trans (hx.trans hy).remaining_le hroom)

theorem reads_table (kind : AccessKind) (hroom : c.remaining ≤ room) :
    Reads (Cursor.table (Member.read kind (readList pool room)))
      (Layout.table (layout kind pool)) c :=
  Reads.table fun _ _ hx => reads_behind hroom hx

/-- The fields or methods cannot be read for the fault of an attribute of one of them. -/
theorem faultBehind_of_table (hroom : c.remaining < room) (he : ¬ e.IsAboutEnd)
    (h : Cursor.table (Member.read kind (readList pool room)) c = .error e) :
    FaultBehind pool (IsOpenTable kind pool) c e := by
  rcases (Reads.table_eq_error_iff fun _ _ hx => reads_behind (Nat.le_of_lt hroom) hx).1 h with
    hcount | ⟨count, members, stored, mid, hpass, hrows, hlt, hread⟩
  · exact absurd ((Takes.u16 c).isAboutEnd hcount) he
  · have hless : mid.remaining < room := Nat.lt_of_le_of_lt hpass.remaining_le hroom
    exact (faultBehind_of_read hless he hread).after hpass fun opening hopen =>
      ⟨count, members, stored, opening, hrows, hlt, hopen, rfl⟩

end Member

end Behind

/-! ## 4. Class files -/

namespace ClassFile

variable {texts : TextReader} {bytes : List UInt8} {e : DecodeError} {room : Nat}

/-- What can be wrong with the magic number. -/
theorem fault_of_readMagic (he : ¬ e.IsAboutEnd)
    (h : readMagic (Cursor.ofBytes bytes 0) = .error e) :
    ∃ found, e = .badMagic found ∧ 4 ≤ bytes.length ∧ found.toNat = numberAt bytes 0 4 ∧
      found ≠ classMagic := by
  obtain ⟨hfour, h⟩ := (Takes.u32 _).error_behind_of_eq Cursor.u32_of_le he h
  split at h
  · rename_i hother
    cases h
    exact ⟨_, rfl, hfour, UInt32.toNat_ofNat_of_lt' (BigEndian.numberAt_lt bytes 0 4), hother⟩
  · exact nomatch h

/-- Another number at the front is a fault whatever follows. -/
theorem parse_of_otherMagic (hfour : 4 ≤ bytes.length)
    (hother : numberAt bytes 0 4 ≠ classMagic.toNat) :
    parse bytes texts = .error (.badMagic (UInt32.ofNat (numberAt bytes 0 4))) := by
  have hne : UInt32.ofNat (numberAt bytes 0 4) ≠ classMagic := by
    intro heq
    refine hother ?_
    rw [← heq, UInt32.toNat_ofNat_of_lt' (BigEndian.numberAt_lt bytes 0 4)]
  have hmagic : readMagic (Cursor.ofBytes bytes 0) =
      .error (.badMagic (UInt32.ofNat (numberAt bytes 0 4))) := by
    unfold readMagic
    have hread : Cursor.u32 (Cursor.ofBytes bytes 0) =
        .ok (UInt32.ofNat (numberAt bytes 0 4), (Cursor.ofBytes bytes 0).advance 4) :=
      Cursor.u32_of_le hfour
    rw [Cursor.bind_of_ok hread, if_pos hne]
    rfl
  exact (parse_eq_error_iff_read (Nat.le_refl _)).2
    (.inl (Cursor.bind_eq_error_iff.2 (.inl hmagic)))

/-- What is behind the interfaces cannot be read for the fault of an attribute. -/
theorem faultBehind_of_parts {α : Type} {make : List Field → List Method → List Attribute → α}
    {pool : ConstantPool} {c : Cursor} (hroom : c.remaining < room) (he : ¬ e.IsAboutEnd)
    (h : (do
      let fields ← Cursor.table (Member.read .ofField (readList pool room))
      let methods ← Cursor.table (Member.read .ofMethod (readList pool room))
      let attributes ← readList pool room
      return make fields methods attributes : Read α) c = .error e) :
    FaultBehind pool (IsOpenBehind pool) c e := by
  rcases Cursor.bind_eq_error_iff.1 h with hfields | ⟨fields, c₁, hfields, h⟩
  · exact (Member.faultBehind_of_table hroom he hfields).after (Cursor.Passes.refl c)
      fun _ hopening => .field hopening
  obtain ⟨x, hx, hfields⟩ :=
    (Member.reads_table .ofField (Nat.le_of_lt hroom) fields c₁).1 hfields
  have hroom₁ : c₁.remaining < room := Nat.lt_of_le_of_lt hx.remaining_le hroom
  rcases Cursor.bind_eq_error_iff.1 h with hmethods | ⟨methods, c₂, hmethods, h⟩
  · exact (Member.faultBehind_of_table hroom₁ he hmethods).after hx
      fun _ hopening => .method hfields hopening
  obtain ⟨y, hy, hmethods⟩ :=
    (Member.reads_table .ofMethod (Nat.le_of_lt hroom₁) methods c₂).1 hmethods
  have hroom₂ : c₂.remaining < room := Nat.lt_of_le_of_lt hy.remaining_le hroom₁
  rcases Cursor.bind_eq_error_iff.1 h with hattributes | ⟨attributes, _, _, hpure⟩
  · refine (Attribute.faultBehind_of_list hroom₂ he hattributes).after (hx.trans hy)
      fun list hopening => ?_
    rw [List.append_assoc]
    exact .whole hfields hmethods hopening
  · exact nomatch hpure

/-- **A class file cannot be read for its magic number, for its pool, or for the fault of an
    attribute**, if the input does not end within it. -/
theorem fault_of_read (hroom : bytes.length < room) (he : ¬ e.IsAboutEnd)
    (h : ClassFile.read texts room (Cursor.ofBytes bytes 0) = .error e) :
    readMagic (Cursor.ofBytes bytes 0) = .error e ∨ ConstantPool.Cause texts bytes e ∨
      ∃ pool, FaultBehind pool (IsOpen texts pool) (Cursor.ofBytes bytes 0) e := by
  rcases Cursor.bind_eq_error_iff.1 h with hmagic | ⟨magic, c₁, hmagic, h⟩
  · exact .inl hmagic
  refine .inr ?_
  obtain ⟨_, hx, hclass, rfl⟩ := (reads_magic _ magic c₁).1 hmagic
  subst hclass
  obtain rfl : c₁ = (Cursor.ofBytes bytes 0).advance 4 := hx.eq_advance
  obtain ⟨minor, _, _, h⟩ := (Takes.u16 _).error_behind he h
  obtain ⟨major, hmajor, _, h⟩ := (Takes.u16 _).error_behind he h
  simp only [Cursor.advance_advance, Cursor.remaining_advance] at hmajor h
  obtain ⟨version, hversion, hfour⟩ :
      ∃ version, ((Cursor.ofBytes bytes 0).advance 4).Passes version
        ((Cursor.ofBytes bytes 0).advance 8) ∧ version.length = 4 := by
    have hle : 4 ≤ ((Cursor.ofBytes bytes 0).advance 4).remaining := by
      rw [Cursor.remaining_advance]
      omega
    have hpasses := Cursor.passes_advance hle
    rw [Cursor.advance_advance] at hpasses
    exact ⟨_, hpasses, List.length_take_of_le hle⟩
  rcases Cursor.bind_eq_error_iff.1 h with hpool | ⟨pool, c₂, hpool, h⟩
  · exact .inl (ConstantPool.cause_of_read he hpool)
  refine .inr ⟨pool, ?_⟩
  obtain ⟨stored, hstored, hlayout⟩ := (ConstantPool.reads _ pool c₂).1 hpool
  obtain ⟨word, _, _, h⟩ := (Takes.u16 _).error_behind he h
  obtain ⟨thisClass, _, _, h⟩ := (Takes.u16 _).error_behind he h
  obtain ⟨superClass, hlast, _, h⟩ := (Takes.u16 _).error_behind he h
  simp only [Cursor.advance_advance, Cursor.remaining_advance] at hlast h
  have hsix : 6 ≤ c₂.remaining := by omega
  have hnames : c₂.Passes (c₂.rest.take 6) (c₂.advance 6) := Cursor.passes_advance hsix
  rcases Cursor.bind_eq_error_iff.1 h with hinterfaces | ⟨interfaces, c₃, hinterfaces, h⟩
  · exact absurd ((Takes.table Takes.u16 _).isAboutEnd hinterfaces) he
  obtain ⟨_, hpassed, hcount, rfl⟩ := (Reads.table_fixed _ Reads.u16 interfaces c₃).1 hinterfaces
  have hfront := (((hx.trans hversion).trans hstored).trans hnames).trans hpassed
  have hheader : IsHeader texts pool (BigEndian.u32 classMagic ++ version ++ stored ++
      c₂.rest.take 6 ++ Layout.tableBytes BigEndian.u16 interfaces) :=
    ⟨version, stored, _, interfaces, hfour, hlayout, List.length_take_of_le hsix, hcount, rfl⟩
  have hless : c₃.remaining < room := Nat.lt_of_le_of_lt hfront.remaining_le hroom
  exact (faultBehind_of_parts hless he h).after hfront
    fun opening hopening => ⟨_, opening, hheader, hopening, rfl⟩

end ClassFile

/-! ## 5. Attributes at every depth -/

/-- The frame of an attribute stands at the place, with this index of its name and this body: behind
    the beginning of a class file, or carried by code that stands in such a body itself. -/
inductive AttributeAt (texts : TextReader) (bytes : List UInt8) (pool : ConstantPool) :
    (place : Nat) → (index : UInt16) → (body : List UInt8) → Prop
  | outer {front rest : List UInt8} (opening : ClassFile.IsOpen texts pool front)
      (whole : bytes = front ++ rest) (fits : FrameFits rest) :
      AttributeAt texts bytes pool front.length (frameIndex rest) (frameBody rest)
  | carried {place : Nat} {index : UInt16} {front rest : List UInt8}
      (outer : AttributeAt texts bytes pool place index (front ++ rest))
      (code : pool.text index = .ok AttributeName.code.text) (opening : IsOpenCode pool front)
      (fits : FrameFits rest) :
      AttributeAt texts bytes pool (place + 6 + front.length) (frameIndex rest) (frameBody rest)

namespace Attribute

variable {texts : TextReader} {bytes : List UInt8} {pool : ConstantPool} {place : Nat}
  {index : UInt16} {body : List UInt8} {e : DecodeError}

/-- The bytes of a frame that stands at a place. -/
structure FrameStandsAt (bytes : List UInt8) (place : Nat) (index : UInt16) (body : List UInt8) :
    Prop where
  index : numberAt bytes place 2 = index.toNat
  length : numberAt bytes (place + 2) 4 = body.length
  body : body <+: bytes.drop (place + 6)

theorem frameStandsAt_of_fits {rest : List UInt8} (h : rest <+: bytes.drop place)
    (hfits : FrameFits rest) : FrameStandsAt bytes place (frameIndex rest) (frameBody rest) := by
  obtain ⟨hsix, hlength⟩ := hfits
  refine ⟨?_, ?_, ?_⟩
  · rw [frameIndex, UInt16.toNat_ofNat_of_lt' (BigEndian.numberAt_lt rest 0 2)]
    exact BigEndian.numberAt_of_part (k := 0) h (by omega)
  · have hbody : (frameBody rest).length = frameLength rest :=
      List.length_take_of_le (by rwa [List.length_drop])
    rw [hbody]
    exact BigEndian.numberAt_of_part h (by omega)
  · have hcut : rest = rest.take 6 ++ rest.drop 6 := (List.take_append_drop 6 rest).symm
    rw [hcut] at h
    have hbehind := (prefix_drop_of_append h).2
    rw [List.length_take_of_le hsix] at hbehind
    exact (List.take_prefix _ _).trans hbehind

/-- **An attribute stands in the file where it is said to stand**, at whatever depth. -/
theorem frameStandsAt (h : AttributeAt texts bytes pool place index body) :
    FrameStandsAt bytes place index body := by
  induction h with
  | @outer front rest _ whole fits =>
    have hrest : bytes.drop front.length = rest := by rw [whole, List.drop_left]
    exact frameStandsAt_of_fits ⟨[], by rw [hrest, List.append_nil]⟩ fits
  | carried _ _ _ fits ih => exact frameStandsAt_of_fits (prefix_drop_of_append ih.body).2 fits

/-- What is wrong with an attribute of a class file: the fault, and what the bytes show. -/
inductive Cause (texts : TextReader) (bytes : List UInt8) : DecodeError → Prop
  /-- There is no entry at the index of its name. -/
  | noEntry {pool : ConstantPool} {place : Nat} {index : UInt16} {body : List UInt8}
      (stands : AttributeAt texts bytes pool place index body)
      (frame : FrameStandsAt bytes place index body) (missing : pool.entry? index = none) :
      Cause texts bytes (.indexOutOfRange index.toNat)
  /-- The entry at the index of its name is not a text. -/
  | noText {pool : ConstantPool} {place : Nat} {index : UInt16} {body : List UInt8}
      {entry : Entry} (stands : AttributeAt texts bytes pool place index body)
      (frame : FrameStandsAt bytes place index body) (found : pool.entry? index = some entry)
      (other : entry.tag ≠ .utf8) : Cause texts bytes (.tagMismatch index.toNat .utf8 entry.tag)
  /-- It has a recognised name, and its body breaks the rules of that name. -/
  | malformed {pool : ConstantPool} {place : Nat} {index : UInt16} {body : List UInt8}
      {name : AttributeName} (stands : AttributeAt texts bytes pool place index body)
      (frame : FrameStandsAt bytes place index body) (named : pool.text index = .ok name.text)
      (fault : BodyFault pool name body (.malformedAttribute name)) :
      Cause texts bytes (.malformedAttribute name)

theorem cause_of_malformed {name : AttributeName}
    (h : AttributeAt texts bytes pool place index body)
    (hname : pool.text index = .ok name.text)
    (hfault : BodyFault pool name body (.malformedAttribute name)) :
    Cause texts bytes (.malformedAttribute name) := .malformed h (frameStandsAt h) hname hfault

mutual

/-- **A fault inside of a frame is one of an attribute that stands there or deeper.** -/
theorem cause_of_frame {index : UInt16} {body : List UInt8} {e : DecodeError} :
    FrameFault pool index body e → ∀ place, AttributeAt texts bytes pool place index body →
      Cause texts bytes e
  | .name h, _, stands => by
    rcases ConstantPool.fault_of_text h with ⟨hmissing, rfl⟩ | ⟨entry, hentry, hother, rfl⟩
    · exact .noEntry stands (frameStandsAt stands) hmissing
    · exact .noText stands (frameStandsAt stands) hentry hother
  | .body hname h, place, stands => cause_of_body h place _ hname stands

/-- The same for a body: what is wrong deeper is wrong with an attribute that it carries. -/
theorem cause_of_body {name : AttributeName} {body : List UInt8} {e : DecodeError} :
    BodyFault pool name body e → ∀ place index, pool.text index = .ok name.text →
      AttributeAt texts bytes pool place index body → Cause texts bytes e
  | .codeLength hread hlength, _, _, hname, stands =>
    cause_of_malformed stands hname (.codeLength hread hlength)
  | .runsOut hshort, _, _, hname, stands =>
    cause_of_malformed stands hname (.runsOut hshort)
  | .carriedRunsOut hfront hshort, _, _, hname, stands =>
    cause_of_malformed stands hname (.carriedRunsOut hfront hshort)
  | .carried hfront hfits h, _, _, hname, stands =>
    cause_of_frame h _ (.carried stands hname hfront hfits)
  | .leftOver hstored hleft, _, _, hname, stands =>
    cause_of_malformed stands hname (.leftOver hstored hleft)

end

end Attribute

/-! ## 6. Causes -/

namespace ClassFile

variable {texts : TextReader} {bytes : List UInt8} {e : DecodeError}

/-- **Why a byte string is no class file**: the fault, and what the bytes show. No instruction is
    decoded and no descriptor is split when a class file is read, so nothing is said of them. -/
inductive Cause (texts : TextReader) (bytes : List UInt8) : DecodeError → Prop
  /-- The first four bytes are another number. -/
  | magic {found : UInt32} (whole : 4 ≤ bytes.length) (value : found.toNat = numberAt bytes 0 4)
      (other : found ≠ classMagic) : Cause texts bytes (.badMagic found)
  | ofPool {e : DecodeError} (cause : ConstantPool.Cause texts bytes e) : Cause texts bytes e
  | ofAttribute {e : DecodeError} (cause : Attribute.Cause texts bytes e) : Cause texts bytes e
  /-- The class ends, and there are more bytes. -/
  | trailing {c : ClassFile} {offset count : Nat} (class_ends : layout texts c (bytes.take offset))
      (more : 1 ≤ count) (total : offset + count = bytes.length) :
      Cause texts bytes (.trailingBytes offset count)
  /-- A byte is missing, of something that starts within the bytes. -/
  | truncated {offset : Nat} (within : offset ≤ bytes.length) :
      Cause texts bytes (.truncatedInput offset)

/-- A class with more bytes behind it. -/
theorem cause_of_trailing {c : ClassFile} {behind : Cursor} {room : Nat}
    (hroom : bytes.length ≤ room)
    (h : ClassFile.read texts room (Cursor.ofBytes bytes 0) = .ok (c, behind))
    (hmore : behind.isEmpty = false) :
    Cause texts bytes (.trailingBytes behind.offset behind.remaining) := by
  obtain ⟨x, hx, hlayout⟩ := (reads room (Cursor.ofBytes bytes 0) hroom c behind).1 h
  have hbytes : bytes = x ++ behind.rest := hx.rest
  have hoffset : behind.offset = x.length := by
    rw [hx.offset]
    exact Nat.zero_add _
  have hpos : 1 ≤ behind.remaining :=
    List.length_pos_iff.2 (List.isEmpty_eq_false_iff.1 hmore)
  refine .trailing (c := c) ?_ hpos ?_
  · rw [hoffset, hbytes, List.take_left]
    exact hlayout
  · rw [hoffset, hbytes, List.length_append]
    rfl

/-- What is wrong within the bytes of a class file. -/
theorem cause_of_read {room : Nat} (hroom : bytes.length < room)
    (h : ClassFile.read texts room (Cursor.ofBytes bytes 0) = .error e) : Cause texts bytes e := by
  by_cases he : e.IsAboutEnd
  · obtain ⟨o, rfl, _, hstop⟩ := (stable_read texts room).short h he
    exact .truncated (stop_ofBytes bytes ▸ hstop)
  · rcases fault_of_read hroom he h with hmagic | hpool | ⟨pool, front, mid, hpass, hopen, hfits,
      hfault⟩
    · obtain ⟨found, rfl, hfour, hvalue, hother⟩ := fault_of_readMagic he hmagic
      exact .magic hfour hvalue hother
    · exact .ofPool hpool
    · exact .ofAttribute (Attribute.cause_of_frame hfault _ (.outer hopen hpass.rest hfits))

/-- **A byte string that is no class file is refused for what its bytes show.** Every fault has its
    cause there; a number at the front other than that of class files is always told, whatever
    follows, and no fault is about an instruction or a descriptor. -/
theorem cause_of_parse (texts : TextReader) (bytes : List UInt8) :
    (∀ e, parse bytes texts = .error e → Cause texts bytes e) ∧
    (4 ≤ bytes.length → numberAt bytes 0 4 ≠ classMagic.toNat →
      parse bytes texts = .error (.badMagic (UInt32.ofNat (numberAt bytes 0 4)))) ∧
    (∀ opcode pc, parse bytes texts ≠ .error (.unknownOpcode opcode pc)) ∧
    ∀ text, parse bytes texts ≠ .error (.invalidDescriptor text) := by
  have hroom : bytes.length < bytes.length + 1 := Nat.lt_succ_self _
  have hcause : ∀ e, parse bytes texts = .error e → Cause texts bytes e := by
    intro e h
    rcases (parse_eq_error_iff_read (Nat.le_of_lt hroom)).1 h with
      hread | ⟨c, behind, hread, hmore, rfl⟩
    · exact cause_of_read hroom hread
    · exact cause_of_trailing (Nat.le_of_lt hroom) hread hmore
  refine ⟨hcause, parse_of_otherMagic, fun opcode pc h => ?_, fun text h => ?_⟩
  · cases hcause _ h with
    | ofPool cause => exact nomatch cause
    | ofAttribute cause => exact nomatch cause
  · cases hcause _ h with
    | ofPool cause => exact nomatch cause
    | ofAttribute cause => exact nomatch cause

/-- The class with one attribute, whose name has an index without an entry. -/
def missingName : List UInt8 := oneAttribute.set 29 5

/-- The index is told, and another number at the front before everything else. -/
theorem cause_of_parse_missingName :
    (parse missingName = .error (.indexOutOfRange 5) ∧
      Cause Text.text? missingName (.indexOutOfRange 5)) ∧
    4 ≤ (missingName.set 3 0xbf).length ∧
    numberAt (missingName.set 3 0xbf) 0 4 ≠ classMagic.toNat ∧
    parse (missingName.set 3 0xbf) = .error (.badMagic 0xcafebabf) := by
  have h : parse missingName = .error (.indexOutOfRange 5) := by rfl
  have hfour : 4 ≤ (missingName.set 3 0xbf).length := by decide
  have hother : numberAt (missingName.set 3 0xbf) 0 4 ≠ classMagic.toNat := by decide
  obtain ⟨hcause, _⟩ := cause_of_parse Text.text? missingName
  obtain ⟨_, hmagic, _⟩ := cause_of_parse Text.text? (missingName.set 3 0xbf)
  exact ⟨⟨h, hcause _ h⟩, hfour, hother, hmagic hfour hother⟩

end ClassFile

end ClassView
