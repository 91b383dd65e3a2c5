import ClassView.Proofs.Attribute.Layout

/-!
# Reading attributes back

`Attribute.readList` against the bytes of lists of attributes, at every depth. A nested list is read
inside the body of its parent, which is taken as a whole before, so what is read of it depends on
the cursor of that body alone.

* `Attribute.reads_body`: the body of a recognised attribute, given how a nested list is read;
* `Attribute.read_frame`: one attribute, given the same;
* **`Attribute.reads_list`**: lists are read exactly from the bytes of well-formed lists, if `room`
  covers the bytes ahead.
-/

namespace ClassView

/-- The fault as it is told outside of a body that belongs to an attribute of this name: a body that
    runs out is malformed. -/
def DecodeError.outside (name : AttributeName) : DecodeError → DecodeError
  | .truncatedInput _ => .malformedAttribute name
  | e => e

namespace Attribute

/-! ## 1. Layouts -/

/-- The attributes that can be stored, as they are stored. -/
def layout (pool : ConstantPool) : Layout Attribute :=
  Layout.formed (WellFormed pool) (AttributeForm.Fits pool) bytes

/-- The lists of attributes that can be stored, as they are stored. -/
def listLayout (pool : ConstantPool) : Layout (List Attribute) := Layout.table (layout pool)

/-- The attributes of a name, as their bodies are stored. -/
def bodyLayout (pool : ConstantPool) (name : AttributeName) : Layout Attribute := fun a bytes =>
  a.recognised? = some name ∧ a.IsSized ∧
    ∃ carried, listLayout pool a.nested carried ∧ bytes = a.body carried

variable {pool : ConstantPool} {name : AttributeName} {c : Cursor}

theorem listLayout_iff {as : List Attribute} {bytes : List UInt8} :
    listLayout pool as bytes ↔ ListWellFormed pool as ∧ ∃ forms,
      List.Forall₂ (AttributeForm.Fits pool) forms as ∧ bytes = listBytes forms as := by
  unfold listLayout layout listBytes
  simp only [rowBytes_eq]
  refine Layout.table_formed_iff.trans (and_congr_left fun _ => ⟨fun h => ?_, fun h => ?_⟩)
  · exact ⟨h.1, h.2⟩
  · exact ⟨h.length_lt, h.all⟩

/-- The empty list can be stored. -/
theorem listLayout_nil : listLayout pool [] (listBytes [] []) :=
  listLayout_iff.2 ⟨⟨by decide, fun _ h => absurd h List.not_mem_nil⟩, [], .nil, rfl⟩

/-- The attributes of a name. -/
theorem recognised?_eq_some_iff (name : AttributeName) (a : Attribute) :
    a.recognised? = some name ↔
      match name with
      | .code => ∃ body, a = .code body
      | .constantValue => ∃ constant, a = .constantValue constant
      | .exceptions => ∃ classes, a = .exceptions classes
      | .sourceFile => ∃ text, a = .sourceFile text
      | .signature => ∃ text, a = .signature text
      | .lineNumberTable => ∃ rows, a = .lineNumberTable rows
      | .localVariableTable => ∃ rows, a = .localVariableTable rows
      | .deprecated => a = .deprecated
      | .synthetic => a = .synthetic := by
  cases name <;> cases a <;> simp [recognised?]

/-! ## 2. Bodies -/

/-- A body that carries no attributes. -/
theorem reads_leaf {α : Type} {read : Read α} {stores : α → Prop} {write : α → List UInt8}
    (f : α → Attribute) (h : Reads read (fun v bytes => stores v ∧ bytes = write v) c)
    (hname : ∀ a : Attribute, a.recognised? = some name ↔ ∃ v, a = f v)
    (hsized : ∀ v, (f v).IsSized ↔ stores v) (hnested : ∀ v, (f v).nested = [])
    (hbody : ∀ v carried, (f v).body carried = write v) :
    Reads (f <$> read) (bodyLayout pool name) c := by
  refine (h.map f).congr fun a bytes => ?_
  unfold bodyLayout
  rw [hname]
  refine ⟨fun h => ?_, fun h => ?_⟩
  · obtain ⟨v, rfl, hv, rfl⟩ := h
    refine ⟨⟨v, rfl⟩, (hsized v).2 hv, listBytes [] [], ?_, (hbody v _).symm⟩
    rw [hnested]
    exact listLayout_nil
  · obtain ⟨⟨v, rfl⟩, hv, carried, _, rfl⟩ := h
    exact ⟨v, rfl, (hsized v).1 hv, hbody v carried⟩

/-- A body that is one number. -/
theorem reads_index (f : UInt16 → Attribute)
    (hname : ∀ a : Attribute, a.recognised? = some name ↔ ∃ v, a = f v)
    (hsized : ∀ v, (f v).IsSized) (hnested : ∀ v, (f v).nested = [])
    (hbody : ∀ v carried, (f v).body carried = BigEndian.u16 v) :
    Reads (f <$> Cursor.u16) (bodyLayout pool name) c := by
  have h : Reads Cursor.u16 (fun v bytes => True ∧ bytes = BigEndian.u16 v) c :=
    (Reads.u16 c).congr fun _ _ => ⟨fun h => ⟨trivial, h⟩, fun h => h.2⟩
  exact reads_leaf f h hname (fun v => iff_of_true (hsized v) trivial) hnested hbody

/-- A body that is empty. -/
theorem reads_mark {a : Attribute}
    (hname : ∀ b : Attribute, b.recognised? = some name ↔ b = a) (hsized : a.IsSized)
    (hnested : a.nested = []) (hbody : ∀ carried, a.body carried = []) :
    Reads (pure a) (bodyLayout pool name) c := by
  refine (Reads.pure a c).congr fun b bytes => ?_
  unfold bodyLayout
  rw [hname]
  refine ⟨fun h => ?_, fun h => ?_⟩
  · obtain ⟨rfl, rfl⟩ := h
    refine ⟨rfl, hsized, listBytes [] [], ?_, (hbody _).symm⟩
    rw [hnested]
    exact listLayout_nil
  · obtain ⟨rfl, _, carried, _, rfl⟩ := h
    exact ⟨rfl, hbody carried⟩

theorem reads_handler (c : Cursor) :
    Reads readHandler (Layout.fixed ExceptionHandler.bytes) c := by
  have h : Reads readHandler _ c :=
    (Reads.u16 c).bind fun start _ c₁ _ _ =>
      (Reads.u16 c₁).bind fun stop _ c₂ _ _ =>
        Reads.pair (fun handler catchType => ExceptionHandler.mk start stop handler catchType) c₂
          Reads.u16 Reads.u16
  refine h.congr fun row bytes => ?_
  simp only [Layout.bind_fixed_iff]
  refine ⟨fun h => ?_, fun h => ?_⟩
  · obtain ⟨start, _, ⟨stop, _, ⟨handler, catchType, rfl, rfl⟩, rfl⟩, rfl⟩ := h
    rfl
  · exact ⟨row.start, _, ⟨row.stop, _, ⟨row.handler, row.catchType, rfl, rfl⟩, rfl⟩, h⟩

theorem reads_lineNumber (c : Cursor) :
    Reads readLineNumber (Layout.fixed LineNumber.bytes) c := by
  refine (Reads.pair LineNumber.mk c Reads.u16 Reads.u16).congr fun row bytes =>
    ⟨fun h => ?_, fun h => ?_⟩
  · obtain ⟨start, line, rfl, rfl⟩ := h
    rfl
  · exact ⟨row.start, row.line, rfl, h⟩

theorem reads_localVariable (c : Cursor) :
    Reads readLocalVariable (Layout.fixed LocalVariable.bytes) c := by
  have h : Reads readLocalVariable _ c :=
    (Reads.u16 c).bind fun start _ c₁ _ _ =>
      (Reads.u16 c₁).bind fun length _ c₂ _ _ =>
        (Reads.u16 c₂).bind fun name _ c₃ _ _ =>
          Reads.pair (fun descriptor slot => LocalVariable.mk start length name descriptor slot) c₃
            Reads.u16 Reads.u16
  refine h.congr fun row bytes => ?_
  simp only [Layout.bind_fixed_iff]
  refine ⟨fun h => ?_, fun h => ?_⟩
  · obtain ⟨start, _, ⟨length, _, ⟨name, _, ⟨descriptor, slot, rfl, rfl⟩, rfl⟩, rfl⟩, rfl⟩ := h
    rfl
  · exact ⟨row.start, _, ⟨row.length, _, ⟨row.name, _,
      ⟨row.descriptor, row.slot, rfl, rfl⟩, rfl⟩, rfl⟩, h⟩

/-- The test that a length of code must pass, said of the number. -/
theorem isBadLength_iff (length : UInt32) :
    length = 0 ∨ 65536 ≤ length ↔ length.toNat = 0 ∨ 65536 ≤ length.toNat := by
  rw [UInt32.le_iff_toNat_le, ← UInt32.toNat_inj]
  rfl

/-- The test that a length of code must pass, said of the code. -/
theorem codeLength_fits_iff {length : UInt32} {code : List UInt8}
    (h : code.length = length.toNat) :
    ¬ (length = 0 ∨ 65536 ≤ length) ↔ 1 ≤ code.length ∧ code.length ≤ 65535 := by
  rw [isBadLength_iff, h]
  omega

/-- Bodies of code as they are stored, the attributes that they carry being stored as `carried`
    says. -/
def codeLayout (carried : Layout (List Attribute)) : Layout Code := fun code bytes =>
  (1 ≤ code.bytes.length ∧ code.bytes.length ≤ 65535 ∧ code.handlers.length < 65536) ∧
    ∃ rest, carried code.attributes rest ∧ bytes = (Attribute.code code).body rest

/-- Code, however the attributes in it are read. -/
theorem reads_codeOf {nested : Read (List Attribute)} {carried : Layout (List Attribute)}
    (h : ∀ x mid, c.Passes x mid → Reads nested carried mid) :
    Reads (readCode nested) (codeLayout carried) c := by
  have hcode : Reads (readCode nested) _ c :=
    (Reads.u16 c).bind fun maxStack _ c₁ h₁ _ =>
      (Reads.u16 c₁).bind fun maxLocals _ c₂ h₂ _ =>
        (Reads.u32 c₂).bind fun length _ c₃ h₃ _ =>
          Reads.guard fun _ =>
            (Reads.take length.toNat c₃).bind fun bytes _ c₄ h₄ _ =>
              (Reads.table_fixed c₄ reads_handler).bind fun handlers _ c₅ h₅ _ =>
                (h _ c₅ (h₁.trans (h₂.trans (h₃.trans (h₄.trans h₅))))).bind
                  fun attributes _ c₆ _ _ =>
                    Reads.pure (CodeOf.mk maxStack maxLocals bytes handlers attributes) c₆
  refine hcode.congr fun code bytes => ?_
  unfold codeLayout
  simp only [Layout.bind_fixed_iff]
  refine ⟨fun h => ?_, fun h => ?_⟩
  · obtain ⟨maxStack, _, ⟨maxLocals, _, ⟨length, _, ⟨hlength, bytes, x, _, ⟨rfl, hbytes⟩,
      ⟨handlers, _, _, ⟨hhandlers, rfl⟩, ⟨attributes, y, _, hcarried, ⟨rfl, rfl⟩, rfl⟩, rfl⟩, rfl⟩,
      rfl⟩, rfl⟩, rfl⟩ := h
    obtain ⟨hpos, hle⟩ := (codeLength_fits_iff hbytes).1 hlength
    refine ⟨⟨hpos, hle, hhandlers⟩, y, hcarried, ?_⟩
    rw [body, BigEndian.u32, ← hbytes, List.append_nil]
  · obtain ⟨⟨hpos, hle, hhandlers⟩, carried, hcarried, rfl⟩ := h
    have hbytes : code.bytes.length = (UInt32.ofNat code.bytes.length).toNat :=
      (UInt32.toNat_ofNat_of_lt' (by show _ < 4294967296; omega)).symm
    refine ⟨code.maxStack, _, ⟨code.maxLocals, _, ⟨UInt32.ofNat code.bytes.length, _,
      ⟨(codeLength_fits_iff hbytes).2 ⟨hpos, hle⟩, code.bytes, code.bytes, _, ⟨rfl, hbytes⟩,
      ⟨code.handlers, _, _, ⟨hhandlers, rfl⟩, ⟨code.attributes, carried, [], hcarried, ⟨rfl, rfl⟩,
      rfl⟩, rfl⟩, rfl⟩, rfl⟩, rfl⟩, ?_⟩
    rw [body, BigEndian.u32, ← hbytes, List.append_nil]

/-- Code, the attributes in it being read by `carried`. -/
theorem reads_code {carried : Read (List Attribute)}
    (h : ∀ x mid, c.Passes x mid → Reads carried (listLayout pool) mid) :
    Reads (.code <$> readCode carried) (bodyLayout pool .code) c := by
  refine ((reads_codeOf h).map Attribute.code).congr fun a bytes => ?_
  unfold bodyLayout
  rw [recognised?_eq_some_iff]
  refine ⟨fun h => ?_, fun h => ?_⟩
  · obtain ⟨code, rfl, ⟨hpos, hle, hhandlers⟩, y, hcarried, rfl⟩ := h
    exact ⟨⟨code, rfl⟩, ⟨hpos, hle, hhandlers, hcarried.1⟩, y, hcarried, rfl⟩
  · obtain ⟨⟨code, rfl⟩, ⟨hpos, hle, hhandlers, _⟩, y, hcarried, rfl⟩ := h
    exact ⟨code, rfl, ⟨hpos, hle, hhandlers⟩, y, hcarried, rfl⟩

/-- The body of a recognised attribute is read back. -/
theorem reads_body {carried : Read (List Attribute)}
    (h : ∀ x mid, c.Passes x mid → Reads carried (listLayout pool) mid) (name : AttributeName) :
    Reads (readBody carried name) (bodyLayout pool name) c := by
  cases name with
  | code => exact reads_code h
  | constantValue =>
    exact reads_index .constantValue (recognised?_eq_some_iff .constantValue) (fun _ => trivial)
      (fun _ => rfl) (fun _ _ => rfl)
  | exceptions =>
    exact reads_leaf .exceptions (Reads.table_fixed c Reads.u16)
      (recognised?_eq_some_iff .exceptions) (fun _ => Iff.rfl) (fun _ => rfl) (fun _ _ => rfl)
  | sourceFile =>
    exact reads_index .sourceFile (recognised?_eq_some_iff .sourceFile) (fun _ => trivial)
      (fun _ => rfl) (fun _ _ => rfl)
  | signature =>
    exact reads_index .signature (recognised?_eq_some_iff .signature) (fun _ => trivial)
      (fun _ => rfl) (fun _ _ => rfl)
  | lineNumberTable =>
    exact reads_leaf .lineNumberTable (Reads.table_fixed c reads_lineNumber)
      (recognised?_eq_some_iff .lineNumberTable) (fun _ => Iff.rfl) (fun _ => rfl)
      (fun _ _ => rfl)
  | localVariableTable =>
    exact reads_leaf .localVariableTable (Reads.table_fixed c reads_localVariable)
      (recognised?_eq_some_iff .localVariableTable) (fun _ => Iff.rfl) (fun _ => rfl)
      (fun _ _ => rfl)
  | deprecated =>
    exact reads_mark (recognised?_eq_some_iff .deprecated) trivial rfl (fun _ => rfl)
  | synthetic =>
    exact reads_mark (recognised?_eq_some_iff .synthetic) trivial rfl (fun _ => rfl)

/-! ## 3. Frames -/

theorem ofBody_of_ok {nested : Read (List Attribute)} {a : Attribute} {behind : Cursor}
    (h : readBody nested name c = .ok (a, behind)) :
    ofBody nested name c =
      if behind.isEmpty then .ok a else .error (.malformedAttribute name) := by
  rw [ofBody, h]

theorem ofBody_of_error {nested : Read (List Attribute)} {e : DecodeError}
    (h : readBody nested name c = .error e) : ofBody nested name c = .error (e.outside name) := by
  rw [ofBody, h]
  cases e <;> rfl

/-- A whole body is an attribute exactly if it is the body of it. -/
theorem ofBody_eq_ok_iff {carried : Read (List Attribute)} {body : List UInt8} {base : Nat}
    {a : Attribute} (h : Reads (readBody carried name) (bodyLayout pool name)
      (Cursor.ofBytes body base)) :
    ofBody carried name (Cursor.ofBytes body base) = .ok a ↔ bodyLayout pool name a body :=
  h.whole (fun _ => .malformedAttribute name) (fun _ _ hread => ofBody_of_ok hread)
    (fun _ hread => ⟨_, ofBody_of_error hread⟩)

/-- The body of an attribute, as it is stored. -/
def HasBody (pool : ConstantPool) (a : Attribute) (bytes : List UInt8) : Prop :=
  a.IsSized ∧ ∃ carried, listLayout pool a.nested carried ∧ bytes = a.body carried

/-- What the body of an attribute is if the text at the index of its name is known. -/
theorem isNamedBy_and_hasBody_iff {index : UInt16} {body : List UInt8} {a : Attribute} :
    a.IsNamedBy pool index ∧ a.HasBody pool body ↔ ∃ text, pool.text index = .ok text ∧
      match AttributeName.ofText? text with
      | some name => bodyLayout pool name a body
      | none => a = .unknown index body := by
  unfold IsNamedBy
  simp only [ConstantPool.text_eq_ok_iff]
  refine ⟨fun h => ?_, fun h => ?_⟩
  · obtain ⟨⟨text, hentry, hname, hown⟩, hbody⟩ := h
    refine ⟨text, hentry, ?_⟩
    rw [hname]
    cases a with
    | unknown own bytes =>
      obtain ⟨_, _, _, rfl⟩ := hbody
      rw [hown own _ rfl]
      rfl
    | _ => exact ⟨rfl, hbody⟩
  · obtain ⟨text, hentry, hbody⟩ := h
    cases hname : AttributeName.ofText? text with
    | some name =>
      rw [hname] at hbody
      obtain ⟨ha, hbody⟩ := hbody
      refine ⟨⟨text, hentry, ha.symm ▸ hname, fun own bytes h => ?_⟩, hbody⟩
      rw [h] at ha
      exact nomatch ha
    | none =>
      rw [hname] at hbody
      obtain rfl : a = .unknown index body := hbody
      refine ⟨⟨text, hentry, hname, fun own bytes h => ?_⟩, trivial, _, listLayout_nil, rfl⟩
      cases h
      rfl

/-- The frame of an attribute and its body, as they are stored. -/
def frameLayout (pool : ConstantPool) : Layout Attribute := fun a bytes =>
  ∃ index body, a.IsNamedBy pool index ∧ a.HasBody pool body ∧ body.length < 4294967296 ∧
    bytes = frame index body

/-- One attribute, if `carried` reads the lists in a body that lies ahead. -/
theorem reads_frame {carried : Read (List Attribute)}
    (h : ∀ body base x mid, body.length + 6 ≤ c.remaining →
      (Cursor.ofBytes body base).Passes x mid → Reads carried (listLayout pool) mid) :
    Reads (read pool carried) (frameLayout pool) c := by
  have hread : Reads (read pool carried) (Layout.bind (Layout.fixed BigEndian.u16) fun index =>
      Layout.bind (Layout.fixed BigEndian.u32) fun length =>
        Layout.bind (fun taken bytes => taken = bytes ∧ bytes.length = length.toNat) fun body a y =>
          (a.IsNamedBy pool index ∧ a.HasBody pool body) ∧ y = []) c := by
    refine (Reads.u16 c).bind fun index x₁ c₁ h₁ hx₁ => ?_
    refine (Reads.u32 c₁).bind fun length x₂ c₂ h₂ hx₂ => Reads.get ?_
    refine (Reads.take length.toNat c₂).bind fun body x₃ c₃ h₃ hx₃ => ?_
    have hroom : body.length + 6 ≤ c.remaining := by
      have hlen₁ : x₁.length = 2 := by rw [hx₁, BigEndian.length_u16]
      have hlen₂ : x₂.length = 4 := by rw [hx₂, BigEndian.length_u32]
      have hlen₃ : body.length = x₃.length := congrArg List.length hx₃.1
      rw [h₁.remaining, h₂.remaining, h₃.remaining]
      omega
    refine Reads.congr (?_ : Reads _ (fun a y => ∃ text, pool.text index = .ok text ∧
      (match AttributeName.ofText? text with
        | some name => bodyLayout pool name a body
        | none => a = .unknown index body) ∧ y = []) c₃) fun a y => ?_
    · refine Reads.lift fun text _ => ?_
      cases hname : AttributeName.ofText? text with
      | none => exact Reads.pure _ c₃
      | some name =>
        refine (Reads.lift_only _ c₃).congr fun a y => and_congr_left fun _ => ?_
        exact ofBody_eq_ok_iff (reads_body (fun x mid => h body _ x mid hroom) name)
    · rw [isNamedBy_and_hasBody_iff]
      refine ⟨fun h => ?_, fun h => ?_⟩
      · obtain ⟨text, htext, hbody, hy⟩ := h
        exact ⟨⟨text, htext, hbody⟩, hy⟩
      · obtain ⟨⟨text, htext, hbody⟩, hy⟩ := h
        exact ⟨text, htext, hbody, hy⟩
  refine hread.congr fun a bytes => ?_
  simp only [Layout.bind_fixed_iff]
  refine ⟨fun h => ?_, fun h => ?_⟩
  · obtain ⟨index, _, ⟨length, _, ⟨body, _, _, ⟨rfl, hlen⟩, ⟨⟨hnamed, hbody⟩, rfl⟩, rfl⟩, rfl⟩,
      rfl⟩ := h
    refine ⟨index, body, hnamed, hbody, hlen ▸ length.toNat_lt, ?_⟩
    rw [frame, BigEndian.u32, hlen, List.append_nil]
  · obtain ⟨index, body, hnamed, hbody, hlt, rfl⟩ := h
    have hlen : body.length = (UInt32.ofNat body.length).toNat :=
      (UInt32.toNat_ofNat_of_lt' hlt).symm
    refine ⟨index, _, ⟨UInt32.ofNat body.length, _, ⟨body, body, [], ⟨rfl, hlen⟩,
      ⟨⟨hnamed, hbody⟩, rfl⟩, rfl⟩, rfl⟩, ?_⟩
    rw [frame, BigEndian.u32, ← hlen, List.append_nil]

/-! ## 4. Lists -/

theorem nested_length_lt {a : Attribute} (h : a.IsSized) : a.nested.length < 65536 := by
  cases a with
  | code c => exact h.2.2.2
  | _ => exact Nat.zero_lt_succ _

theorem length_listBytes {forms : List AttributeForm} {as : List Attribute}
    (h : List.Forall₂ (AttributeForm.Fits pool) forms as) :
    (listBytes forms as).length = 2 + rowLength as := by
  rw [listBytes, List.length_append, BigEndian.length_toBytes, length_rowBytes forms as h]

/-- An attribute that can be stored is stored as its frame and its body. -/
theorem frameLayout_iff {a : Attribute} {bytes : List UInt8} :
    frameLayout pool a bytes ↔ layout pool a bytes := by
  refine ⟨fun h => ?_, fun h => ?_⟩
  · obtain ⟨index, _, hnamed, ⟨hsized, _, hlist, rfl⟩, hlt, rfl⟩ := h
    obtain ⟨⟨_, hall⟩, forms, hforms, rfl⟩ := listLayout_iff.1 hlist
    rw [length_body a (length_listBytes hforms)] at hlt
    refine ⟨.mk ⟨⟨index, hnamed⟩, hsized, hlt⟩ hall, ⟨index, forms⟩, .mk hnamed hforms, ?_⟩
    rw [bytes_eq]
  · obtain ⟨⟨⟨_, hsized, hlt⟩, hall⟩, form, ⟨hnamed, hforms⟩, rfl⟩ := h
    have hlist : listLayout pool a.nested (listBytes form.nested a.nested) :=
      listLayout_iff.2 ⟨⟨nested_length_lt hsized, hall⟩, form.nested, hforms, rfl⟩
    refine ⟨form.name, _, hnamed, ⟨hsized, _, hlist, rfl⟩, ?_, bytes_eq form a⟩
    rwa [length_body a (length_listBytes hforms)]

/-- **Lists of attributes are read back at every depth.** The induction is on `room`: a body is
    shorter than the frame it stands in, so what is left covers the lists in it. -/
theorem reads_list (room : Nat) (c : Cursor) (hroom : c.remaining ≤ room) :
    Reads (readList pool room) (listLayout pool) c := by
  induction room generalizing c with
  | zero =>
    intro as c'
    refine ⟨fun h => (nomatch h), fun h => ?_⟩
    obtain ⟨_, hpass, hlist⟩ := h
    obtain ⟨_, forms, hforms, rfl⟩ := listLayout_iff.1 hlist
    have hlen := length_listBytes hforms
    have hremaining := hpass.remaining
    omega
  | succ room ih =>
    refine Reads.table fun x mid hx => (reads_frame ?_).congr fun _ _ => frameLayout_iff
    intro body base y inner hbody hy
    refine ih inner ?_
    have hmid := hx.remaining
    have hinner : body.length = y.length + inner.remaining := hy.remaining
    omega

end Attribute

end ClassView
