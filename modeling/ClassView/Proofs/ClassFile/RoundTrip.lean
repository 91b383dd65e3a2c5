import ClassView.Proofs.Attribute.Reading
import ClassView.Proofs.ClassFile.Layout
import ClassView.Proofs.Pool.Reading

/-!
# Class files are read back

`ClassFile.parse` against the bytes of class files: it takes the bytes of every well-formed class
file in every form, and nothing else.

* `Member.reads`, `ClassFile.reads`: the readers of the parts and of the whole;
* **`ClassFile.parse_bytes`**: what is written in any form is read back;
* **`ClassFile.eq_bytes_of_parse`**: what is read is well-formed and was written in some form.
-/

namespace ClassView

theorem Access.ofBits_eq_iff {kind : AccessKind} {word : UInt16} {a : Access kind} :
    Access.ofBits kind word = a ↔ word &&& kind.mask = a.bits := by
  obtain ⟨bits⟩ := a
  unfold ofBits
  exact Access.mk.injEq .. ▸ Iff.rfl

/-- Dropping the bits without a name leaves only bits with a name. -/
theorem Access.isNamed_of_word {kind : AccessKind} {word : UInt16} {a : Access kind}
    (h : word &&& kind.mask = a.bits) : a.IsNamed := by
  unfold IsNamed
  rw [← h, UInt16.and_assoc, UInt16.and_self]

/-! ## 1. Members -/

namespace Member

variable {kind : AccessKind} {pool : ConstantPool} {c : Cursor}

/-- The fields or methods that can be stored, as they are stored. -/
def layout (kind : AccessKind) (pool : ConstantPool) : Layout (Member kind) :=
  Layout.formed (WellFormed pool) (MemberForm.Fits pool) bytes

/-- **One field or method is read back.** -/
theorem reads {attributes : Read (List Attribute)}
    (h : ∀ x mid, c.Passes x mid → Reads attributes (Attribute.listLayout pool) mid) :
    Reads (read kind attributes) (layout kind pool) c := by
  have hread : Reads (read kind attributes) _ c :=
    (Reads.u16 c).bind fun word _ c₁ h₁ _ =>
      (Reads.u16 c₁).bind fun name _ c₂ h₂ _ =>
        (Reads.u16 c₂).bind fun descriptor _ c₃ h₃ _ =>
          (h _ c₃ (h₁.trans (h₂.trans h₃))).bind fun attributes _ c₄ _ _ =>
            Reads.pure (Member.mk (Access.ofBits kind word) name descriptor attributes) c₄
  refine hread.congr fun m bytes => ?_
  simp only [Layout.bind_fixed_iff]
  refine ⟨fun h => ?_, fun h => ?_⟩
  · obtain ⟨word, _, ⟨name, _, ⟨descriptor, _, ⟨attributes, _, _, hlist, ⟨rfl, rfl⟩, rfl⟩, rfl⟩,
      rfl⟩, rfl⟩ := h
    obtain ⟨hwf, forms, hforms, rfl⟩ := Attribute.listLayout_iff.1 hlist
    have hword : word &&& kind.mask = (Access.ofBits kind word).bits := rfl
    refine ⟨⟨Access.isNamed_of_word hword, hwf⟩, ⟨word, forms⟩, ⟨hword, hforms⟩, ?_⟩
    rw [Member.bytes, List.append_nil]
  · obtain ⟨⟨_, hwf⟩, form, ⟨hword, hforms⟩, rfl⟩ := h
    have hlist := Attribute.listLayout_iff.2 ⟨hwf, form.attributes, hforms, rfl⟩
    refine ⟨form.word, _, ⟨m.name, _, ⟨m.descriptor, _, ⟨m.attributes, _, [], hlist, ⟨?_, rfl⟩,
      rfl⟩, rfl⟩, rfl⟩, ?_⟩
    · rw [Access.ofBits_eq_iff.2 hword]
    · rw [Member.bytes, List.append_nil]

end Member

/-! ## 2. Classes -/

namespace ClassFile

variable {texts : TextReader}

/-- The class files that can be stored, as they are stored. -/
def layout (texts : TextReader) : Layout ClassFile :=
  Layout.formed WellFormed (ClassForm.Fits texts) bytes

theorem reads_magic (c : Cursor) :
    Reads readMagic (fun magic bytes => magic = classMagic ∧ bytes = BigEndian.u32 magic) c := by
  have hread : Reads readMagic _ c :=
    (Reads.u32 c).bind fun magic _ mid _ _ => Reads.guard fun _ => Reads.pure magic mid
  refine hread.congr fun magic bytes => ?_
  simp only [Layout.bind_fixed_iff, Layout.only]
  refine ⟨fun h => ?_, fun h => ?_⟩
  · obtain ⟨magic, _, ⟨hmagic, rfl, rfl⟩, rfl⟩ := h
    exact ⟨not_not.1 hmagic, List.append_nil _⟩
  · obtain ⟨hmagic, rfl⟩ := h
    exact ⟨magic, [], ⟨not_not.2 hmagic, rfl, rfl⟩, (List.append_nil _).symm⟩

/-- The parts of a class file in the order of the file. -/
def partsLayout (texts : TextReader) : Layout ClassFile :=
  Layout.bind (fun magic bytes => magic = classMagic ∧ bytes = BigEndian.u32 magic) fun magic =>
  Layout.bind (Layout.fixed BigEndian.u16) fun minor =>
  Layout.bind (Layout.fixed BigEndian.u16) fun major =>
  Layout.bind (ConstantPool.layout texts) fun pool =>
  Layout.bind (Layout.fixed BigEndian.u16) fun word =>
  Layout.bind (Layout.fixed BigEndian.u16) fun thisClass =>
  Layout.bind (Layout.fixed BigEndian.u16) fun superClass =>
  Layout.bind (fun interfaces bytes => interfaces.length < 65536 ∧
    bytes = Layout.tableBytes BigEndian.u16 interfaces) fun interfaces =>
  Layout.bind (Layout.table (Member.layout .ofField pool)) fun fields =>
  Layout.bind (Layout.table (Member.layout .ofMethod pool)) fun methods =>
  Layout.bind (Attribute.listLayout pool) fun attributes =>
  Layout.only (ClassFile.mk magic minor major pool (Access.ofBits .ofClass word)
    thisClass superClass interfaces fields methods attributes)

/-- The parts are read one after the other, if `room` covers the bytes ahead. -/
theorem reads_parts (room : Nat) (c : Cursor) (hroom : c.remaining ≤ room) :
    Reads (read texts room) (partsLayout texts) c := by
  -- a list of attributes may start wherever the reader stands
  have hlist : ∀ (pool : ConstantPool) x mid, c.Passes x mid →
      Reads (Attribute.readList pool room) (Attribute.listLayout pool) mid :=
    fun pool x mid hx => Attribute.reads_list room mid (Nat.le_trans hx.remaining_le hroom)
  refine (reads_magic c).bind fun magic _ c₁ h₁ _ => ?_
  refine (Reads.u16 c₁).bind fun minor _ c₂ h₂ _ => ?_
  refine (Reads.u16 c₂).bind fun major _ c₃ h₃ _ => ?_
  refine (ConstantPool.reads c₃).bind fun pool _ c₄ h₄ _ => ?_
  refine (Reads.u16 c₄).bind fun word _ c₅ h₅ _ => ?_
  refine (Reads.u16 c₅).bind fun thisClass _ c₆ h₆ _ => ?_
  refine (Reads.u16 c₆).bind fun superClass _ c₇ h₇ _ => ?_
  refine (Reads.table_fixed c₇ Reads.u16).bind fun interfaces _ c₈ h₈ _ => ?_
  have hpool := h₁.trans (h₂.trans (h₃.trans h₄))
  have hheader := hpool.trans (h₅.trans (h₆.trans (h₇.trans h₈)))
  have hfields : Reads (Cursor.table (Member.read .ofField (Attribute.readList pool room)))
      (Layout.table (Member.layout .ofField pool)) c₈ :=
    Reads.table fun x mid hx => Member.reads fun y mid' hy =>
      hlist pool _ mid' (hheader.trans (hx.trans hy))
  refine hfields.bind fun fields _ c₉ h₉ _ => ?_
  have hmethods : Reads (Cursor.table (Member.read .ofMethod (Attribute.readList pool room)))
      (Layout.table (Member.layout .ofMethod pool)) c₉ :=
    Reads.table fun x mid hx => Member.reads fun y mid' hy =>
      hlist pool _ mid' (hheader.trans (h₉.trans (hx.trans hy)))
  refine hmethods.bind fun methods _ c₁₀ h₁₀ _ => ?_
  refine (hlist pool _ c₁₀ (hheader.trans (h₉.trans h₁₀))).bind fun attributes _ c₁₁ _ _ => ?_
  exact Reads.pure (ClassFile.mk magic minor major pool (Access.ofBits .ofClass word)
    thisClass superClass interfaces fields methods attributes) c₁₁

/-- The parts that can be stored are those of a well-formed class file. -/
theorem partsLayout_iff {a : ClassFile} {bytes : List UInt8} :
    partsLayout texts a bytes ↔ layout texts a bytes := by
  refine ⟨fun h => ?_, fun h => ?_⟩
  · obtain ⟨magic, _, _, ⟨hmagic, rfl⟩, ⟨minor, _, _, rfl, ⟨major, _, _, rfl, ⟨pool, _, _,
      hpool, ⟨word, _, _, rfl, ⟨thisClass, _, _, rfl, ⟨superClass, _, _, rfl, ⟨interfaces, _, _,
      ⟨hinterfaces, rfl⟩, ⟨fields, _, _, hfields, ⟨methods, _, _, hmethods, ⟨attributes, _, _,
      hattributes, ⟨rfl, rfl⟩, rfl⟩, rfl⟩, rfl⟩, rfl⟩, rfl⟩, rfl⟩, rfl⟩, rfl⟩, rfl⟩, rfl⟩, rfl⟩ := h
    obtain ⟨hregular, poolForm, hpoolForm, rfl⟩ := hpool
    obtain ⟨hfieldsWf, fieldForms, hfieldForms, rfl⟩ := Layout.table_formed_iff.1 hfields
    obtain ⟨hmethodsWf, methodForms, hmethodForms, rfl⟩ := Layout.table_formed_iff.1 hmethods
    obtain ⟨hattributesWf, forms, hforms, rfl⟩ := Attribute.listLayout_iff.1 hattributes
    refine ⟨⟨hmagic, hregular, Access.isNamed_of_word rfl, hinterfaces, hfieldsWf, hmethodsWf,
      hattributesWf⟩, ⟨poolForm, word, fieldForms, methodForms, forms⟩,
      ⟨hpoolForm, rfl, hfieldForms, hmethodForms, hforms⟩, ?_⟩
    rw [ClassFile.bytes, List.append_nil]
  · obtain ⟨⟨hmagic, hregular, _, hinterfaces, hfields, hmethods, hattributes⟩, form,
      ⟨hpoolForm, hword, hfieldForms, hmethodForms, hforms⟩, rfl⟩ := h
    have hfieldTable : (Member.layout .ofField a.pool).table a.fields _ :=
      Layout.table_formed_iff.2 ⟨hfields, form.fields, hfieldForms, rfl⟩
    have hmethodTable : (Member.layout .ofMethod a.pool).table a.methods _ :=
      Layout.table_formed_iff.2 ⟨hmethods, form.methods, hmethodForms, rfl⟩
    have hattributeList := Attribute.listLayout_iff.2 ⟨hattributes, form.attributes, hforms, rfl⟩
    refine ⟨a.magic, _, _, ⟨hmagic, rfl⟩, ⟨a.minorVersion, _, _, rfl, ⟨a.majorVersion, _, _, rfl,
      ⟨a.pool, _, _, ⟨hregular, form.pool, hpoolForm, rfl⟩, ⟨form.word, _, _, rfl,
      ⟨a.thisClass, _, _, rfl, ⟨a.superClass, _, _, rfl, ⟨a.interfaces, _, _, ⟨hinterfaces, rfl⟩,
      ⟨a.fields, _, _, hfieldTable, ⟨a.methods, _, _, hmethodTable, ⟨a.attributes, _, [],
      hattributeList, ⟨?_, rfl⟩, rfl⟩, rfl⟩, rfl⟩, rfl⟩, rfl⟩, rfl⟩, rfl⟩, rfl⟩, rfl⟩, rfl⟩, ?_⟩
    · rw [Access.ofBits_eq_iff.2 hword]
    · rw [ClassFile.bytes, List.append_nil]

/-- **A class file is read back**, if `room` covers the bytes ahead. -/
theorem reads (room : Nat) (c : Cursor) (hroom : c.remaining ≤ room) :
    Reads (read texts room) (layout texts) c :=
  (reads_parts room c hroom).congr fun _ _ => partsLayout_iff

/-- A byte string is a class file exactly if it is the bytes of a well-formed one in some form. -/
theorem parse_eq_ok_iff {bytes : List UInt8} {c : ClassFile} :
    parse bytes texts = .ok c ↔ layout texts c bytes := by
  have h : Reads (read texts bytes.length) (layout texts) (Cursor.ofBytes bytes 0) :=
    reads bytes.length (Cursor.ofBytes bytes 0) (Nat.le_refl _)
  refine h.whole (fun behind => .trailingBytes behind.offset behind.remaining)
    (fun c behind hread => ?_) (fun e hread => ?_)
  · rw [parse, hread]
  · exact ⟨e, by rw [parse, hread]⟩

/-! ## 3. The round trip -/

/-- A class with one method, whose code carries a table of line numbers, and with an attribute that
    is not recognised. The name of code stands twice in its pool. -/
def small : ClassFile where
  magic := classMagic
  minorVersion := 0
  majorVersion := 52
  pool := ⟨#[none, some (.utf8 "Code"), some (.utf8 "Code"), some (.long 7), none,
    some (.utf8 "LineNumberTable"), some (.utf8 "X")]⟩
  access := ⟨0x21⟩
  thisClass := 0
  superClass := 0
  interfaces := []
  fields := []
  methods := [⟨⟨9⟩, 6, 6, [.code ⟨1, 1, [177], [], [.lineNumberTable [⟨0, 3⟩]]⟩]⟩]
  attributes := [.unknown 6 [1, 2]]

/-- A form of it with a flag that has no name, and with the second of the names of code. -/
def smallForm : ClassForm where
  pool := ⟨7, [[], [67, 111, 100, 101], [67, 111, 100, 101], [], [],
    [76, 105, 110, 101, 78, 117, 109, 98, 101, 114, 84, 97, 98, 108, 101], [88]]⟩
  word := 0x23
  fields := []
  methods := [⟨9, [⟨2, [⟨5, []⟩]⟩]⟩]
  attributes := [⟨6, []⟩]

/-- **What is written in any form is read back.** -/
theorem parse_bytes {c : ClassFile} {form : ClassForm} (h : c.WellFormed)
    (hform : form.Fits texts c) : parse (c.bytes form) texts = .ok c := by
  have hstored : layout texts c (c.bytes form) := ⟨h, form, hform, rfl⟩
  exact parse_eq_ok_iff.2 hstored

theorem parse_bytes_small : small.WellFormed ∧ smallForm.Fits Text.text? small ∧
    parse (small.bytes smallForm) = .ok small := by
  have hcode : Attribute.IsNamedBy small.pool 2
      (.code ⟨1, 1, [177], [], [.lineNumberTable [⟨0, 3⟩]]⟩) :=
    ⟨"Code", rfl, rfl, fun _ _ h => (nomatch h)⟩
  have hlines : Attribute.IsNamedBy small.pool 5 (.lineNumberTable [⟨0, 3⟩]) :=
    ⟨"LineNumberTable", rfl, rfl, fun _ _ h => (nomatch h)⟩
  have hunknown : Attribute.IsNamedBy small.pool 6 (.unknown 6 [1, 2]) :=
    ⟨"X", rfl, rfl, fun own _ h => by cases h; rfl⟩
  have hnone : ∀ b ∈ ([] : List Attribute), b.WellFormed small.pool :=
    fun _ h => absurd h List.not_mem_nil
  have hwf : small.WellFormed := by
    refine ⟨rfl, ConstantPool.isRegular_iff.2 ⟨by decide, ?_⟩, rfl, by decide, ⟨by decide, ?_⟩,
      ⟨by decide, ?_⟩, ⟨by decide, ?_⟩⟩
    · simp [small, ConstantPool.RowIsRegular, Entry.isWide]
    · exact fun _ h => absurd h List.not_mem_nil
    · refine List.forall_mem_singleton.2 ⟨rfl, by decide, List.forall_mem_singleton.2 (.mk ?_ ?_)⟩
      · exact ⟨⟨2, hcode⟩, ⟨by decide, by decide, by decide, by decide⟩, by decide⟩
      · refine List.forall_mem_singleton.2 (.mk ⟨⟨5, hlines⟩, ?_, by decide⟩ hnone)
        show 1 < 65536
        decide
    · exact List.forall_mem_singleton.2 (.mk ⟨⟨6, hunknown⟩, trivial, by decide⟩ hnone)
  have hform : smallForm.Fits Text.text? small := by
    refine ⟨⟨.inl rfl, ?_⟩, rfl, .nil, .cons ⟨rfl, ?_⟩ .nil, .cons (.mk hunknown .nil) .nil⟩
    · refine .cons trivial (.cons ⟨by decide, rfl⟩ (.cons ⟨by decide, rfl⟩ (.cons trivial
        (.cons trivial (.cons ⟨by decide, rfl⟩ (.cons ⟨by decide, rfl⟩ .nil))))))
    · exact .cons (.mk hcode (.cons (.mk hlines .nil) .nil)) .nil
  exact ⟨hwf, hform, parse_bytes hwf hform⟩

/-- **What is read is well-formed and was written in some form.** -/
theorem eq_bytes_of_parse {bytes : List UInt8} {c : ClassFile} (h : parse bytes texts = .ok c) :
    c.WellFormed ∧ ∃ form : ClassForm, form.Fits texts c ∧ bytes = c.bytes form := by
  have hstored : layout texts c bytes := parse_eq_ok_iff.1 h
  obtain ⟨hwf, form, hform, hbytes⟩ := hstored
  exact ⟨hwf, form, hform, hbytes⟩

/-- The bytes of the small class in this form: magic and versions, pool, header, method and
    attributes. -/
def smallBytes : List UInt8 :=
  [202, 254, 186, 190, 0, 0, 0, 52] ++
  [0, 7, 1, 0, 4, 67, 111, 100, 101, 1, 0, 4, 67, 111, 100, 101, 5, 0, 0, 0, 0, 0, 0, 0, 7, 1, 0,
    15, 76, 105, 110, 101, 78, 117, 109, 98, 101, 114, 84, 97, 98, 108, 101, 1, 0, 1, 88] ++
  [0, 35, 0, 0, 0, 0, 0, 0, 0, 0] ++
  [0, 1, 0, 9, 0, 6, 0, 6, 0, 1, 0, 2, 0, 0, 0, 25, 0, 1, 0, 1, 0, 0, 0, 1, 177, 0, 0, 0, 1, 0, 5,
    0, 0, 0, 6, 0, 1, 0, 0, 0, 3] ++
  [0, 1, 0, 6, 0, 0, 0, 2, 1, 2]

set_option maxRecDepth 2000 in
theorem eq_bytes_of_parse_small : parse smallBytes = .ok small ∧ small.WellFormed ∧
    ∃ form : ClassForm, form.Fits Text.text? small ∧ smallBytes = small.bytes form := by
  have h : parse smallBytes = .ok small := by rfl
  exact ⟨h, eq_bytes_of_parse h⟩

end ClassFile

end ClassView
