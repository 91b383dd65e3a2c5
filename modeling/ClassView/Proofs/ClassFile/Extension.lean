import ClassView.ClassFile.Reader
import ClassView.Proofs.Attribute.Reading
import ClassView.Proofs.Pool.LookUp
import ClassView.Proofs.Pool.Reading
import ClassView.Proofs.Stability

/-!
# Class files with bytes added or cut off

`ClassFile.parse` on a byte string, on the string with more bytes behind it, and on its beginnings.
All readers of a class file are stable: the frame of an attribute is taken whole before anything in
it is looked at, and a body that runs out makes its attribute malformed, so a missing byte is
reported as such only where the file itself ends.

* `ConstantPool.stable_read`, `Attribute.stable_readList`, `ClassFile.stable_read`: the readers;
* `Attribute.readList_agree`, `ClassFile.read_agree`: more `room` than there are bytes ahead changes
  nothing;
* **`ClassFile.parse_append`**: what more bytes change, and what is said of a beginning.
-/

namespace ClassView

/-- What is wrong with a reference is not that the input ends. -/
theorem DecodeError.IsReference.not_isAboutEnd {e : DecodeError} (h : e.IsReference) :
    ¬ e.IsAboutEnd := by
  cases e with
  | indexOutOfRange | tagMismatch => exact id
  | _ => exact h.elim

/-! ## 1. The pool -/

theorem Entry.stable_readText (texts : TextReader) (index : Nat) :
    Stable (Entry.readText texts index) := by
  refine Stable.u16.bind fun length => (Stable.take length.toNat).bind fun bytes => ?_
  cases texts bytes with
  | some text => exact Stable.pure _
  | none => exact Stable.throw id

theorem Entry.stable_readFields (texts : TextReader) (index : Nat) (tag : Tag) :
    Stable (Entry.readFields texts index tag) := by
  have pair : ∀ f : UInt16 → UInt16 → Entry, Stable
      (Cursor.u16 >>= fun a => Cursor.u16 >>= fun b => (pure (f a b) : Read Entry)) :=
    fun f => Stable.u16.bind fun a => Stable.u16.bind fun b => Stable.pure (f a b)
  cases tag with
  | utf8 => exact stable_readText texts index
  | integer => exact Stable.i32.map _
  | float => exact Stable.u32.map _
  | long => exact Stable.i64.map _
  | double => exact Stable.u64.map _
  | classRef | string | methodType | moduleRef | packageRef => exact Stable.u16.map _
  | fieldRef => exact pair (.member .field)
  | methodRef => exact pair (.member .method)
  | interfaceMethodRef => exact pair (.member .interfaceMethod)
  | nameAndType => exact pair .nameAndType
  | dynamic => exact pair .dynamic
  | invokeDynamic => exact pair .invokeDynamic
  | methodHandle =>
    exact Stable.u8.bind fun kind => Stable.u16.bind fun member =>
      Stable.pure (Entry.methodHandle kind member)

theorem Entry.stable_read (texts : TextReader) (index : Nat) : Stable (Entry.read texts index) := by
  refine Stable.get (fun start => Stable.u8.bind fun byte => ?_) fun _ _ => rfl
  cases Tag.ofByte? byte with
  | some tag => exact stable_readFields texts index tag
  | none => exact Stable.throw id

/-- Filling slots is stable. The induction is on the number of slots left, of which a wide entry
    takes two. -/
theorem ConstantPool.stable_readSlots (texts : TextReader) (left index : Nat)
    (slots : Array (Option Entry)) :
    Stable (readSlots texts left index slots : Read (Array (Option Entry))) := by
  induction left using Nat.strongRecOn generalizing index slots with
  | ind left ih =>
    cases left with
    | zero => exact Stable.pure slots
    | succ left =>
      rw [readSlots_succ]
      refine (Entry.stable_read texts index).bind fun e => ?_
      cases e.isWide with
      | false => exact ih left (Nat.lt_succ_self left) _ _
      | true =>
        cases left with
        | zero => exact Stable.throw id
        | succ left => exact ih left (by omega) _ _

theorem ConstantPool.stable_read (texts : TextReader) : Stable (ConstantPool.read texts) :=
  Stable.u16.bind fun _ => (stable_readSlots texts _ 1 #[none]).bind fun slots =>
    Stable.pure (ConstantPool.mk slots)

/-! ## 2. Attributes -/

namespace Attribute

variable {pool : ConstantPool} {nested nested' : Read (List Attribute)} {n : Nat}

theorem stable_readHandler : Stable readHandler :=
  Stable.u16.bind fun _ => Stable.u16.bind fun _ => Stable.u16.bind fun _ =>
    Stable.u16.bind fun _ => Stable.pure _

theorem stable_readLineNumber : Stable readLineNumber :=
  Stable.u16.bind fun _ => Stable.u16.bind fun _ => Stable.pure _

theorem stable_readLocalVariable : Stable readLocalVariable :=
  Stable.u16.bind fun _ => Stable.u16.bind fun _ => Stable.u16.bind fun _ =>
    Stable.u16.bind fun _ => Stable.u16.bind fun _ => Stable.pure _

theorem stable_readCode (h : Stable nested) : Stable (readCode nested) :=
  Stable.u16.bind fun _ => Stable.u16.bind fun _ => Stable.u32.bind fun _ =>
    Stable.guard id <| (Stable.take _).bind fun _ =>
      (Stable.table stable_readHandler).bind fun _ => h.bind fun _ => Stable.pure _

theorem stable_readBody (h : Stable nested) (name : AttributeName) :
    Stable (readBody nested name) := by
  cases name with
  | code => exact (stable_readCode h).map _
  | constantValue | sourceFile | signature => exact Stable.u16.map _
  | exceptions => exact (Stable.table Stable.u16).map _
  | lineNumberTable => exact (Stable.table stable_readLineNumber).map _
  | localVariableTable => exact (Stable.table stable_readLocalVariable).map _
  | deprecated | synthetic => exact Stable.pure _

/-- **No fault of a body is about the end of the input**: a body that runs out is malformed. -/
theorem ofBody_fails (h : Stable nested) (name : AttributeName) (body : Cursor) :
    (ofBody nested name body).FailsOnly fun e => ¬ e.IsAboutEnd := by
  intro e he
  cases hread : readBody nested name body with
  | ok p =>
    rw [ofBody_of_ok hread] at he
    by_cases hempty : p.2.isEmpty = true
    · rw [if_pos hempty] at he
      exact nomatch he
    · rw [if_neg hempty] at he
      exact Except.error.inj he ▸ id
  | error e' =>
    rw [ofBody_of_error hread] at he
    cases he
    intro hend
    cases e' with
    | trailingBytes o count =>
      obtain ⟨_, htrailing, _⟩ := (stable_readBody h name).short hread trivial
      exact nomatch htrailing
    | _ => exact hend

theorem text_fails_inside (pool : ConstantPool) (index : UInt16) :
    (pool.text index).FailsOnly fun e => ¬ e.IsAboutEnd :=
  (pool.text_fails index).mono fun _ he => he.not_isAboutEnd

theorem stable_read (h : Stable nested) : Stable (read pool nested) := by
  refine Stable.u16.bind fun index => Stable.u32.bind fun length => ?_
  refine Stable.get (fun start => ?_) fun _ _ => rfl
  refine (Stable.take length.toNat).bind fun body => ?_
  refine (Stable.lift (text_fails_inside pool index)).bind fun text => ?_
  cases AttributeName.ofText? text with
  | some name => exact Stable.lift (ofBody_fails h name _)
  | none => exact Stable.pure _

theorem stable_readList (pool : ConstantPool) (room : Nat) : Stable (readList pool room) := by
  induction room with
  | zero =>
    refine ⟨fun h => (nomatch h), fun _ h => (nomatch h), fun _ h he => ?_, fun {c e} h _ => ?_,
      fun _ h _ => (nomatch h), fun _ h _ => h⟩
    · cases h
      exact absurd trivial he
    · cases h
      exact ⟨c.offset, rfl, Nat.le_refl _, Nat.le_add_right _ _⟩
  | succ room ih => exact Stable.table (stable_read ih)

/-- Two ways to read the lists inside that agree wherever there are no more bytes than in a body. -/
theorem readBody_agree (h : Agree n nested nested') (name : AttributeName)
    (hstable : Stable nested) : Agree n (readBody nested name) (readBody nested' name) := by
  cases name with
  | code =>
    refine Agree.map _ (stable_readCode hstable) ?_
    refine Agree.behind Stable.u16 fun _ => Agree.behind Stable.u16 fun _ =>
      Agree.behind Stable.u32 fun length => ?_
    by_cases hbad : length = 0 ∨ 65536 ≤ length
    · simp only [if_pos hbad]
      exact Agree.refl n _
    · simp only [if_neg hbad]
      exact Agree.behind (Stable.take _) fun _ => Agree.behind (Stable.table stable_readHandler)
        fun _ => Agree.bind hstable h fun _ => Agree.refl n _
  | _ => exact Agree.refl n _

theorem read_agree (h : Agree n nested nested') (hstable : Stable nested) :
    Agree n (read pool nested) (read pool nested') := by
  refine Agree.behind Stable.u16 fun index => Agree.behind Stable.u32 fun length => ?_
  refine Agree.get fun start => Agree.take fun body hbody => ?_
  refine Agree.behind (Stable.lift (text_fails_inside pool index)) fun text => ?_
  cases AttributeName.ofText? text with
  | none => exact Agree.refl n _
  | some name =>
    have hread := readBody_agree h name hstable (Cursor.ofBytes body start.offset) hbody
    have hbody : ofBody nested name (Cursor.ofBytes body start.offset) =
        ofBody nested' name (Cursor.ofBytes body start.offset) := by
      unfold ofBody
      rw [hread]
    simp only [hbody]
    exact Agree.refl n _

/-- **More room changes nothing once it covers the bytes ahead.** The induction is on the room: the
    count of a list takes bytes, so those of a body in it are fewer. -/
theorem readList_agree (pool : ConstantPool) {room room' : Nat} (h : n ≤ room) (h' : n ≤ room') :
    Agree n (readList pool room) (readList pool room') := by
  -- without bytes ahead there is no count, whatever the room
  have hnone : ∀ room, Agree 0 (readList pool room) (readList pool 0) := by
    intro room c hc
    cases room with
    | zero => rfl
    | succ room =>
      have hcount : Cursor.u16 c = .error (.truncatedInput c.offset) := by
        have htake : Cursor.take 2 c = .error (.truncatedInput c.offset) :=
          Cursor.take_eq_error_iff.2 ⟨by omega, rfl⟩
        exact Cursor.map_eq_error_iff.2 (Cursor.map_eq_error_iff.2 htake)
      exact Cursor.bind_eq_error_iff.2 (.inl hcount)
  induction room generalizing room' n with
  | zero =>
    obtain rfl := Nat.le_zero.1 h
    exact (hnone room').symm
  | succ room ih =>
    cases room' with
    | zero =>
      obtain rfl := Nat.le_zero.1 h'
      exact hnone (room + 1)
    | succ room' =>
      have hinner : Agree (n - 1) (readList pool room) (readList pool room') :=
        ih (by omega) (by omega)
      have hitem : Agree (n - 1) (read pool (readList pool room))
          (read pool (readList pool room')) := read_agree hinner (stable_readList pool room)
      exact (Agree.table (stable_read (stable_readList pool room)) hitem).mono (by omega)

end Attribute

/-! ## 3. Class files -/

namespace Member

variable {kind : AccessKind} {n : Nat} {attributes attributes' : Read (List Attribute)}

theorem stable_read (h : Stable attributes) : Stable (Member.read kind attributes) :=
  Stable.u16.bind fun _ => Stable.u16.bind fun _ => Stable.u16.bind fun _ =>
    h.bind fun _ => Stable.pure _

theorem read_agree (hstable : Stable attributes) (h : Agree n attributes attributes') :
    Agree n (Member.read kind attributes) (Member.read kind attributes') :=
  Agree.behind Stable.u16 fun _ => Agree.behind Stable.u16 fun _ =>
    Agree.behind Stable.u16 fun _ => Agree.bind hstable h fun _ => Agree.refl n _

end Member

namespace ClassFile

theorem stable_readMagic : Stable readMagic :=
  Stable.u32.bind fun magic => Stable.guard id (Stable.pure magic)

/-- **The reader of class files is stable.** -/
theorem stable_read (texts : TextReader) (room : Nat) : Stable (ClassFile.read texts room) := by
  refine stable_readMagic.bind fun _ => Stable.u16.bind fun _ => Stable.u16.bind fun _ => ?_
  refine (ConstantPool.stable_read texts).bind fun pool => ?_
  have hlist := Attribute.stable_readList pool room
  refine Stable.u16.bind fun _ => Stable.u16.bind fun _ => Stable.u16.bind fun _ => ?_
  refine (Stable.table Stable.u16).bind fun _ => ?_
  refine (Stable.table (Member.stable_read hlist)).bind fun _ => ?_
  refine (Stable.table (Member.stable_read hlist)).bind fun _ => ?_
  exact hlist.bind fun _ => Stable.pure _

theorem read_agree (texts : TextReader) {n room room' : Nat} (h : n ≤ room) (h' : n ≤ room') :
    Agree n (ClassFile.read texts room) (ClassFile.read texts room') := by
  refine Agree.behind stable_readMagic fun _ => Agree.behind Stable.u16 fun _ =>
    Agree.behind Stable.u16 fun _ => Agree.behind (ConstantPool.stable_read texts) fun pool => ?_
  have hstable := Attribute.stable_readList pool room
  have hlist : Agree n (Attribute.readList pool room) (Attribute.readList pool room') :=
    Attribute.readList_agree pool h h'
  have hmembers : ∀ kind, Agree n (Cursor.table (Member.read kind (Attribute.readList pool room)))
      (Cursor.table (Member.read kind (Attribute.readList pool room'))) := fun kind =>
    (Agree.table (Member.stable_read hstable) (Member.read_agree hstable hlist)).mono
      (Nat.le_add_right n 2)
  refine Agree.behind Stable.u16 fun _ => Agree.behind Stable.u16 fun _ =>
    Agree.behind Stable.u16 fun _ => Agree.behind (Stable.table Stable.u16) fun _ => ?_
  refine Agree.bind (Stable.table (Member.stable_read hstable)) (hmembers .ofField) fun _ => ?_
  refine Agree.bind (Stable.table (Member.stable_read hstable)) (hmembers .ofMethod) fun _ => ?_
  exact Agree.bind hstable hlist fun _ => Agree.refl n _

/-! ## 4. Whole byte strings -/

variable {texts : TextReader} {bytes more : List UInt8} {room : Nat} {c : ClassFile}
  {e : DecodeError}

theorem read_room (h : bytes.length ≤ room) :
    ClassFile.read texts bytes.length (Cursor.ofBytes bytes 0) =
      ClassFile.read texts room (Cursor.ofBytes bytes 0) :=
  read_agree texts (Nat.le_refl _) h _ (Nat.le_refl _)

/-- What is read uses up the bytes. -/
theorem parse_eq_ok_iff_read (h : bytes.length ≤ room) : parse bytes texts = .ok c ↔
    ∃ behind, ClassFile.read texts room (Cursor.ofBytes bytes 0) = .ok (c, behind) ∧
      behind.isEmpty = true := by
  unfold parse
  rw [read_room h]
  cases ClassFile.read texts room (Cursor.ofBytes bytes 0) with
  | error e => exact ⟨fun h => (nomatch h), fun ⟨_, h, _⟩ => (nomatch h)⟩
  | ok p =>
    obtain ⟨c', behind⟩ := p
    by_cases hempty : behind.isEmpty = true
    · simp [hempty]
    · simp [hempty]

/-- What is wrong is wrong with the bytes read, or it is that there are more. -/
theorem parse_eq_error_iff_read (h : bytes.length ≤ room) : parse bytes texts = .error e ↔
    ClassFile.read texts room (Cursor.ofBytes bytes 0) = .error e ∨
      ∃ c behind, ClassFile.read texts room (Cursor.ofBytes bytes 0) = .ok (c, behind) ∧
        behind.isEmpty = false ∧ e = .trailingBytes behind.offset behind.remaining := by
  unfold parse
  rw [read_room h]
  cases ClassFile.read texts room (Cursor.ofBytes bytes 0) with
  | error e' =>
    refine ⟨fun h => .inl (congrArg Except.error (Except.error.inj h)), fun h => ?_⟩
    rcases h with h | ⟨_, _, h, _⟩
    · exact congrArg Except.error (Except.error.inj h)
    · exact nomatch h
  | ok p =>
    obtain ⟨c', behind⟩ := p
    cases hempty : behind.isEmpty with
    | true =>
      refine ⟨fun h => ?_, fun h => ?_⟩
      · simp only [hempty, if_true] at h
        exact nomatch h
      · rcases h with h | ⟨_, _, h, hmore, _⟩
        · exact nomatch h
        · cases h
          exact absurd (hempty.symm.trans hmore) (by decide)
    | false =>
      simp only [hempty, Bool.false_eq_true, if_false]
      refine ⟨fun h => .inr ⟨c', behind, rfl, hempty, (Except.error.inj h).symm⟩, fun h => ?_⟩
      rcases h with h | ⟨_, _, h, _, he⟩
      · exact nomatch h
      · cases h
        exact congrArg Except.error he.symm

/-- The end of a byte string that a whole cursor stands in front of. -/
theorem stop_ofBytes (bytes : List UInt8) : (Cursor.ofBytes bytes 0).stop = bytes.length :=
  Nat.zero_add _

/-- A class file with more bytes behind it. -/
theorem parse_append_of_ok (hmore : more ≠ []) (h : parse bytes texts = .ok c) :
    parse (bytes ++ more) texts = .error (.trailingBytes bytes.length more.length) := by
  have hroom : bytes.length ≤ (bytes ++ more).length := by simp
  obtain ⟨behind, hread, hempty⟩ := (parse_eq_ok_iff_read hroom).1 h
  obtain ⟨x, hx⟩ := (stable_read _ _).passes hread
  have hrest : behind.rest = [] := List.isEmpty_iff.1 hempty
  have hoffset : behind.offset = bytes.length := by
    have hstop := hx.stop
    rw [stop_ofBytes, Cursor.stop, Cursor.remaining, hrest] at hstop
    exact hstop
  refine (parse_eq_error_iff_read (Nat.le_refl _)).2 (.inr ⟨c, behind.extend more,
    (stable_read _ _).ok_append more hread, ?_, ?_⟩)
  · rw [Cursor.isEmpty, Cursor.extend, hrest, List.nil_append, List.isEmpty_eq_false_iff]
    exact hmore
  · rw [Cursor.offset_extend, Cursor.remaining_extend, hoffset, Cursor.remaining, hrest,
      List.length_nil, Nat.zero_add]

/-- More bytes behind those that are too many. -/
theorem parse_append_of_trailing {o count : Nat}
    (h : parse bytes texts = .error (.trailingBytes o count)) :
    parse (bytes ++ more) texts = .error (.trailingBytes o (count + more.length)) := by
  have hroom : bytes.length ≤ (bytes ++ more).length := by simp
  rcases (parse_eq_error_iff_read hroom).1 h with hread | ⟨c, behind, hread, hempty, he⟩
  · obtain ⟨_, he, _⟩ := (stable_read _ _).short hread trivial
    exact nomatch he
  · cases he
    refine (parse_eq_error_iff_read (Nat.le_refl _)).2 (.inr ⟨c, behind.extend more,
      (stable_read _ _).ok_append more hread, ?_, ?_⟩)
    · rw [Cursor.isEmpty, Cursor.extend, List.isEmpty_eq_false_iff]
      exact List.append_ne_nil_of_left_ne_nil (List.isEmpty_eq_false_iff.1 hempty) more
    · rw [Cursor.offset_extend, Cursor.remaining_extend]

/-- More bytes behind what is wrong already. -/
theorem parse_append_of_error (h : parse bytes texts = .error e) (he : ¬ e.IsAboutEnd) :
    parse (bytes ++ more) texts = .error e := by
  have hroom : bytes.length ≤ (bytes ++ more).length := by simp
  rcases (parse_eq_error_iff_read hroom).1 h with hread | ⟨_, _, _, _, rfl⟩
  · exact (parse_eq_error_iff_read (Nat.le_refl _)).2
      (.inl ((stable_read _ _).error_append more hread he))
  · exact absurd trivial he

/-- The beginnings of a byte string that ends too soon. -/
theorem parse_take_of_truncated {o : Nat} (h : parse bytes texts = .error (.truncatedInput o)) :
    o ≤ bytes.length ∧ ∀ k, o ≤ k → k ≤ bytes.length →
      parse (bytes.take k) texts = .error (.truncatedInput o) := by
  rcases (parse_eq_error_iff_read (Nat.le_refl _)).1 h with hread | ⟨_, _, _, _, he⟩
  · obtain ⟨_, ho, _, hstop⟩ := (stable_read _ _).short hread trivial
    cases ho
    rw [stop_ofBytes] at hstop
    refine ⟨hstop, fun k hk hle => ?_⟩
    have hlen : (bytes.take k).length = k := List.length_take_of_le hle
    refine (parse_eq_error_iff_read (hlen ▸ hle)).2 (.inl ?_)
    refine (stable_read _ _).error_cut (bytes.drop k) ?_ (by rw [stop_ofBytes, hlen]; exact hk)
    rw [Cursor.extend_ofBytes_take]
    exact hread
  · exact nomatch he

/-- **What more bytes change, and what is said of a beginning.** More bytes behind a class file are
    counted as too many, and so are more behind too many; any other fault than a missing byte stands
    as it is. Where a byte is missing, it is missing in every beginning that reaches the place; so
    every proper beginning of a class file ends too soon, and nothing else is said of it. -/
theorem parse_append (texts : TextReader) (bytes more : List UInt8) (hmore : more ≠ []) :
    (∀ c, parse bytes texts = .ok c →
      parse (bytes ++ more) texts = .error (.trailingBytes bytes.length more.length)) ∧
    (∀ o count, parse bytes texts = .error (.trailingBytes o count) →
      parse (bytes ++ more) texts = .error (.trailingBytes o (count + more.length))) ∧
    (∀ e, parse bytes texts = .error e → (∀ o, e ≠ .truncatedInput o) →
      (∀ o count, e ≠ .trailingBytes o count) → parse (bytes ++ more) texts = .error e) ∧
    (∀ o, parse bytes texts = .error (.truncatedInput o) → o ≤ bytes.length ∧
      ∀ k, o ≤ k → k ≤ bytes.length → parse (bytes.take k) texts = .error (.truncatedInput o)) ∧
    ∀ c, parse bytes texts = .ok c → ∀ k, k < bytes.length →
      ∃ o, o ≤ k ∧ parse (bytes.take k) texts = .error (.truncatedInput o) := by
  refine ⟨fun c h => parse_append_of_ok hmore h, fun o count h => parse_append_of_trailing h,
    fun e h htruncated htrailing => ?_, fun o h => parse_take_of_truncated h, fun c h k hk => ?_⟩
  · refine parse_append_of_error h fun hend => ?_
    cases e with
    | truncatedInput o => exact htruncated o rfl
    | trailingBytes o count => exact htrailing o count rfl
    | _ => exact hend
  · -- the bytes cut off would turn any other answer into one that is not the class file
    have hcut : bytes.drop k ≠ [] := by
      rw [Ne, List.drop_eq_nil_iff]
      exact Nat.not_le.2 hk
    have hwhole : bytes.take k ++ bytes.drop k = bytes := List.take_append_drop k bytes
    have hlen : (bytes.take k).length = k := List.length_take_of_le (Nat.le_of_lt hk)
    cases hparse : parse (bytes.take k) texts with
    | ok c' =>
      have htrailing := parse_append_of_ok hcut hparse
      rw [hwhole, h] at htrailing
      exact nomatch htrailing
    | error e =>
      by_cases hend : e.IsAboutEnd
      · cases e with
        | truncatedInput o => exact ⟨o, hlen ▸ (parse_take_of_truncated hparse).1, rfl⟩
        | trailingBytes o count =>
          have htrailing : parse (bytes.take k ++ bytes.drop k) texts = _ :=
            parse_append_of_trailing hparse
          rw [hwhole, h] at htrailing
          exact nomatch htrailing
        | _ => exact hend.elim
      · have hsame : parse (bytes.take k ++ bytes.drop k) texts = _ :=
          parse_append_of_error hparse hend
        rw [hwhole, h] at hsame
        exact nomatch hsame

/-- A class whose one attribute is not recognised and holds the byte 7. -/
def oneAttribute : List UInt8 :=
  [0xca, 0xfe, 0xba, 0xbe, 0, 0, 0, 52, 0, 2, 1, 0, 1, 88, 0, 0x21, 0, 1, 0, 0, 0, 0, 0, 0, 0, 0,
    0, 1, 0, 1, 0, 0, 0, 1, 7]

/-- It can be read, not so with two more bytes, and in its beginnings up to the body of the
    attribute that byte is missing. -/
theorem parse_append_oneAttribute : ([0, 0] : List UInt8) ≠ [] ∧
    (∃ c, parse oneAttribute = .ok c) ∧
    parse (oneAttribute ++ [0, 0]) = .error (.trailingBytes 35 2) ∧
    ∃ o, o ≤ 34 ∧ parse (oneAttribute.take 34) = .error (.truncatedInput o) := by
  have hmore : ([0, 0] : List UInt8) ≠ [] := by decide
  obtain ⟨c, hc⟩ : ∃ c, parse oneAttribute = .ok c := ⟨_, rfl⟩
  obtain ⟨htrailing, _, _, _, hcut⟩ := parse_append Text.text? oneAttribute [0, 0] hmore
  exact ⟨hmore, ⟨c, hc⟩, htrailing c hc, hcut c hc 34 (by decide)⟩

end ClassFile

end ClassView
