import ClassView.Listing.Basic
import ClassView.Proofs.Descriptor.Grammar
import ClassView.Proofs.Listing.PoolOperand
import ClassView.Resolved.Basic

/-!
# Listings of classes that resolve

A class file is walked twice: it is resolved as a whole, and it is listed. The two walks look up
much of the same, in different orders. What resolving looks up the listing finds as well, so a
listing without all detail can fail for two reasons only: resolving does not look into descriptors,
and it does not follow the indices in the code.

* `ClassFile.Resolves`: what a class looks up when it is resolved;
* `ClassFile.resolves_of_resolve`: a class that is resolved has all of it;
* `ClassFile.name_succeeds`, `throwsClause_succeeds` and their likes: the same in a listing;
* **`listing_of_resolved`**: the listing of a class that resolves, and its only faults.
-/

namespace ClassView

open Outcome

/-! ## 1. What a class looks up when it is resolved -/

/-- The name and the descriptor of the member can be looked up. -/
structure Member.IsNamed {kind : AccessKind} (pool : ConstantPool) (m : Member kind) : Prop where
  name : (m.nameIn pool).Succeeds
  descriptor : (m.descriptorIn pool).Succeeds

/-- The instructions of a body can be decoded, and the classes that it catches and its local
    variables can be looked up. -/
structure CodeOf.Resolves (pool : ConstantPool) (code : Code) : Prop where
  catchTypes : ∀ h ∈ code.handlers, h.catchType ≠ 0 → (pool.className h.catchType).Succeeds
  localVariables : ∀ v ∈ code.localVariables,
    (pool.text v.name).Succeeds ∧ (pool.text v.descriptor).Succeeds
  instructions : (decode code.bytes).Succeeds

/-- The method and the exceptions that it declares can be looked up, and so can what its body
    needs. -/
structure Member.Resolves (pool : ConstantPool) (m : Method) : Prop where
  named : m.IsNamed pool
  exceptions : ∀ index ∈ m.exceptions?.getD [], (pool.className index).Succeeds
  code : ∀ code, m.code? = some code → code.Resolves pool

/-- The names of the class, of its superclass, interfaces and source file can be looked up, and so
    can its members. -/
structure ClassFile.Resolves (c : ClassFile) : Prop where
  thisClass : (c.pool.className c.thisClass).Succeeds
  superClass : c.superClass ≠ 0 → (c.pool.className c.superClass).Succeeds
  interfaces : ∀ index ∈ c.interfaces, (c.pool.className index).Succeeds
  sourceFile : c.sourceFile.Succeeds
  fields : ∀ f ∈ c.fields, f.IsNamed c.pool
  methods : ∀ m ∈ c.methods, m.Resolves c.pool

variable {pool : ConstantPool} {c : ClassFile} {m : Method} {code : Code} {o : ListingOptions}

theorem className?_succeeds {index : UInt16} (h : (pool.className? index).Succeeds)
    (hindex : index ≠ 0) : (pool.className index).Succeeds := by
  unfold ConstantPool.className? at h
  rw [if_neg hindex] at h
  exact h.of_map

theorem lookupOption_succeeds {α β : Type} {look : α → Outcome β} {a : α}
    (h : (lookupOption look (some a)).Succeeds) : (look a).Succeeds := h.of_map

theorem Member.isNamed_of_resolveId {kind : AccessKind} {m : Member kind}
    (h : (m.resolveId pool).Succeeds) : m.IsNamed pool := by
  obtain ⟨name, hname, h⟩ := h.of_bind
  obtain ⟨descriptor, hdescriptor, _⟩ := h.of_bind
  exact ⟨⟨name, hname⟩, ⟨descriptor, hdescriptor⟩⟩

theorem CodeOf.resolves_of_resolve (h : (ResolvedCode.of pool code).Succeeds) :
    code.Resolves pool := by
  obtain ⟨handlers, hhandlers, h⟩ := h.of_bind
  obtain ⟨locals, hlocals, h⟩ := h.of_bind
  obtain ⟨instructions, hinstructions, _⟩ := h.of_bind
  refine ⟨fun row hrow hcaught => ?_, fun row hrow => ?_, ⟨instructions, hinstructions⟩⟩
  · have hhandler := Succeeds.of_mapM ⟨handlers, hhandlers⟩ row hrow
    obtain ⟨caught, hclass, _⟩ := hhandler.of_bind
    exact className?_succeeds ⟨caught, hclass⟩ hcaught
  · have hvariable := Succeeds.of_mapM ⟨locals, hlocals⟩ row hrow
    obtain ⟨name, hname, hvariable⟩ := hvariable.of_bind
    obtain ⟨descriptor, hdescriptor, _⟩ := hvariable.of_bind
    exact ⟨⟨name, hname⟩, ⟨descriptor, hdescriptor⟩⟩

theorem Member.resolves_of_resolve (h : (ResolvedMethod.of pool m).Succeeds) :
    m.Resolves pool := by
  obtain ⟨exceptions, hexceptions, h⟩ := h.of_bind
  obtain ⟨body, hbody, h⟩ := h.of_bind
  obtain ⟨id, hid, _⟩ := h.of_bind
  refine ⟨isNamed_of_resolveId ⟨id, hid⟩, Succeeds.of_mapM ⟨exceptions, hexceptions⟩,
    fun code hcode => ?_⟩
  rw [hcode] at hbody
  exact CodeOf.resolves_of_resolve (lookupOption_succeeds ⟨body, hbody⟩)

/-- **A class that is resolved has all that resolving looks up.** -/
theorem ClassFile.resolves_of_resolve (h : c.resolve.Succeeds) : c.Resolves := by
  obtain ⟨superName, hsuper, h⟩ := h.of_bind
  obtain ⟨interfaces, hinterfaces, h⟩ := h.of_bind
  obtain ⟨fields, hfields, h⟩ := h.of_bind
  obtain ⟨methods, hmethods, h⟩ := h.of_bind
  obtain ⟨name, hname, h⟩ := h.of_bind
  obtain ⟨_, _, h⟩ := h.of_bind
  obtain ⟨source, hsource, _⟩ := h.of_bind
  refine ⟨⟨name, hname⟩, className?_succeeds ⟨superName, hsuper⟩,
    Succeeds.of_mapM ⟨interfaces, hinterfaces⟩, ⟨source, hsource⟩, fun f hf => ?_,
    fun m hm => Member.resolves_of_resolve (Succeeds.of_mapM ⟨methods, hmethods⟩ m hm)⟩
  have hfield := Succeeds.of_mapM ⟨fields, hfields⟩ f hf
  obtain ⟨_, _, hfield⟩ := hfield.of_bind
  obtain ⟨id, hid, _⟩ := hfield.of_bind
  exact Member.isNamed_of_resolveId ⟨id, hid⟩

/-! ## 2. The same in a listing -/

theorem ConstantPool.classDisplayName_succeeds {index : UInt16}
    (h : (pool.className index).Succeeds) : (pool.classDisplayName index).Succeeds := h.map

theorem ClassFile.name_succeeds (h : c.Resolves) : c.name.Succeeds :=
  ConstantPool.classDisplayName_succeeds h.thisClass

theorem ClassFile.superName_succeeds (h : c.Resolves) : c.superName.Succeeds := by
  unfold ClassFile.superName
  by_cases hzero : c.superClass = 0
  · rw [if_pos hzero]
    exact ⟨none, rfl⟩
  · rw [if_neg hzero]
    exact (ConstantPool.classDisplayName_succeeds (h.superClass hzero)).map

theorem ClassFile.interfaceNames_succeeds (h : c.Resolves) : c.interfaceNames.Succeeds :=
  Succeeds.mapM fun index hindex =>
    ConstantPool.classDisplayName_succeeds (h.interfaces index hindex)

theorem throwsClause_succeeds (h : m.Resolves pool) : (throwsClause pool m).Succeeds := by
  have hnames : ((m.exceptions?.getD []).mapM pool.classDisplayName).Succeeds :=
    Succeeds.mapM fun index hindex =>
      ConstantPool.classDisplayName_succeeds (h.exceptions index hindex)
  exact hnames.bind fun _ => ⟨_, rfl⟩

theorem exceptionTableLines_succeeds (h : code.Resolves pool) :
    (exceptionTableLines pool code.handlers).Succeeds := by
  have hlines : (code.handlers.mapM (handlerLine pool)).Succeeds := by
    refine Succeeds.mapM fun row hrow => ?_
    unfold handlerLine
    by_cases hany : row.catchType = 0
    · rw [if_pos hany]
      exact ⟨_, rfl⟩
    · rw [if_neg hany]
      have hclass := ConstantPool.classDisplayName_succeeds (h.catchTypes row hrow hany)
      exact hclass.map.bind fun _ => ⟨_, rfl⟩
  exact hlines.bind fun _ => ⟨_, rfl⟩

theorem localVariableLines_succeeds (h : code.Resolves pool) :
    (localVariableLines pool code.localVariables).Succeeds := by
  have hlines : (code.localVariables.mapM (localVariableLine pool)).Succeeds := by
    refine Succeeds.mapM fun row hrow => ?_
    obtain ⟨hname, hdescriptor⟩ := h.localVariables row hrow
    exact hname.bind fun _ => hdescriptor.bind fun _ => ⟨_, rfl⟩
  exact hlines.bind fun _ => ⟨_, rfl⟩

theorem debugLines_succeeds (h : code.Resolves pool) : (debugLines o pool code).Succeeds := by
  unfold debugLines
  by_cases hlocals : o.showsLocalVariables = true
  · rw [if_pos hlocals]
    exact (localVariableLines_succeeds h).bind fun _ => ⟨_, rfl⟩
  · rw [if_neg hlocals]
    exact ⟨_, rfl⟩

theorem ClassFile.declaration_succeeds (h : c.Resolves) : c.declaration.Succeeds := by
  refine (name_succeeds h).bind fun name => (interfaceNames_succeeds h).bind fun interfaces => ?_
  by_cases hinterface : c.access.isInterface = true
  · simp only [hinterface, if_true]
    exact ⟨_, rfl⟩
  · simp only [hinterface]
    exact (superName_succeeds h).bind fun _ => ⟨_, rfl⟩

/-! ## 3. What is left to fail -/

/-- The fault is that the descriptor of the member is none. -/
def Member.HasDescriptorFault {kind : AccessKind} (pool : ConstantPool) (m : Member kind)
    (e : DecodeError) : Prop :=
  ∃ d, m.descriptorIn pool = .ok d ∧ e = .invalidDescriptor d

/-- The fault is that of the index that an instruction of the method carries. -/
def Member.HasCodeFault (pool : ConstantPool) (m : Method) (e : DecodeError) : Prop :=
  ∃ code row i, m.code? = some code ∧ decode code.bytes = .ok row ∧ i ∈ row ∧ i.HasPoolFault pool e

theorem Member.HasCodeFault.isReference {e : DecodeError} (h : m.HasCodeFault pool e) :
    e.IsReference := by
  obtain ⟨_, _, _, _, _, _, hfault⟩ := h
  exact Instruction.HasPoolFault.isReference hfault

theorem meaning_fails {α : Type} (d : Descriptor) (part : Option α) :
    (d.meaning part).FailsOnly fun e => e = .invalidDescriptor d.text :=
  fun _ he => Descriptor.eq_invalidDescriptor_of_meaning he

/-- What refuses the descriptor of a member has the fault of the member. -/
theorem fails_for_descriptor {α : Type} {kind : AccessKind} {m : Member kind} {x : Outcome α}
    {d : String} (hd : m.descriptorIn pool = .ok d)
    (h : x.FailsOnly fun e => e = .invalidDescriptor d) :
    x.FailsOnly (m.HasDescriptorFault pool) :=
  h.mono fun _ he => ⟨d, hd, he⟩

/-- The lines of a field fail for its descriptor alone. -/
theorem fieldLines_fails {f : Field} (h : f.IsNamed pool) (hplain : o.verbose = false) :
    (fieldLines o pool f).FailsOnly (f.HasDescriptorFault pool) := by
  unfold fieldLines
  refine FailsOnly.behind h.descriptor fun d hd => ?_
  refine (fails_for_descriptor hd (meaning_fails ⟨d⟩ _)).bind fun type _ => ?_
  refine FailsOnly.behind h.name fun name _ => ?_
  simp only [hplain]
  exact FailsOnly.pure _

/-- The head of a method fails for its descriptor alone. -/
theorem methodHead_fails {name : String} {d : Descriptor} (h : c.Resolves) :
    (methodHead c name d).FailsOnly fun e => e = .invalidDescriptor d.text := by
  unfold methodHead
  by_cases hinit : name = "<init>"
  · rw [if_pos hinit]
    exact FailsOnly.of_succeeds (ClassFile.name_succeeds h)
  · rw [if_neg hinit]
    exact (meaning_fails d _).bind fun _ _ => FailsOnly.pure _

/-- The declaration of a method fails for its descriptor alone. -/
theorem methodDeclaration_fails (h : c.Resolves) (hm : m ∈ c.methods) :
    (methodDeclaration c m).FailsOnly (m.HasDescriptorFault c.pool) := by
  have hmethod : m.Resolves c.pool := h.methods m hm
  unfold methodDeclaration
  refine FailsOnly.behind hmethod.named.name fun name _ => ?_
  by_cases hclinit : name = "<clinit>"
  · rw [if_pos hclinit]
    exact FailsOnly.pure _
  · rw [if_neg hclinit]
    refine FailsOnly.behind hmethod.named.descriptor fun d hd => ?_
    refine (fails_for_descriptor hd (meaning_fails ⟨d⟩ _)).bind fun types _ => ?_
    refine (fails_for_descriptor hd (methodHead_fails h)).bind fun head _ => ?_
    exact FailsOnly.behind (throwsClause_succeeds hmethod) fun _ _ => FailsOnly.pure _

/-- The lines of a body fail for an index that one of its instructions carries. -/
theorem bodyLines_fails (h : code.Resolves pool) (hcode : m.code? = some code)
    (hplain : o.verbose = false) : (bodyLines o pool m code).FailsOnly (m.HasCodeFault pool) := by
  have hlines : (codeLines pool code.bytes).FailsOnly (m.HasCodeFault pool) := by
    refine FailsOnly.behind h.instructions fun row hrow => ?_
    refine (FailsOnly.mapM fun i hi => ?_).bind fun _ _ => FailsOnly.pure _
    have hwf := Instruction.isWellFormed_of_mem hrow hi
    exact (instructionLines_fails hwf).mono fun e he => ⟨code, row, i, hcode, hrow, hi, he⟩
  unfold bodyLines
  simp only [hplain]
  refine (FailsOnly.pure _).bind fun _ _ => hlines.bind fun _ _ => ?_
  exact FailsOnly.behind (exceptionTableLines_succeeds h) fun _ _ => FailsOnly.pure _

/-- The lines of a method fail for its descriptor, or for its code if it is shown. -/
theorem methodLines_fails (h : c.Resolves) (hm : m ∈ c.methods) (hplain : o.verbose = false) :
    (methodLines o c m).FailsOnly fun e =>
      m.HasDescriptorFault c.pool e ∨ o.skipCode = false ∧ m.HasCodeFault c.pool e := by
  have hmethod : m.Resolves c.pool := h.methods m hm
  unfold methodLines
  refine ((methodDeclaration_fails h hm).mono fun e he => .inl he).bind fun declaration _ => ?_
  simp only [hplain]
  refine (FailsOnly.pure _).bind fun detail _ => ?_
  cases hcode : m.code? with
  | none => exact FailsOnly.pure _
  | some code =>
    have hbody : code.Resolves c.pool := hmethod.code code hcode
    have hdebug : (debugLines o c.pool code).Succeeds := debugLines_succeeds hbody
    by_cases hskip : o.skipCode = true
    · simp only [hskip, if_true]
      exact (FailsOnly.pure _).bind fun _ _ =>
        FailsOnly.behind hdebug fun _ _ => FailsOnly.pure _
    · have hshown : o.skipCode = false := Bool.eq_false_iff.2 hskip
      simp only [if_neg hskip]
      refine ((bodyLines_fails hbody hcode hplain).mono fun e he => ?_).bind fun _ _ =>
        FailsOnly.behind hdebug fun _ _ => FailsOnly.pure _
      exact .inr ⟨hshown, he⟩

/-- The faults that the listing of a class can have that resolves. -/
def ClassFile.HasListingFault (c : ClassFile) (o : ListingOptions) (e : DecodeError) : Prop :=
  (∃ f ∈ c.fields, f.HasDescriptorFault c.pool e) ∨
    (∃ m ∈ c.methods, m.HasDescriptorFault c.pool e) ∨
      o.skipCode = false ∧ ∃ m ∈ c.methods, m.HasCodeFault c.pool e

/-- The listing fails for a descriptor, or for an index in code that is shown. -/
theorem ClassFile.listing_fails (h : c.Resolves) (hplain : o.verbose = false) :
    (c.listing o).FailsOnly (c.HasListingFault o) := by
  have hsource : (c.sourceLines "Compiled from ").Succeeds := h.sourceFile.bind fun _ => ⟨_, rfl⟩
  have hopening : (c.openingLines o).Succeeds := by
    refine (declaration_succeeds h).bind fun _ => ?_
    simp only [hplain]
    exact ⟨_, rfl⟩
  have hfields : (c.fields.mapM (fieldLines o c.pool)).FailsOnly (c.HasListingFault o) :=
    FailsOnly.mapM fun f hf => (fieldLines_fails (h.fields f hf) hplain).mono fun _ he =>
      .inl ⟨f, hf, he⟩
  have hmethods : (c.methods.mapM (methodLines o c)).FailsOnly (c.HasListingFault o) := by
    refine FailsOnly.mapM fun m hm => (methodLines_fails h hm hplain).mono fun e he => ?_
    rcases he with hdescriptor | ⟨hskip, hcode⟩
    · exact .inr (.inl ⟨m, hm, hdescriptor⟩)
    · exact .inr (.inr ⟨hskip, m, hm, hcode⟩)
  have hmembers : (c.memberLines o).FailsOnly (c.HasListingFault o) :=
    hfields.bind fun _ _ => hmethods.bind fun _ _ => FailsOnly.pure _
  unfold ClassFile.listing
  refine FailsOnly.behind hsource fun _ _ => ?_
  refine FailsOnly.behind hopening fun _ _ => hmembers.bind fun _ _ => ?_
  simp only [hplain]
  exact (FailsOnly.pure _).bind fun _ _ => FailsOnly.pure _

/-- **A class that resolves can be listed, but for its descriptors and the indices in its code.**
    What resolving looked up the listing finds, and no decoded instruction fails but for the index
    that it carries. -/
theorem listing_of_resolved {texts : TextReader} {bytes : List UInt8} {r : ResolvedClass}
    (htree : ResolvedClass.parse bytes texts = .ok r) (hplain : o.verbose = false) :
    ∃ c, ClassFile.parse bytes texts = .ok c ∧
      ((∃ text, disassemble o bytes texts = .ok text) ∨
        (∃ d, disassemble o bytes texts = .error (.invalidDescriptor d) ∧
          ((∃ f ∈ c.fields, f.descriptorIn c.pool = .ok d) ∨
            ∃ m ∈ c.methods, m.descriptorIn c.pool = .ok d)) ∨
        (o.skipCode = false ∧ ∃ e, disassemble o bytes texts = .error e ∧ e.IsReference ∧
          ∃ m ∈ c.methods, m.HasCodeFault c.pool e)) ∧
      (∀ pool code row, decode code = .ok row → ∀ i ∈ row, ∀ e,
        instructionLines pool i = .error e → i.HasPoolFault pool e ∧ e.IsReference) ∧
      c.name.Succeeds ∧ c.superName.Succeeds ∧ c.interfaceNames.Succeeds ∧ c.sourceFile.Succeeds ∧
      (∀ f ∈ c.fields, f.IsNamed c.pool) ∧
      ∀ m ∈ c.methods, m.IsNamed c.pool ∧ (throwsClause c.pool m).Succeeds ∧
        ∀ code, m.code? = some code → (exceptionTableLines c.pool code.handlers).Succeeds ∧
          (localVariableLines c.pool code.localVariables).Succeeds := by
  obtain ⟨c, hparse, hresolve⟩ := bind_eq_ok_iff.1 htree
  have h : c.Resolves := ClassFile.resolves_of_resolve ⟨r, hresolve⟩
  have hlines : ∀ pool code row, decode code = .ok row → ∀ i ∈ row, ∀ e,
      instructionLines pool i = .error e → i.HasPoolFault pool e ∧ e.IsReference := by
    intro pool code row hrow i hi e he
    have hfault := instructionLines_fails (Instruction.isWellFormed_of_mem hrow hi) e he
    exact ⟨hfault, hfault.isReference⟩
  refine ⟨c, hparse, ?_, hlines, ClassFile.name_succeeds h, ClassFile.superName_succeeds h,
    ClassFile.interfaceNames_succeeds h, h.sourceFile, h.fields, fun m hm => ?_⟩
  · rw [disassemble_of_parse hparse]
    cases hlisting : c.listing o with
    | ok lines => exact .inl ⟨unlines lines, rfl⟩
    | error e =>
      rcases ClassFile.listing_fails h hplain e hlisting with
        ⟨f, hf, d, hd, rfl⟩ | ⟨m, hm, d, hd, rfl⟩ | ⟨hskip, m, hm, hcode⟩
      · exact .inr (.inl ⟨d, rfl, .inl ⟨f, hf, hd⟩⟩)
      · exact .inr (.inl ⟨d, rfl, .inr ⟨m, hm, hd⟩⟩)
      · exact .inr (.inr ⟨hskip, e, rfl, hcode.isReference, m, hm, hcode⟩)
  · have hmethod : m.Resolves c.pool := h.methods m hm
    refine ⟨hmethod.named, throwsClause_succeeds hmethod, fun code hcode => ?_⟩
    have hbody : code.Resolves c.pool := hmethod.code code hcode
    exact ⟨exceptionTableLines_succeeds hbody, localVariableLines_succeeds hbody⟩

/-- A class with a method that loads a constant at an index where there is none. -/
def missingConstant : List UInt8 :=
  [0xca, 0xfe, 0xba, 0xbe, 0, 0, 0, 52, 0, 5, 1, 0, 1, 65, 7, 0, 1, 1, 0, 4, 67, 111, 100, 101,
    1, 0, 3, 40, 41, 86, 0, 1, 0, 2, 0, 0, 0, 0, 0, 0, 0, 1, 0, 1, 0, 1, 0, 4, 0, 1,
    0, 3, 0, 0, 0, 14, 0, 0, 0, 0, 0, 0, 0, 2, 18, 9, 0, 0, 0, 0, 0, 0]

/-- It resolves, and its listing fails for that index. -/
theorem listing_of_resolved_missingConstant : ListingOptions.plain.verbose = false ∧
    (∃ r, ResolvedClass.parse missingConstant = .ok r) ∧
    ∃ c, ClassFile.parse missingConstant = .ok c ∧
      disassemble .plain missingConstant = .error (.indexOutOfRange 9) ∧
      ∃ m ∈ c.methods, m.HasCodeFault c.pool (.indexOutOfRange 9) := by
  have hlisting : disassemble .plain missingConstant = .error (.indexOutOfRange 9) := by
    decide +kernel
  obtain ⟨r, hr⟩ : (ResolvedClass.parse missingConstant).Succeeds := by decide +kernel
  obtain ⟨c, hparse, houtcome, _⟩ := listing_of_resolved hr (rfl : ListingOptions.plain.verbose = _)
  refine ⟨rfl, ⟨r, hr⟩, c, hparse, hlisting, ?_⟩
  rcases houtcome with ⟨text, htext⟩ | ⟨d, hd, _⟩ | ⟨_, e, he, _, hfault⟩
  · exact nomatch htext.symm.trans hlisting
  · exact nomatch hd.symm.trans hlisting
  · cases he.symm.trans hlisting
    exact hfault

end ClassView
