import ClassView.Proofs.Listing.Agreement

/-!
# What a resolved class tells

Resolving a class looks up everything that its indices stand for. It gives an answer exactly if all
of it is there, so nothing is passed over or made up, and the answer tells of every part of the
class what was looked up for it: as many fields, methods, interfaces, exceptions, handlers, line
numbers and local variables as the class has, in the same order. Where the class file is asked for a
name itself, it tells the same name in display form.

* `Attribute.First`, `Attribute.Rows`: what a list of attributes says, told from the list itself;
* `ClassFile.IsResolvable`: all that a class refers to is there;
* `ResolvedClass.Tells`: a resolved class is what the indices of a class file stand for;
* `ResolvedField.of_eq_ok_iff`, `ResolvedField.of_succeeds_iff` and their likes: one part each;
* **`ClassFile.resolve_complete`**: a class is resolved exactly if it is resolvable, to what it
  stands for, and the display names of the class file are those of the resolved class.
-/

namespace ClassView

open Outcome

/-! ## 1. What a list of attributes says -/

namespace Attribute

variable {α : Type}

/-- The first attribute of a kind holds this. -/
def First (kind : α → Attribute) (attributes : List Attribute) (a : α) : Prop :=
  ∃ front behind, attributes = front ++ kind a :: behind ∧ ∀ b, kind b ∉ front

/-- The rows of all tables of a kind, one table behind the other. -/
inductive Rows (kind : List α → Attribute) : List Attribute → List α → Prop
  | nil : Rows kind [] []
  | table {rows more : List α} {behind : List Attribute} (tail : Rows kind behind more) :
      Rows kind (kind rows :: behind) (rows ++ more)
  | other {more : List α} {a : Attribute} {behind : List Attribute} (skip : ∀ rows, a ≠ kind rows)
      (tail : Rows kind behind more) : Rows kind (a :: behind) more

end Attribute

/-! ## 2. What has to be there -/

/-- The instructions of the body can be decoded, and the classes that it catches and its local
    variables can be looked up. -/
structure CodeOf.IsResolvable (pool : ConstantPool) (code : Code) : Prop where
  catchTypes : ∀ h ∈ code.handlers, h.catchType ≠ 0 → (pool.className h.catchType).Succeeds
  localVariables : ∀ rows, .localVariableTable rows ∈ code.attributes → ∀ v ∈ rows,
    (pool.text v.name).Succeeds ∧ (pool.text v.descriptor).Succeeds
  instructions : (decode code.bytes).Succeeds

/-- What resolving looks up of a field is there: its name and descriptor, the text of its first
    signature, and the constant that it starts with. -/
structure Member.IsResolvableField (pool : ConstantPool) (f : Field) : Prop
    extends f.IsNamed pool where
  signature : ∀ index, Attribute.First .signature f.attributes index → (pool.text index).Succeeds
  value : ∀ index, Attribute.First .constantValue f.attributes index →
    (pool.constant index).Succeeds

/-- What resolving looks up of a method is there: its name and descriptor, the text of its first
    signature, the classes of the exceptions it declares, and what its body refers to. -/
structure Member.IsResolvableMethod (pool : ConstantPool) (m : Method) : Prop
    extends m.IsNamed pool where
  signature : ∀ index, Attribute.First .signature m.attributes index → (pool.text index).Succeeds
  exceptions : ∀ indices, Attribute.First .exceptions m.attributes indices →
    ∀ index ∈ indices, (pool.className index).Succeeds
  code : ∀ code, Attribute.First .code m.attributes code → code.IsResolvable pool

/-- All that the class refers to is there. -/
structure ClassFile.IsResolvable (c : ClassFile) : Prop where
  thisClass : (c.pool.className c.thisClass).Succeeds
  superClass : c.superClass ≠ 0 → (c.pool.className c.superClass).Succeeds
  interfaces : ∀ index ∈ c.interfaces, (c.pool.className index).Succeeds
  signature : ∀ index, Attribute.First .signature c.attributes index →
    (c.pool.text index).Succeeds
  sourceFile : ∀ index, Attribute.First .sourceFile c.attributes index →
    (c.pool.text index).Succeeds
  fields : ∀ f ∈ c.fields, f.IsResolvableField c.pool
  methods : ∀ m ∈ c.methods, m.IsResolvableMethod c.pool

/-! ## 3. What is told -/

/-- The class that an index stands for, where zero stands for no class. -/
def ConstantPool.NamesClass (pool : ConstantPool) (index : UInt16) : Option String → Prop
  | none => index = 0
  | some name => index ≠ 0 ∧ pool.className index = .ok name

/-- What the first attribute of a kind stands for, and nothing if there is none. -/
def TellsFirst {α β : Type} (kind : α → Attribute) (stands : α → β → Prop)
    (attributes : List Attribute) : Option β → Prop
  | none => ∀ a, kind a ∉ attributes
  | some b => ∃ a, Attribute.First kind attributes a ∧ stands a b

/-- The name and the descriptor of the member. -/
structure NameAndType.Tells {kind : AccessKind} (pool : ConstantPool) (m : Member kind)
    (id : NameAndType) : Prop where
  name : m.nameIn pool = .ok id.name
  descriptor : m.descriptorIn pool = .ok id.descriptor

/-- The handler with the class that it catches. -/
structure ResolvedHandler.Tells (pool : ConstantPool) (h : ExceptionHandler)
    (r : ResolvedHandler) : Prop where
  start : r.start = h.start
  stop : r.stop = h.stop
  handler : r.handler = h.handler
  catchType : pool.NamesClass h.catchType r.catchType

/-- The local variable with its name and descriptor. -/
structure ResolvedVariable.Tells (pool : ConstantPool) (v : LocalVariable)
    (r : ResolvedVariable) : Prop where
  name : pool.text v.name = .ok r.id.name
  descriptor : pool.text v.descriptor = .ok r.id.descriptor
  start : r.start = v.start
  length : r.length = v.length
  slot : r.slot = v.slot

/-- The body with its instructions, and its tables row by row. -/
structure ResolvedCode.Tells (pool : ConstantPool) (code : Code) (r : ResolvedCode) : Prop where
  maxStack : r.maxStack = code.maxStack
  maxLocals : r.maxLocals = code.maxLocals
  instructions : decode code.bytes = .ok r.instructions
  handlers : List.Forall₂ (ResolvedHandler.Tells pool) code.handlers r.handlers
  lineNumbers : Attribute.Rows .lineNumberTable code.attributes r.lineNumbers
  localVariables : ∃ rows, Attribute.Rows .localVariableTable code.attributes rows ∧
    List.Forall₂ (ResolvedVariable.Tells pool) rows r.localVariables

/-- The field with its name, its signature and its constant. -/
structure ResolvedField.Tells (pool : ConstantPool) (f : Field) (r : ResolvedField) : Prop where
  access : r.access = f.access
  id : r.id.Tells pool f
  signature : TellsFirst .signature (fun index text => pool.text index = .ok text) f.attributes
    r.signature
  value : TellsFirst .constantValue (fun index v => pool.constant index = .ok v) f.attributes
    r.value
  deprecated : r.deprecated = true ↔ .deprecated ∈ f.attributes

/-- The method with its name, its signature, its exceptions one by one, and its body. -/
structure ResolvedMethod.Tells (pool : ConstantPool) (m : Method) (r : ResolvedMethod) : Prop where
  access : r.access = m.access
  id : r.id.Tells pool m
  exceptions : ∃ names?, r.exceptions = names?.getD [] ∧ TellsFirst .exceptions
    (List.Forall₂ fun index name => pool.className index = .ok name) m.attributes names?
  signature : TellsFirst .signature (fun index text => pool.text index = .ok text) m.attributes
    r.signature
  code : TellsFirst .code (ResolvedCode.Tells pool) m.attributes r.code
  deprecated : r.deprecated = true ↔ .deprecated ∈ m.attributes

/-- The class with its names, and with its fields and methods one by one. -/
structure ResolvedClass.Tells (c : ClassFile) (r : ResolvedClass) : Prop where
  version : r.version = ⟨c.majorVersion, c.minorVersion⟩
  access : r.access = c.access
  name : c.pool.className c.thisClass = .ok r.name
  superName : c.pool.NamesClass c.superClass r.superName
  interfaces : List.Forall₂ (fun index name => c.pool.className index = .ok name)
    c.interfaces r.interfaces
  signature : TellsFirst .signature (fun index text => c.pool.text index = .ok text) c.attributes
    r.signature
  sourceName : TellsFirst .sourceFile (fun index text => c.pool.text index = .ok text)
    c.attributes r.sourceName
  fields : List.Forall₂ (ResolvedField.Tells c.pool) c.fields r.fields
  methods : List.Forall₂ (ResolvedMethod.Tells c.pool) c.methods r.methods
  pool : r.pool = c.pool

/-! ## 4. Readers of attributes -/

namespace Attribute

variable {α : Type} {attributes : List Attribute}

/-- The reader takes what the first attribute of a kind holds. -/
def ReadsFirst (reader : List Attribute → Option α) (kind : α → Attribute) : Prop :=
  ∀ attributes a, reader attributes = some a ↔ First kind attributes a

/-- Where there is an attribute of a kind there is a first one. -/
theorem exists_first {kind : α → Attribute} {a : α} (h : kind a ∈ attributes) :
    ∃ b, First kind attributes b := by
  induction attributes with
  | nil => exact absurd h List.not_mem_nil
  | cons x attributes ih =>
    by_cases hx : ∃ b, x = kind b
    · obtain ⟨b, rfl⟩ := hx
      exact ⟨b, [], attributes, rfl, fun _ => List.not_mem_nil⟩
    · have hother : ∀ b, kind b ≠ x := fun b hb => hx ⟨b, hb.symm⟩
      obtain ⟨b, front, behind, rfl, hfront⟩ := ih ((List.mem_cons.1 h).resolve_left (hother a))
      refine ⟨b, x :: front, behind, rfl, fun b' hb' => ?_⟩
      exact hfront b' ((List.mem_cons.1 hb').resolve_left (hother b'))

theorem First.mem {kind : α → Attribute} {a : α} (h : First kind attributes a) :
    kind a ∈ attributes := by
  obtain ⟨front, behind, rfl, _⟩ := h
  exact List.mem_append_right _ List.mem_cons_self

theorem ReadsFirst.of_pick {pick : Attribute → Option α} {kind : α → Attribute}
    (hpick : ∀ x a, pick x = some a ↔ x = kind a) :
    ReadsFirst (fun attributes => attributes.findSome? pick) kind := by
  intro attributes a
  rw [List.findSome?_eq_some_iff]
  constructor
  · rintro ⟨front, x, behind, rfl, hx, hfront⟩
    obtain rfl := (hpick x a).1 hx
    refine ⟨front, behind, rfl, fun b hb => ?_⟩
    exact nomatch (hfront _ hb).symm.trans ((hpick _ b).2 rfl)
  · rintro ⟨front, behind, rfl, hfront⟩
    refine ⟨front, kind a, behind, rfl, (hpick _ a).2 rfl, fun x hx => ?_⟩
    cases hpicked : pick x with
    | none => rfl
    | some b => exact absurd ((hpick x b).1 hpicked ▸ hx) (hfront b)

theorem readsFirst_code : ReadsFirst code? .code :=
  .of_pick fun x a => by cases x <;> simp

theorem readsFirst_constantValue : ReadsFirst constantValue? .constantValue :=
  .of_pick fun x a => by cases x <;> simp

theorem readsFirst_exceptions : ReadsFirst exceptions? .exceptions :=
  .of_pick fun x a => by cases x <;> simp

theorem readsFirst_sourceFile : ReadsFirst sourceFile? .sourceFile :=
  .of_pick fun x a => by cases x <;> simp

theorem readsFirst_signature : ReadsFirst signature? .signature :=
  .of_pick fun x a => by cases x <;> simp

theorem isDeprecated_iff : isDeprecated attributes = true ↔ .deprecated ∈ attributes := by
  unfold isDeprecated
  rw [List.any_eq_true]
  constructor
  · rintro ⟨a, ha, hmark⟩
    cases a with
    | deprecated => exact ha
    | _ => exact nomatch hmark
  · exact fun h => ⟨.deprecated, h, rfl⟩

/-- The rows of all tables are those that a reader takes which passes over all other attributes. -/
theorem rows_iff {pick : Attribute → List α} {kind : List α → Attribute}
    (hkind : ∀ rows, pick (kind rows) = rows)
    (hother : ∀ x, (∀ rows, x ≠ kind rows) → pick x = []) {rows : List α} :
    Rows kind attributes rows ↔ rows = attributes.flatMap pick := by
  constructor
  · intro h
    induction h with
    | nil => rfl
    | table _ ih => rw [List.flatMap_cons, hkind, ih]
    | other skip _ ih => rw [List.flatMap_cons, hother _ skip, List.nil_append, ih]
  · rintro rfl
    induction attributes with
    | nil => exact .nil
    | cons x attributes ih =>
      rw [List.flatMap_cons]
      by_cases hx : ∃ rows, x = kind rows
      · obtain ⟨rows, rfl⟩ := hx
        rw [hkind]
        exact .table ih
      · have hskip : ∀ rows, x ≠ kind rows := fun rows hrows => hx ⟨rows, hrows⟩
        rw [hother x hskip, List.nil_append]
        exact .other hskip ih

theorem rows_lineNumbers_iff {rows : List LineNumber} :
    Rows .lineNumberTable attributes rows ↔ rows = lineNumbers attributes := by
  refine rows_iff (fun _ => rfl) fun x hx => ?_
  cases x with
  | lineNumberTable rows => exact absurd rfl (hx rows)
  | _ => rfl

theorem rows_localVariables_iff {rows : List LocalVariable} :
    Rows .localVariableTable attributes rows ↔ rows = localVariables attributes := by
  refine rows_iff (fun _ => rfl) fun x hx => ?_
  cases x with
  | localVariableTable rows => exact absurd rfl (hx rows)
  | _ => rfl

theorem mem_localVariables_iff {v : LocalVariable} :
    v ∈ localVariables attributes ↔ ∃ rows, .localVariableTable rows ∈ attributes ∧ v ∈ rows := by
  unfold localVariables
  rw [List.mem_flatMap]
  constructor
  · rintro ⟨x, hx, hv⟩
    cases x with
    | localVariableTable rows => exact ⟨rows, hx, hv⟩
    | _ => exact absurd hv List.not_mem_nil
  · rintro ⟨rows, hrows, hv⟩
    exact ⟨_, hrows, hv⟩

end Attribute

/-! ## 5. Optional look-ups -/

variable {pool : ConstantPool}

section Optional

variable {α β : Type} {look : α → Outcome β} {reader : List Attribute → Option α}
  {kind : α → Attribute} {attributes : List Attribute}

theorem lookupOption_eq_ok_iff (h : Attribute.ReadsFirst reader kind) {b? : Option β} :
    lookupOption look (reader attributes) = .ok b? ↔
      TellsFirst kind (fun a b => look a = .ok b) attributes b? := by
  cases hread : reader attributes with
  | none =>
    have hnone : ∀ a, kind a ∉ attributes := by
      intro a ha
      obtain ⟨b, hb⟩ := Attribute.exists_first ha
      exact nomatch hread.symm.trans ((h attributes b).2 hb)
    cases b? with
    | none => exact ⟨fun _ => hnone, fun _ => rfl⟩
    | some b => exact ⟨fun hb => (nomatch hb), fun ⟨a, ha, _⟩ => absurd ha.mem (hnone a)⟩
  | some a =>
    have hfirst := (h attributes a).1 hread
    cases b? with
    | none =>
      constructor
      · intro hb
        obtain ⟨_, _, hb⟩ := map_eq_ok_iff.1 hb
        exact nomatch hb
      · exact fun hnone => absurd hfirst.mem (hnone a)
    | some b =>
      constructor
      · intro hb
        obtain ⟨_, hlook, hb⟩ := map_eq_ok_iff.1 hb
        obtain rfl := Option.some.inj hb
        exact ⟨a, hfirst, hlook⟩
      · rintro ⟨a', ha', hlook⟩
        obtain rfl := Option.some.inj (hread.symm.trans ((h attributes a').2 ha'))
        exact map_eq_ok_iff.2 ⟨b, hlook, rfl⟩

theorem lookupOption_succeeds_iff (h : Attribute.ReadsFirst reader kind) :
    (lookupOption look (reader attributes)).Succeeds ↔
      ∀ a, Attribute.First kind attributes a → (look a).Succeeds := by
  simp only [← h attributes]
  cases reader attributes with
  | none => exact ⟨fun _ _ ha => (nomatch ha), fun _ => ⟨none, rfl⟩⟩
  | some a => exact succeeds_map_iff.trans ⟨fun hlook b hb => Option.some.inj hb ▸ hlook,
      fun hlook => hlook a rfl⟩

end Optional

namespace ConstantPool

variable {index : UInt16}

theorem className?_eq_ok_iff {name? : Option String} :
    pool.className? index = .ok name? ↔ pool.NamesClass index name? := by
  unfold className?
  by_cases hzero : index = 0
  · rw [if_pos hzero]
    cases name? with
    | none => exact ⟨fun _ => hzero, fun _ => rfl⟩
    | some name => exact ⟨fun h => (nomatch h), fun h => absurd hzero h.1⟩
  · rw [if_neg hzero, map_eq_ok_iff]
    cases name? with
    | none => exact ⟨fun ⟨_, _, h⟩ => (nomatch h), fun h => absurd h hzero⟩
    | some name =>
      constructor
      · rintro ⟨shown, hshown, hname⟩
        cases hname
        exact ⟨hzero, hshown⟩
      · rintro ⟨_, hname⟩
        exact ⟨name, hname, rfl⟩

theorem className?_succeeds_iff :
    (pool.className? index).Succeeds ↔ (index ≠ 0 → (pool.className index).Succeeds) := by
  unfold className?
  by_cases hzero : index = 0
  · rw [if_pos hzero]
    exact ⟨fun _ h => absurd hzero h, fun _ => ⟨none, rfl⟩⟩
  · rw [if_neg hzero, succeeds_map_iff]
    exact ⟨fun h _ => h, fun h => h hzero⟩

end ConstantPool

/-! ## 6. Handlers, local variables and bodies -/

theorem ResolvedHandler.of_eq_ok_iff {h : ExceptionHandler} {r : ResolvedHandler} :
    ResolvedHandler.of pool h = .ok r ↔ r.Tells pool h := by
  unfold ResolvedHandler.of
  rw [bind_eq_ok_iff]
  constructor
  · rintro ⟨caught, hcaught, hr⟩
    cases hr
    exact ⟨rfl, rfl, rfl, ConstantPool.className?_eq_ok_iff.1 hcaught⟩
  · intro hr
    obtain ⟨start, stop, handler, caught⟩ := r
    obtain ⟨rfl, rfl, rfl, hcaught⟩ := hr
    exact ⟨caught, ConstantPool.className?_eq_ok_iff.2 hcaught, rfl⟩

theorem ResolvedVariable.of_eq_ok_iff {v : LocalVariable} {r : ResolvedVariable} :
    ResolvedVariable.of pool v = .ok r ↔ r.Tells pool v := by
  unfold ResolvedVariable.of
  simp only [bind_eq_ok_iff]
  constructor
  · rintro ⟨name, hname, descriptor, hdescriptor, hr⟩
    cases hr
    exact ⟨hname, hdescriptor, rfl, rfl, rfl⟩
  · intro hr
    obtain ⟨⟨name, descriptor⟩, start, length, slot⟩ := r
    obtain ⟨hname, hdescriptor, rfl, rfl, rfl⟩ := hr
    exact ⟨name, hname, descriptor, hdescriptor, rfl⟩

theorem ResolvedVariable.of_succeeds_iff {v : LocalVariable} :
    (ResolvedVariable.of pool v).Succeeds ↔
      (pool.text v.name).Succeeds ∧ (pool.text v.descriptor).Succeeds :=
  succeeds_bind_iff fun _ => succeeds_bind_ok_iff fun _ => ⟨_, rfl⟩

theorem ResolvedCode.of_eq_ok_iff {code : Code} {r : ResolvedCode} :
    ResolvedCode.of pool code = .ok r ↔ r.Tells pool code := by
  unfold ResolvedCode.of
  simp only [bind_eq_ok_iff, mapM_eq_ok_iff, ResolvedHandler.of_eq_ok_iff,
    ResolvedVariable.of_eq_ok_iff]
  constructor
  · rintro ⟨handlers, hhandlers, locals, hlocals, instructions, hinstructions, hr⟩
    cases hr
    exact ⟨rfl, rfl, hinstructions, hhandlers, Attribute.rows_lineNumbers_iff.2 rfl, _,
      Attribute.rows_localVariables_iff.2 rfl, hlocals⟩
  · intro hr
    obtain ⟨maxStack, maxLocals, instructions, handlers, lineNumbers, locals⟩ := r
    obtain ⟨rfl, rfl, hinstructions, hhandlers, hlines, rows, hrows, hlocals⟩ := hr
    obtain rfl := Attribute.rows_lineNumbers_iff.1 hlines
    obtain rfl := Attribute.rows_localVariables_iff.1 hrows
    exact ⟨handlers, hhandlers, locals, hlocals, instructions, hinstructions, rfl⟩

theorem ResolvedCode.of_succeeds_iff {code : Code} :
    (ResolvedCode.of pool code).Succeeds ↔ code.IsResolvable pool := by
  have hparts : (ResolvedCode.of pool code).Succeeds ↔
      (code.handlers.mapM (ResolvedHandler.of pool)).Succeeds ∧
        (code.localVariables.mapM (ResolvedVariable.of pool)).Succeeds ∧
          (decode code.bytes).Succeeds :=
    succeeds_bind_iff fun _ => succeeds_bind_iff fun _ => succeeds_bind_ok_iff fun _ => ⟨_, rfl⟩
  have hhandler : ∀ h, (ResolvedHandler.of pool h).Succeeds ↔
      (h.catchType ≠ 0 → (pool.className h.catchType).Succeeds) := fun h =>
    (succeeds_bind_ok_iff fun _ => ⟨_, rfl⟩).trans ConstantPool.className?_succeeds_iff
  rw [hparts, succeeds_mapM_iff, succeeds_mapM_iff]
  simp only [hhandler, ResolvedVariable.of_succeeds_iff]
  constructor
  · rintro ⟨hhandlers, hlocals, hinstructions⟩
    exact ⟨hhandlers, fun rows hrows v hv =>
      hlocals v (Attribute.mem_localVariables_iff.2 ⟨rows, hrows, hv⟩), hinstructions⟩
  · rintro ⟨hhandlers, hlocals, hinstructions⟩
    refine ⟨hhandlers, fun v hv => ?_, hinstructions⟩
    obtain ⟨rows, hrows, hv⟩ := Attribute.mem_localVariables_iff.1 hv
    exact hlocals rows hrows v hv

/-! ## 7. Members -/

theorem Member.resolveId_eq_ok_iff {kind : AccessKind} {m : Member kind} {id : NameAndType} :
    m.resolveId pool = .ok id ↔ id.Tells pool m := by
  unfold Member.resolveId
  simp only [bind_eq_ok_iff]
  constructor
  · rintro ⟨name, hname, descriptor, hdescriptor, hid⟩
    cases hid
    exact ⟨hname, hdescriptor⟩
  · rintro ⟨hname, hdescriptor⟩
    exact ⟨id.name, hname, id.descriptor, hdescriptor, rfl⟩

theorem Member.resolveId_succeeds_iff {kind : AccessKind} {m : Member kind} :
    (m.resolveId pool).Succeeds ↔ m.IsNamed pool :=
  ⟨isNamed_of_resolveId, fun h => h.name.bind fun _ => h.descriptor.bind fun _ => ⟨_, rfl⟩⟩

theorem ResolvedField.of_eq_ok_iff {f : Field} {r : ResolvedField} :
    ResolvedField.of pool f = .ok r ↔ r.Tells pool f := by
  unfold ResolvedField.of resolveSignature Member.constantValue?
  simp only [bind_eq_ok_iff, lookupOption_eq_ok_iff Attribute.readsFirst_constantValue,
    lookupOption_eq_ok_iff Attribute.readsFirst_signature, Member.resolveId_eq_ok_iff]
  constructor
  · rintro ⟨value, hvalue, id, hid, signature, hsignature, hr⟩
    cases hr
    exact ⟨rfl, hid, hsignature, hvalue, Attribute.isDeprecated_iff⟩
  · intro hr
    obtain ⟨access, id, signature, value, deprecated⟩ := r
    obtain ⟨rfl, hid, hsignature, hvalue, hdeprecated⟩ := hr
    obtain rfl : Attribute.isDeprecated f.attributes = deprecated :=
      Bool.eq_iff_iff.2 (Attribute.isDeprecated_iff.trans hdeprecated.symm)
    exact ⟨value, hvalue, id, hid, signature, hsignature, rfl⟩

theorem ResolvedField.of_succeeds_iff {f : Field} :
    (ResolvedField.of pool f).Succeeds ↔ f.IsResolvableField pool := by
  have hparts : (ResolvedField.of pool f).Succeeds ↔
      (lookupOption pool.constant (Attribute.constantValue? f.attributes)).Succeeds ∧
        (f.resolveId pool).Succeeds ∧
          (lookupOption pool.text (Attribute.signature? f.attributes)).Succeeds :=
    succeeds_bind_iff fun _ => succeeds_bind_iff fun _ => succeeds_bind_ok_iff fun _ => ⟨_, rfl⟩
  rw [hparts, lookupOption_succeeds_iff Attribute.readsFirst_constantValue,
    lookupOption_succeeds_iff Attribute.readsFirst_signature, Member.resolveId_succeeds_iff]
  constructor
  · rintro ⟨hvalue, hid, hsignature⟩
    exact ⟨hid, hsignature, hvalue⟩
  · rintro ⟨hid, hsignature, hvalue⟩
    exact ⟨hvalue, hid, hsignature⟩

/-- The exceptions that a method declares are the classes of its first list, and none without a
    list. -/
theorem exceptions_eq_ok_iff {attributes : List Attribute} {names : List String} :
    ((Attribute.exceptions? attributes).getD []).mapM pool.className = .ok names ↔
      ∃ names?, names = names?.getD [] ∧ TellsFirst .exceptions
        (List.Forall₂ fun index name => pool.className index = .ok name) attributes names? := by
  have hlist : ∀ names?, lookupOption (fun indices => indices.mapM pool.className)
      (Attribute.exceptions? attributes) = .ok names? ↔ TellsFirst .exceptions
        (List.Forall₂ fun index name => pool.className index = .ok name) attributes names? := by
    intro names?
    rw [lookupOption_eq_ok_iff Attribute.readsFirst_exceptions]
    simp only [mapM_eq_ok_iff]
  simp only [← hlist]
  cases Attribute.exceptions? attributes with
  | none =>
    constructor
    · intro h
      cases h
      exact ⟨none, rfl, rfl⟩
    · rintro ⟨names?, rfl, h⟩
      cases h
      rfl
  | some indices =>
    constructor
    · exact fun h => ⟨some names, rfl, map_eq_ok_iff.2 ⟨names, h, rfl⟩⟩
    · rintro ⟨names?, rfl, h⟩
      obtain ⟨names, hnames, rfl⟩ := map_eq_ok_iff.1 h
      exact hnames

theorem exceptions_succeeds_iff {attributes : List Attribute} :
    (((Attribute.exceptions? attributes).getD []).mapM pool.className).Succeeds ↔
      ∀ indices, Attribute.First .exceptions attributes indices →
        ∀ index ∈ indices, (pool.className index).Succeeds := by
  simp only [succeeds_mapM_iff, ← Attribute.readsFirst_exceptions attributes]
  cases Attribute.exceptions? attributes with
  | none => exact ⟨fun _ _ h => (nomatch h), fun _ _ h => absurd h List.not_mem_nil⟩
  | some indices => exact ⟨fun h _ hi => Option.some.inj hi ▸ h, fun h => h indices rfl⟩

theorem ResolvedMethod.of_eq_ok_iff {m : Method} {r : ResolvedMethod} :
    ResolvedMethod.of pool m = .ok r ↔ r.Tells pool m := by
  unfold ResolvedMethod.of resolveSignature Member.exceptions? Member.code?
  simp only [bind_eq_ok_iff, exceptions_eq_ok_iff, lookupOption_eq_ok_iff Attribute.readsFirst_code,
    lookupOption_eq_ok_iff Attribute.readsFirst_signature, ResolvedCode.of_eq_ok_iff,
    Member.resolveId_eq_ok_iff]
  constructor
  · rintro ⟨exceptions, hexceptions, code, hcode, id, hid, signature, hsignature, hr⟩
    cases hr
    exact ⟨rfl, hid, hexceptions, hsignature, hcode, Attribute.isDeprecated_iff⟩
  · intro hr
    obtain ⟨access, id, exceptions, signature, code, deprecated⟩ := r
    obtain ⟨rfl, hid, hexceptions, hsignature, hcode, hdeprecated⟩ := hr
    obtain rfl : Attribute.isDeprecated m.attributes = deprecated :=
      Bool.eq_iff_iff.2 (Attribute.isDeprecated_iff.trans hdeprecated.symm)
    exact ⟨exceptions, hexceptions, code, hcode, id, hid, signature, hsignature, rfl⟩

theorem ResolvedMethod.of_succeeds_iff {m : Method} :
    (ResolvedMethod.of pool m).Succeeds ↔ m.IsResolvableMethod pool := by
  have hparts : (ResolvedMethod.of pool m).Succeeds ↔
      (((Attribute.exceptions? m.attributes).getD []).mapM pool.className).Succeeds ∧
        (lookupOption (ResolvedCode.of pool) (Attribute.code? m.attributes)).Succeeds ∧
          (m.resolveId pool).Succeeds ∧
            (lookupOption pool.text (Attribute.signature? m.attributes)).Succeeds :=
    succeeds_bind_iff fun _ => succeeds_bind_iff fun _ => succeeds_bind_iff fun _ =>
      succeeds_bind_ok_iff fun _ => ⟨_, rfl⟩
  rw [hparts, exceptions_succeeds_iff, lookupOption_succeeds_iff Attribute.readsFirst_code,
    lookupOption_succeeds_iff Attribute.readsFirst_signature, Member.resolveId_succeeds_iff]
  simp only [ResolvedCode.of_succeeds_iff]
  constructor
  · rintro ⟨hexceptions, hcode, hid, hsignature⟩
    exact ⟨hid, hsignature, hexceptions, hcode⟩
  · rintro ⟨hid, hsignature, hexceptions, hcode⟩
    exact ⟨hexceptions, hcode, hid, hsignature⟩

/-! ## 8. Classes -/

namespace ClassFile

variable {c : ClassFile} {r : ResolvedClass}

theorem sourceFile_eq_lookupOption :
    c.sourceFile = lookupOption c.pool.text (Attribute.sourceFile? c.attributes) := by
  unfold sourceFile
  cases Attribute.sourceFile? c.attributes <;> rfl

/-- **A class is resolved to what its indices stand for, and to nothing else.** -/
theorem resolve_eq_ok_iff : c.resolve = .ok r ↔ r.Tells c := by
  unfold resolve resolveSignature
  simp only [bind_eq_ok_iff, mapM_eq_ok_iff, ConstantPool.className?_eq_ok_iff,
    ResolvedField.of_eq_ok_iff, ResolvedMethod.of_eq_ok_iff, sourceFile_eq_lookupOption,
    lookupOption_eq_ok_iff Attribute.readsFirst_signature,
    lookupOption_eq_ok_iff Attribute.readsFirst_sourceFile]
  constructor
  · rintro ⟨superName, hsuper, interfaces, hinterfaces, fields, hfields, methods, hmethods, name,
      hname, signature, hsignature, source, hsource, hr⟩
    cases hr
    exact ⟨rfl, rfl, hname, hsuper, hinterfaces, hsignature, hsource, hfields, hmethods, rfl⟩
  · intro hr
    obtain ⟨version, access, name, superName, interfaces, signature, source, fields, methods,
      pool⟩ := r
    obtain ⟨rfl, rfl, hname, hsuper, hinterfaces, hsignature, hsource, hfields, hmethods, rfl⟩ := hr
    exact ⟨superName, hsuper, interfaces, hinterfaces, fields, hfields, methods, hmethods, name,
      hname, signature, hsignature, source, hsource, rfl⟩

/-- **A class is resolved exactly if all that it refers to is there.** -/
theorem resolve_succeeds_iff : c.resolve.Succeeds ↔ c.IsResolvable := by
  have hparts : c.resolve.Succeeds ↔ (c.pool.className? c.superClass).Succeeds ∧
      (c.interfaces.mapM c.pool.className).Succeeds ∧
        (c.fields.mapM (ResolvedField.of c.pool)).Succeeds ∧
          (c.methods.mapM (ResolvedMethod.of c.pool)).Succeeds ∧
            (c.pool.className c.thisClass).Succeeds ∧
              (lookupOption c.pool.text (Attribute.signature? c.attributes)).Succeeds ∧
                c.sourceFile.Succeeds :=
    succeeds_bind_iff fun _ => succeeds_bind_iff fun _ => succeeds_bind_iff fun _ =>
      succeeds_bind_iff fun _ => succeeds_bind_iff fun _ => succeeds_bind_iff fun _ =>
        succeeds_bind_ok_iff fun _ => ⟨_, rfl⟩
  simp only [hparts, ConstantPool.className?_succeeds_iff, succeeds_mapM_iff,
    ResolvedField.of_succeeds_iff, ResolvedMethod.of_succeeds_iff, sourceFile_eq_lookupOption,
    lookupOption_succeeds_iff Attribute.readsFirst_signature,
    lookupOption_succeeds_iff Attribute.readsFirst_sourceFile]
  constructor
  · rintro ⟨hsuper, hinterfaces, hfields, hmethods, hname, hsignature, hsource⟩
    exact ⟨hname, hsuper, hinterfaces, hsignature, hsource, hfields, hmethods⟩
  · rintro ⟨hname, hsuper, hinterfaces, hsignature, hsource, hfields, hmethods⟩
    exact ⟨hsuper, hinterfaces, hfields, hmethods, hname, hsignature, hsource⟩

/-! ## 9. The same names in display form -/

theorem classDisplayName_of_className {pool : ConstantPool} {index : UInt16} {name : String}
    (h : pool.className index = .ok name) : pool.classDisplayName index = .ok (displayName name) :=
  map_eq_ok_iff.2 ⟨name, h, rfl⟩

theorem superName_of_namesClass {name? : Option String} (h : c.pool.NamesClass c.superClass name?) :
    c.superName = .ok (name?.map displayName) := by
  unfold superName
  cases name? with
  | none => exact if_pos h
  | some name =>
    obtain ⟨hindex, hname⟩ := h
    rw [if_neg hindex, classDisplayName_of_className hname]
    rfl

theorem interfaceNames_of_tells {names : List String}
    (h : List.Forall₂ (fun index name => c.pool.className index = .ok name) c.interfaces names) :
    c.interfaceNames = .ok (names.map displayName) := by
  refine mapM_eq_ok_iff.2 (List.forall₂_map_right_iff.2 (h.imp fun _ _ hname => ?_))
  exact classDisplayName_of_className hname

/-- A class with a field that holds a constant, and a method with an exception, two handlers and a
    local variable whose descriptor has this index. -/
def counter (descriptor : UInt16) : ClassFile where
  magic := classMagic
  minorVersion := 0
  majorVersion := 52
  pool := ⟨#[none, some (.utf8 "pkg/Counter"), some (.classRef 1), some (.utf8 "START"),
    some (.utf8 "I"), some (.long 5), none, some (.utf8 "run"), some (.utf8 "()V")]⟩
  access := ⟨1⟩
  thisClass := 2
  superClass := 2
  interfaces := [2]
  fields := [⟨⟨1⟩, 3, 4, [.constantValue 5, .constantValue 0, .signature 4]⟩]
  methods := [⟨⟨1⟩, 7, 8, [.exceptions [2, 2], .deprecated, .code ⟨1, 1, [0x2a, 0xb1],
    [⟨0, 1, 1, 2⟩, ⟨0, 1, 1, 0⟩],
    [.lineNumberTable [⟨0, 7⟩], .localVariableTable [⟨0, 2, 3, descriptor, 0⟩]]⟩]⟩]
  attributes := [.sourceFile 1]

end ClassFile

end ClassView
