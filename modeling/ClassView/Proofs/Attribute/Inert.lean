import ClassView.Listing.Basic
import ClassView.Proofs.Outcome
import ClassView.Resolved.Basic

/-!
# Attributes that make no difference

A listing looks at few of the attributes of a class, and resolving looks at few more: at the first
ones of some kinds, at the rows of the tables, at whether there is a mark of deprecation. Classes
that differ in attributes alone and agree in these have the same listing and resolve to the same.
Attributes that are not recognised are never looked at, nor are the marks of what is synthetic, so
it makes no difference where they stand and how many there are. Only the header of a verbose listing
counts them.

* `CodeOf.SameTables`, `Member.SameBody`, `Member.SameMarks`: what is looked at in the attributes of
  code and of members;
* `ClassFile.Alike`: two classes that differ in attributes alone;
* `listing_eq`, `ClassFile.Alike.resolve_eq`: what is looked at decides;
* `Attribute.bareRow`: attributes without those that are inert, at any depth;
* **`listing_of_alike`**: the listings and the resolved classes of two classes that are alike.
-/

namespace ClassView

open Outcome

/-! ## 1. What is looked at -/

/-- Two bodies of code that differ in attributes alone, and not in the rows of their tables. -/
structure CodeOf.SameTables (a b : Code) : Prop where
  maxStack : a.maxStack = b.maxStack
  maxLocals : a.maxLocals = b.maxLocals
  bytes : a.bytes = b.bytes
  handlers : a.handlers = b.handlers
  lineNumbers : a.lineNumbers = b.lineNumbers
  localVariables : a.localVariables = b.localVariables

namespace Member

variable {kind : AccessKind}

/-- Two members that differ in attributes alone. -/
structure SameHead (a b : Member kind) : Prop where
  access : a.access = b.access
  name : a.name = b.name
  descriptor : a.descriptor = b.descriptor

/-- Two fields that differ in attributes alone, and not in the constant that they start with. -/
structure SameValue (a b : Member kind) : Prop extends SameHead a b where
  constantValue : a.constantValue? = b.constantValue?

/-- Two methods that differ in attributes alone, and not in their exceptions or their code. -/
structure SameBody (a b : Member kind) : Prop extends SameHead a b where
  exceptions : a.exceptions? = b.exceptions?
  code : Option.Rel CodeOf.SameTables a.code? b.code?

/-- Two members with the same signature, that are both marked as deprecated or both not. -/
structure SameMarks (a b : Member kind) : Prop where
  signature : Attribute.signature? a.attributes = Attribute.signature? b.attributes
  deprecated : Attribute.isDeprecated a.attributes = Attribute.isDeprecated b.attributes

end Member

/-- Two classes that differ in attributes alone; the number that they start with is not looked at.
    The arguments say how their fields, their methods and their own attributes are related. -/
structure ClassFile.Alike (field : Field → Field → Prop) (method : Method → Method → Prop)
    (own : List Attribute → List Attribute → Prop) (c d : ClassFile) : Prop where
  minorVersion : c.minorVersion = d.minorVersion
  majorVersion : c.majorVersion = d.majorVersion
  pool : c.pool = d.pool
  access : c.access = d.access
  thisClass : c.thisClass = d.thisClass
  superClass : c.superClass = d.superClass
  interfaces : c.interfaces = d.interfaces
  fields : List.Forall₂ field c.fields d.fields
  methods : List.Forall₂ method c.methods d.methods
  attributes : own c.attributes d.attributes

namespace ClassFile

/-- The classes agree in what a listing looks at that is not verbose. -/
def ListedAlike (c d : ClassFile) : Prop :=
  Alike Member.SameHead Member.SameBody
    (fun as bs => Attribute.sourceFile? as = Attribute.sourceFile? bs) c d

/-- The classes agree in what a verbose listing looks at. -/
def ListedAlikeInDetail (c d : ClassFile) : Prop :=
  Alike Member.SameValue Member.SameBody
    (fun as bs => Attribute.sourceFile? as = Attribute.sourceFile? bs ∧ as.length = bs.length) c d

/-- The classes agree in what resolving looks at. -/
def ResolvedAlike (c d : ClassFile) : Prop :=
  Alike (fun f g => f.SameValue g ∧ f.SameMarks g) (fun m n => m.SameBody n ∧ m.SameMarks n)
    (fun as bs => Attribute.sourceFile? as = Attribute.sourceFile? bs ∧
      Attribute.signature? as = Attribute.signature? bs) c d

end ClassFile

/-! ## 2. Listings of members -/

section Members

variable {pool : ConstantPool} {o : ListingOptions} {f g : Field} {m n : Method} {a b : Code}

theorem fieldLines_eq (h : f.SameHead g)
    (hvalue : o.verbose = true → f.constantValue? = g.constantValue?) :
    fieldLines o pool f = fieldLines o pool g := by
  unfold fieldLines Member.descriptorIn Member.nameIn
  rw [h.descriptor, h.name, h.access]
  by_cases hverbose : o.verbose = true
  · unfold constantValueLines
    rw [hvalue hverbose]
  · simp only [if_neg hverbose]

theorem sizeLine_eq (hm : m.SameHead n) (h : a.SameTables b) :
    sizeLine pool m a = sizeLine pool n b := by
  unfold sizeLine Member.descriptorIn
  rw [hm.descriptor, hm.access, h.maxStack, h.maxLocals]

theorem bodyLines_eq (hm : m.SameHead n) (h : a.SameTables b) :
    bodyLines o pool m a = bodyLines o pool n b := by
  unfold bodyLines
  rw [sizeLine_eq hm h, h.bytes, h.handlers]

theorem debugLines_eq (h : a.SameTables b) : debugLines o pool a = debugLines o pool b := by
  unfold debugLines
  rw [h.lineNumbers, h.localVariables]

theorem methodDetail_eq (h : m.SameHead n) : methodDetail pool m = methodDetail pool n := by
  unfold methodDetail Member.descriptorIn
  rw [h.descriptor, h.access]

variable {c d : ClassFile}

theorem methodDeclaration_eq (hname : c.name = d.name) (hpool : c.pool = d.pool)
    (h : m.SameBody n) : methodDeclaration c m = methodDeclaration d n := by
  unfold methodDeclaration methodHead throwsClause Member.nameIn Member.descriptorIn
  rw [hname, hpool, h.name, h.descriptor, h.access, h.exceptions]

theorem methodLines_eq (hname : c.name = d.name) (hpool : c.pool = d.pool) (h : m.SameBody n) :
    methodLines o c m = methodLines o d n := by
  unfold methodLines
  rw [methodDeclaration_eq hname hpool h, methodDetail_eq h.toSameHead, hpool]
  generalize m.code? = mine, n.code? = other, h.code = hcode
  cases hcode with
  | none => rfl
  | some htables => simp only [bodyLines_eq h.toSameHead htables, debugLines_eq htables]

end Members

/-! ## 3. Listings of classes -/

namespace ClassFile

variable {field : Field → Field → Prop} {method : Method → Method → Prop}
  {own : List Attribute → List Attribute → Prop} {c d : ClassFile} {o : ListingOptions}

theorem Alike.name_eq (h : Alike field method own c d) : c.name = d.name := by
  unfold name
  rw [h.pool, h.thisClass]

theorem Alike.superName_eq (h : Alike field method own c d) : c.superName = d.superName := by
  unfold superName
  rw [h.pool, h.superClass]

theorem Alike.declaration_eq (h : Alike field method own c d) : c.declaration = d.declaration := by
  unfold declaration interfaceNames
  rw [h.name_eq, h.superName_eq, h.pool, h.access, h.interfaces]

theorem Alike.headerLines_eq (h : Alike field method own c d)
    (hcount : c.attributes.length = d.attributes.length) : c.headerLines = d.headerLines := by
  unfold headerLines
  rw [h.name_eq, h.superName_eq, h.minorVersion, h.majorVersion, h.access, h.thisClass,
    h.superClass, h.interfaces, h.fields.length_eq, h.methods.length_eq, hcount]

theorem Alike.openingLines_eq (h : Alike field method own c d)
    (hcount : o.verbose = true → c.attributes.length = d.attributes.length) :
    c.openingLines o = d.openingLines o := by
  unfold openingLines
  rw [h.declaration_eq, h.pool]
  by_cases hverbose : o.verbose = true
  · rw [h.headerLines_eq (hcount hverbose)]
  · simp only [if_neg hverbose]

theorem Alike.sourceFile_eq (h : Alike field method own c d)
    (hsource : Attribute.sourceFile? c.attributes = Attribute.sourceFile? d.attributes) :
    c.sourceFile = d.sourceFile := by
  unfold sourceFile
  rw [hsource, h.pool]

/-- **What a listing looks at decides about it.** A verbose listing also looks at the number of
    attributes of the class and at the constants of its fields. -/
theorem Alike.listing_eq (h : Alike field method own c d)
    (hsource : Attribute.sourceFile? c.attributes = Attribute.sourceFile? d.attributes)
    (hfield : ∀ f g, field f g → f.SameHead g ∧
      (o.verbose = true → f.constantValue? = g.constantValue?))
    (hmethod : ∀ m n, method m n → m.SameBody n)
    (hcount : o.verbose = true → c.attributes.length = d.attributes.length) :
    c.listing o = d.listing o := by
  have hfields : c.fields.mapM (fieldLines o c.pool) = d.fields.mapM (fieldLines o d.pool) := by
    rw [h.pool]
    refine mapM_eq_of_forall₂ (h.fields.imp fun f g hfg => ?_)
    exact fieldLines_eq (hfield f g hfg).1 (hfield f g hfg).2
  have hmethods : c.methods.mapM (methodLines o c) = d.methods.mapM (methodLines o d) :=
    mapM_eq_of_forall₂ (h.methods.imp fun m n hmn =>
      methodLines_eq h.name_eq h.pool (hmethod m n hmn))
  unfold listing sourceLines memberLines
  rw [h.sourceFile_eq hsource, h.openingLines_eq hcount, hfields, hmethods]

theorem ListedAlike.listing_eq (h : c.ListedAlike d) (hplain : o.verbose = false) :
    c.listing o = d.listing o :=
  Alike.listing_eq h h.attributes
    (fun _ _ hfg => ⟨hfg, fun hverbose => absurd (hplain.symm.trans hverbose) Bool.false_ne_true⟩)
    (fun _ _ hmn => hmn) fun hverbose => absurd (hplain.symm.trans hverbose) Bool.false_ne_true

theorem ListedAlikeInDetail.listing_eq (h : c.ListedAlikeInDetail d) : c.listing o = d.listing o :=
  Alike.listing_eq h h.attributes.1 (fun _ _ hfg => ⟨hfg.toSameHead, fun _ => hfg.constantValue⟩)
    (fun _ _ hmn => hmn) fun _ => h.attributes.2

end ClassFile

/-! ## 4. Resolved classes -/

section Resolved

variable {pool : ConstantPool} {a b : Code}

theorem resolveId_eq {kind : AccessKind} {m n : Member kind} (h : m.SameHead n) :
    m.resolveId pool = n.resolveId pool := by
  unfold Member.resolveId Member.nameIn Member.descriptorIn
  rw [h.name, h.descriptor]

theorem resolvedField_eq {f g : Field} (h : f.SameValue g) (hmarks : f.SameMarks g) :
    ResolvedField.of pool f = ResolvedField.of pool g := by
  unfold ResolvedField.of resolveSignature
  rw [h.constantValue, resolveId_eq h.toSameHead, hmarks.signature, hmarks.deprecated, h.access]

theorem resolvedCode_eq (h : a.SameTables b) : ResolvedCode.of pool a = ResolvedCode.of pool b := by
  unfold ResolvedCode.of
  rw [h.handlers, h.localVariables, h.bytes, h.maxStack, h.maxLocals, h.lineNumbers]

theorem resolvedMethod_eq {m n : Method} (h : m.SameBody n) (hmarks : m.SameMarks n) :
    ResolvedMethod.of pool m = ResolvedMethod.of pool n := by
  have hcode : lookupOption (ResolvedCode.of pool) m.code? =
      lookupOption (ResolvedCode.of pool) n.code? := by
    generalize m.code? = mine, n.code? = other, h.code = hcode
    cases hcode with
    | none => rfl
    | some htables => exact congrArg (some <$> ·) (resolvedCode_eq htables)
  unfold ResolvedMethod.of resolveSignature
  rw [h.exceptions, hcode, resolveId_eq h.toSameHead, hmarks.signature, hmarks.deprecated, h.access]

/-- **What resolving looks at decides about the resolved class.** -/
theorem ClassFile.ResolvedAlike.resolve_eq {c d : ClassFile} (h : c.ResolvedAlike d) :
    c.resolve = d.resolve := by
  have hfields : c.fields.mapM (ResolvedField.of d.pool) =
      d.fields.mapM (ResolvedField.of d.pool) :=
    mapM_eq_of_forall₂ (h.fields.imp fun _ _ hfg => resolvedField_eq hfg.1 hfg.2)
  have hmethods : c.methods.mapM (ResolvedMethod.of d.pool) =
      d.methods.mapM (ResolvedMethod.of d.pool) :=
    mapM_eq_of_forall₂ (h.methods.imp fun _ _ hmn => resolvedMethod_eq hmn.1 hmn.2)
  unfold ClassFile.resolve resolveSignature
  rw [h.sourceFile_eq h.attributes.1, h.pool, hfields, hmethods, h.attributes.2, h.superClass,
    h.interfaces, h.thisClass, h.majorVersion, h.minorVersion, h.access]

end Resolved

/-! ## 5. Inert attributes -/

namespace Attribute

/-- An attribute that is not recognised, or a mark of what is synthetic. -/
def isInert : Attribute → Bool
  | .synthetic | .unknown _ _ => true
  | _ => false

mutual

/-- The attribute without the inert ones that it carries, at any depth. -/
def bare : Attribute → Attribute
  | .code body => .code (bareCode body)
  | a => a

/-- The code without the inert attributes that it carries, at any depth. -/
def bareCode : CodeOf Attribute → CodeOf Attribute
  | ⟨maxStack, maxLocals, bytes, handlers, attributes⟩ =>
    ⟨maxStack, maxLocals, bytes, handlers, bareRow attributes⟩

/-- The attributes that are not inert, themselves without inert ones. -/
def bareRow : List Attribute → List Attribute
  | [] => []
  | a :: as => if a.isInert then bareRow as else bare a :: bareRow as

end

/-- What is so of the two kinds of inert attributes is so of every inert attribute. -/
theorem eq_of_isInert {β : Type} {look : Attribute → β} {b : β} {a : Attribute}
    (hsynthetic : look .synthetic = b) (hunknown : ∀ name body, look (.unknown name body) = b)
    (h : a.isInert = true) : look a = b := by
  cases a with
  | synthetic => exact hsynthetic
  | unknown name body => exact hunknown name body
  | _ => exact nomatch h

section Readers

variable {α : Type}

/-- A reader that takes the first of some attributes finds the same one without the inert ones. -/
theorem findSome?_bareRow {pick : Attribute → Option α} (strip : α → α)
    (hsynthetic : pick .synthetic = none) (hunknown : ∀ name body, pick (.unknown name body) = none)
    (hbare : ∀ a, pick a.bare = (pick a).map strip) (as : List Attribute) :
    (bareRow as).findSome? pick = (as.findSome? pick).map strip := by
  induction as with
  | nil => rfl
  | cons a as ih =>
    rw [bareRow, List.findSome?_cons]
    by_cases h : a.isInert = true
    · rw [if_pos h, eq_of_isInert hsynthetic hunknown h, ih]
    · rw [if_neg h, List.findSome?_cons, hbare, ih]
      cases pick a <;> rfl

theorem findSome?_bareRow_eq {pick : Attribute → Option α} (hsynthetic : pick .synthetic = none)
    (hunknown : ∀ name body, pick (.unknown name body) = none) (hbare : ∀ a, pick a.bare = pick a)
    (as : List Attribute) : (bareRow as).findSome? pick = as.findSome? pick := by
  have hid : ∀ a, pick a.bare = (pick a).map id := fun a => (hbare a).trans (id_map (pick a)).symm
  exact (findSome?_bareRow id hsynthetic hunknown hid as).trans (id_map (as.findSome? pick))

/-- A reader that takes the rows of some attributes finds the same rows without the inert ones. -/
theorem flatMap_bareRow {pick : Attribute → List α} (hsynthetic : pick .synthetic = [])
    (hunknown : ∀ name body, pick (.unknown name body) = []) (hbare : ∀ a, pick a.bare = pick a)
    (as : List Attribute) : (bareRow as).flatMap pick = as.flatMap pick := by
  induction as with
  | nil => rfl
  | cons a as ih =>
    rw [bareRow, List.flatMap_cons]
    by_cases h : a.isInert = true
    · rw [if_pos h, eq_of_isInert hsynthetic hunknown h, ih, List.nil_append]
    · rw [if_neg h, List.flatMap_cons, hbare, ih]

/-- A reader that asks for some attribute gets the same answer without the inert ones. -/
theorem any_bareRow {p : Attribute → Bool} (hsynthetic : p .synthetic = false)
    (hunknown : ∀ name body, p (.unknown name body) = false) (hbare : ∀ a, p a.bare = p a)
    (as : List Attribute) : (bareRow as).any p = as.any p := by
  induction as with
  | nil => rfl
  | cons a as ih =>
    rw [bareRow, List.any_cons]
    by_cases h : a.isInert = true
    · rw [if_pos h, eq_of_isInert hsynthetic hunknown h, ih, Bool.false_or]
    · rw [if_neg h, List.any_cons, hbare, ih]

end Readers

variable (as : List Attribute)

theorem code?_bareRow : code? (bareRow as) = (code? as).map bareCode := by
  refine findSome?_bareRow bareCode rfl (fun _ _ => rfl) (fun a => ?_) as
  cases a <;> rfl

theorem constantValue?_bareRow : constantValue? (bareRow as) = constantValue? as := by
  refine findSome?_bareRow_eq rfl (fun _ _ => rfl) (fun a => ?_) as
  cases a <;> rfl

theorem exceptions?_bareRow : exceptions? (bareRow as) = exceptions? as := by
  refine findSome?_bareRow_eq rfl (fun _ _ => rfl) (fun a => ?_) as
  cases a <;> rfl

theorem sourceFile?_bareRow : sourceFile? (bareRow as) = sourceFile? as := by
  refine findSome?_bareRow_eq rfl (fun _ _ => rfl) (fun a => ?_) as
  cases a <;> rfl

theorem signature?_bareRow : signature? (bareRow as) = signature? as := by
  refine findSome?_bareRow_eq rfl (fun _ _ => rfl) (fun a => ?_) as
  cases a <;> rfl

theorem lineNumbers_bareRow : lineNumbers (bareRow as) = lineNumbers as := by
  refine flatMap_bareRow rfl (fun _ _ => rfl) (fun a => ?_) as
  cases a <;> rfl

theorem localVariables_bareRow : localVariables (bareRow as) = localVariables as := by
  refine flatMap_bareRow rfl (fun _ _ => rfl) (fun a => ?_) as
  cases a <;> rfl

theorem isDeprecated_bareRow : isDeprecated (bareRow as) = isDeprecated as := by
  refine any_bareRow rfl (fun _ _ => rfl) (fun a => ?_) as
  cases a <;> rfl

theorem sameTables_bareCode (body : Code) : body.SameTables (bareCode body) := by
  obtain ⟨maxStack, maxLocals, bytes, handlers, attributes⟩ := body
  exact ⟨rfl, rfl, rfl, rfl, (lineNumbers_bareRow attributes).symm,
    (localVariables_bareRow attributes).symm⟩

end Attribute

/-- The member without inert attributes. -/
def Member.bare {kind : AccessKind} (m : Member kind) : Member kind :=
  { m with attributes := Attribute.bareRow m.attributes }

/-- The class without inert attributes, anywhere. -/
def ClassFile.bare (c : ClassFile) : ClassFile :=
  { c with
    fields := c.fields.map Member.bare
    methods := c.methods.map Member.bare
    attributes := Attribute.bareRow c.attributes }

section Bare

variable {kind : AccessKind} (m : Member kind)

theorem Member.sameValue_bare : m.SameValue m.bare :=
  ⟨⟨rfl, rfl, rfl⟩, (Attribute.constantValue?_bareRow m.attributes).symm⟩

theorem Member.sameBody_bare : m.SameBody m.bare := by
  refine ⟨⟨rfl, rfl, rfl⟩, (Attribute.exceptions?_bareRow m.attributes).symm, ?_⟩
  have hcode : m.bare.code? = m.code?.map Attribute.bareCode := Attribute.code?_bareRow m.attributes
  rw [hcode]
  cases m.code? with
  | none => exact .none
  | some body => exact .some (Attribute.sameTables_bareCode body)

theorem Member.sameMarks_bare : m.SameMarks m.bare :=
  ⟨(Attribute.signature?_bareRow m.attributes).symm,
    (Attribute.isDeprecated_bareRow m.attributes).symm⟩

/-- A class and what is left of it without inert attributes resolve to the same. -/
theorem ClassFile.resolvedAlike_bare (c : ClassFile) : c.ResolvedAlike c.bare where
  minorVersion := rfl
  majorVersion := rfl
  pool := rfl
  access := rfl
  thisClass := rfl
  superClass := rfl
  interfaces := rfl
  fields := List.forall₂_map_right_iff.2 (List.forall₂_same.2 fun f _ =>
    ⟨f.sameValue_bare, f.sameMarks_bare⟩)
  methods := List.forall₂_map_right_iff.2 (List.forall₂_same.2 fun m _ =>
    ⟨m.sameBody_bare, m.sameMarks_bare⟩)
  attributes := ⟨(Attribute.sourceFile?_bareRow c.attributes).symm,
    (Attribute.signature?_bareRow c.attributes).symm⟩

end Bare

/-! ## 6. Classes that differ in nothing that counts -/

theorem ClassFile.ResolvedAlike.listedAlike {c d : ClassFile} (h : c.ResolvedAlike d) :
    c.ListedAlike d :=
  { h with
    fields := h.fields.imp fun _ _ hfg => hfg.1.toSameHead
    methods := h.methods.imp fun _ _ hmn => hmn.1
    attributes := h.attributes.1 }

/-- **What no one looks at makes no difference.** Two classes that differ in attributes alone, and
    agree in those that are looked at, have the same listing, or none for the same reason, and
    resolve to the same, or fail for the same reason. Attributes that are not recognised and marks
    of what is synthetic may be put in, taken out and moved anywhere: a listing that is not verbose
    and the resolved class stay as they are. -/
theorem listing_of_alike (c d : ClassFile) :
    (c.ListedAlike d → ∀ o, o.verbose = false → c.listing o = d.listing o) ∧
    (c.ListedAlikeInDetail d → ∀ o, c.listing o = d.listing o) ∧
    (c.ResolvedAlike d → c.resolve = d.resolve) ∧
    (c.bare = d.bare →
      (∀ o, o.verbose = false → c.listing o = d.listing o) ∧ c.resolve = d.resolve) := by
  refine ⟨fun h o hplain => h.listing_eq hplain, fun h o => h.listing_eq, fun h => h.resolve_eq,
    fun h => ⟨fun o hplain => ?_, ?_⟩⟩
  · calc c.listing o = c.bare.listing o := c.resolvedAlike_bare.listedAlike.listing_eq hplain
      _ = d.bare.listing o := by rw [h]
      _ = d.listing o := (d.resolvedAlike_bare.listedAlike.listing_eq hplain).symm
  · calc c.resolve = c.bare.resolve := c.resolvedAlike_bare.resolve_eq
      _ = d.bare.resolve := by rw [h]
      _ = d.resolve := d.resolvedAlike_bare.resolve_eq.symm

/-- A class with one method, that has these attributes, and these of its own. -/
def oneMethod (ofMethod ofClass : List Attribute) : ClassFile where
  magic := classMagic
  minorVersion := 0
  majorVersion := 52
  pool := ⟨#[none, some (.utf8 "A"), some (.classRef 1), some (.utf8 "run"), some (.utf8 "()V")]⟩
  access := ⟨1⟩
  thisClass := 2
  superClass := 0
  interfaces := []
  fields := []
  methods := [⟨⟨1⟩, 3, 4, ofMethod⟩]
  attributes := ofClass

/-- Code that returns at once. -/
def returning (attributes : List Attribute) : Attribute := .code ⟨0, 1, [0xb1], [], attributes⟩

/-- A class with no inert attribute but a mark of its own. -/
def needed : ClassFile := oneMethod [returning [.lineNumberTable [⟨0, 7⟩]]] [.synthetic]

/-- The same with inert attributes on all levels. -/
def noted : ClassFile :=
  oneMethod [.synthetic, returning [.unknown 3 [1], .lineNumberTable [⟨0, 7⟩]], .unknown 4 []] []

/-- The same with a table in two parts and a second body of code. -/
def repeated (ofClass : List Attribute) : ClassFile :=
  oneMethod [returning [.lineNumberTable [], .lineNumberTable [⟨0, 7⟩]], returning []] ofClass

theorem listing_of_alike_needed : (needed.listing .plain).Succeeds ∧
    (noted.listing .plain = needed.listing .plain ∧ noted.resolve = needed.resolve) ∧
    (repeated []).listing .plain = needed.listing .plain ∧
    (∀ o, (repeated [.unknown 3 []]).listing o = needed.listing o) ∧
    (repeated []).resolve = needed.resolve := by
  have hbody : Member.SameBody (⟨⟨1⟩, 3, 4, [returning [.lineNumberTable [],
      .lineNumberTable [⟨0, 7⟩]], returning []]⟩ : Method)
      ⟨⟨1⟩, 3, 4, [returning [.lineNumberTable [⟨0, 7⟩]]]⟩ :=
    ⟨⟨rfl, rfl, rfl⟩, rfl, .some ⟨rfl, rfl, rfl, rfl, rfl, rfl⟩⟩
  have hlisted : (repeated []).ListedAlike needed :=
    ⟨rfl, rfl, rfl, rfl, rfl, rfl, rfl, .nil, .cons hbody .nil, rfl⟩
  have hdetail : (repeated [.unknown 3 []]).ListedAlikeInDetail needed :=
    ⟨rfl, rfl, rfl, rfl, rfl, rfl, rfl, .nil, .cons hbody .nil, rfl, rfl⟩
  have hresolved : (repeated []).ResolvedAlike needed :=
    ⟨rfl, rfl, rfl, rfl, rfl, rfl, rfl, .nil, .cons ⟨hbody, rfl, rfl⟩ .nil, rfl, rfl⟩
  obtain ⟨hlisting, hresolve⟩ := (listing_of_alike noted needed).2.2.2 rfl
  refine ⟨by decide +kernel, ⟨hlisting .plain rfl, hresolve⟩, ?_, ?_, ?_⟩
  · exact (listing_of_alike (repeated []) needed).1 hlisted .plain rfl
  · exact (listing_of_alike (repeated [.unknown 3 []]) needed).2.1 hdetail
  · exact (listing_of_alike (repeated []) needed).2.2.1 hresolved

end ClassView
