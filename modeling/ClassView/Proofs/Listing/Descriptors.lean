import ClassView.Listing.Basic
import ClassView.Proofs.Descriptor.Grammar

/-!
# What a listing asks of descriptors

A listing asks no more of a descriptor than it has to show. It shows what kind of value a field
holds, and it has a word for no value as well. Of a constructor it shows the parameters, and of any
other method the result too; the method that initialises a class is shown without either. So there
are two ways in which a descriptor outside the grammar can get into a listing. Every other one makes
the listing fail, and the first of them is the one that is reported.

* `IsMethodText`, `HasParameters`: the texts of a whole method, and of its parameters with anything
  behind them;
* `ClassFile.members`, `ClassFile.memberLines_eq`: fields and methods as one row;
* `ClassMember.IsValid`, `ClassMember.IsOverlooked`: a descriptor of the grammar, and one that the
  listing takes although it is none;
* `ClassMember.asked_of_lines`, `ClassMember.lines_eq_error`: what the lines of a member ask;
* **`disassemble_descriptors`**: a listing shows members with valid descriptors and overlooked ones,
  and it fails at the first other one.
-/

namespace ClassView

open Outcome

/-! ## 1. Texts of methods -/

/-- The text is one of a method: the types of parameters between parentheses, and a result. -/
def IsMethodText (text : String) : Prop :=
  ∃ parameters result, (∀ s ∈ parameters, IsFieldText s) ∧ IsResultText result ∧
    text = methodText parameters result

/-- The text starts with the types of parameters between parentheses. -/
def HasParameters (text : String) : Prop :=
  ∃ parameters behind, (∀ s ∈ parameters, IsFieldText s) ∧ text = methodText parameters behind

namespace Descriptor

variable {d : Descriptor}

theorem displayName_succeeds_iff : d.displayName.Succeeds ↔ IsResultText d.text := by
  rw [ResultType.isResultText_iff]
  refine ⟨fun h => ?_, fun h => ?_⟩
  · obtain ⟨shown, hshown⟩ := h
    obtain ⟨r, hwf, htext, _⟩ := displayName_eq_ok_iff.1 hshown
    exact ⟨r, hwf, htext⟩
  · obtain ⟨r, hwf, htext⟩ := h
    exact ⟨r.displayName, displayName_eq_ok_iff.2 ⟨r, hwf, htext, rfl⟩⟩

theorem parameterTypes_succeeds_iff : d.parameterTypes.Succeeds ↔ HasParameters d.text := by
  refine ⟨fun h => ?_, fun h => ?_⟩
  · obtain ⟨types, htypes⟩ := h
    obtain ⟨hwf, behind, htext⟩ := parameterTypes_eq_ok_iff.1 htypes
    exact ⟨_, behind, exists_types.2 ⟨types, hwf, rfl⟩, htext⟩
  · obtain ⟨parameters, behind, hparameters, htext⟩ := h
    obtain ⟨types, hwf, rfl⟩ := exists_types.1 hparameters
    exact ⟨types, parameterTypes_eq_ok_iff.2 ⟨hwf, behind, htext⟩⟩

theorem resultType_succeeds_iff : d.resultType.Succeeds ↔ IsMethodText d.text := by
  refine ⟨fun h => ?_, fun h => ?_⟩
  · obtain ⟨r, hr⟩ := h
    obtain ⟨hwf, types, htypes, htext⟩ := resultType_eq_ok_iff.1 hr
    exact ⟨_, r.text, exists_types.2 ⟨types, htypes, rfl⟩,
      ResultType.isResultText_iff.2 ⟨r, hwf, rfl⟩, htext⟩
  · obtain ⟨parameters, result, hparameters, hresult, htext⟩ := h
    obtain ⟨types, htypes, rfl⟩ := exists_types.1 hparameters
    obtain ⟨r, hwf, rfl⟩ := ResultType.isResultText_iff.1 hresult
    exact ⟨r, resultType_eq_ok_iff.2 ⟨hwf, types, htypes, htext⟩⟩

end Descriptor

/-! ## 2. Members of both kinds -/

/-- A field or a method of a class. -/
inductive ClassMember where
  | field (f : Field)
  | method (m : Method)

namespace ClassMember

/-- The lines of a member. -/
def lines (o : ListingOptions) (c : ClassFile) : ClassMember → Outcome (List String)
  | .field f => fieldLines o c.pool f
  | .method m => methodLines o c m

/-- The descriptor of a member. That of a method is looked up behind its name. -/
def descriptor (c : ClassFile) : ClassMember → Outcome String
  | .field f => f.descriptorIn c.pool
  | .method m => do
    let _ ← m.nameIn c.pool
    m.descriptorIn c.pool

/-- The descriptor of the member is one of the grammar. That of a method that initialises a class
    may be anything. -/
def IsValid (c : ClassFile) : ClassMember → Prop
  | .field f => ∃ d, f.descriptorIn c.pool = .ok d ∧ IsFieldText d
  | .method m => ∃ name, m.nameIn c.pool = .ok name ∧
      (name ≠ "<clinit>" → ∃ d, m.descriptorIn c.pool = .ok d ∧ IsMethodText d)

/-- The descriptor of the member is none of the grammar, but its lines can do with it: it is that of
    a field without a value, or that of a constructor with parameters and no result behind them. -/
def IsOverlooked (c : ClassFile) : ClassMember → Prop
  | .field f => f.descriptorIn c.pool = .ok "V"
  | .method m => m.nameIn c.pool = .ok "<init>" ∧
      ∃ d, m.descriptorIn c.pool = .ok d ∧ HasParameters d ∧ ¬ IsMethodText d

end ClassMember

/-- The members of a class in the order in which they are listed. -/
def ClassFile.members (c : ClassFile) : List ClassMember :=
  c.fields.map .field ++ c.methods.map .method

variable {c : ClassFile} {o : ListingOptions} {m : Method} {name d : String}

theorem ClassFile.memberLines_eq :
    c.memberLines o = [""].intercalate <$> c.members.mapM (ClassMember.lines o c) := by
  unfold ClassFile.memberLines ClassFile.members
  rw [List.mapM_append, List.mapM_map, List.mapM_map, map_bind]
  refine bind_congr fun fields => ?_
  rw [map_bind]
  rfl

/-! ## 3. What the lines of a member ask -/

/-- The lines of a field ask for a type, or for none. -/
theorem fieldLines_asked {f : Field} (h : (fieldLines o c.pool f).Succeeds) :
    ∃ d, f.descriptorIn c.pool = .ok d ∧ IsResultText d := by
  obtain ⟨d, hd, h⟩ := h.of_bind
  obtain ⟨type, htype, _⟩ := h.of_bind
  exact ⟨d, hd, Descriptor.displayName_succeeds_iff.1 ⟨type, htype⟩⟩

theorem fieldLines_eq_error {f : Field} (hd : f.descriptorIn c.pool = .ok d)
    (h : ¬ IsResultText d) : fieldLines o c.pool f = .error (.invalidDescriptor d) := by
  have htype : (Descriptor.mk d).displayName = .error (.invalidDescriptor d) :=
    Descriptor.meaning_eq_error (mt Descriptor.displayName_succeeds_iff.1 h)
  exact bind_eq_error_iff.2 (.inr ⟨d, hd, bind_eq_error_iff.2 (.inl htype)⟩)

/-- The head of a method asks for a result, but not that of a constructor. -/
theorem methodHead_asked (h : (methodHead c name ⟨d⟩).Succeeds) :
    name = "<init>" ∨ IsMethodText d := by
  by_cases hinit : name = "<init>"
  · exact .inl hinit
  · unfold methodHead at h
    rw [if_neg hinit] at h
    obtain ⟨r, hr, _⟩ := h.of_bind
    exact .inr (Descriptor.resultType_succeeds_iff.1 ⟨r, hr⟩)

theorem methodHead_eq_error (hname : name ≠ "<init>") (h : ¬ IsMethodText d) :
    methodHead c name ⟨d⟩ = .error (.invalidDescriptor d) := by
  have hresult : (Descriptor.mk d).resultType = .error (.invalidDescriptor d) :=
    Descriptor.meaning_eq_error (mt Descriptor.resultType_succeeds_iff.1 h)
  unfold methodHead
  rw [if_neg hname]
  exact bind_eq_error_iff.2 (.inl hresult)

/-- The declaration of a method asks for parameters, and its head for a result. -/
theorem methodDeclaration_asked (h : (methodDeclaration c m).Succeeds) :
    ∃ name, m.nameIn c.pool = .ok name ∧ (name ≠ "<clinit>" →
      ∃ d, m.descriptorIn c.pool = .ok d ∧ HasParameters d ∧
        (name = "<init>" ∨ IsMethodText d)) := by
  unfold methodDeclaration at h
  obtain ⟨name, hname, h⟩ := h.of_bind
  refine ⟨name, hname, fun hclinit => ?_⟩
  rw [if_neg hclinit] at h
  obtain ⟨d, hd, h⟩ := h.of_bind
  obtain ⟨types, htypes, h⟩ := h.of_bind
  obtain ⟨head, hhead, _⟩ := h.of_bind
  exact ⟨d, hd, Descriptor.parameterTypes_succeeds_iff.1 ⟨types, htypes⟩,
    methodHead_asked ⟨head, hhead⟩⟩

theorem methodDeclaration_eq_error (hname : m.nameIn c.pool = .ok name)
    (hclinit : name ≠ "<clinit>") (hd : m.descriptorIn c.pool = .ok d)
    (h : HasParameters d → name ≠ "<init>" ∧ ¬ IsMethodText d) :
    methodDeclaration c m = .error (.invalidDescriptor d) := by
  unfold methodDeclaration
  refine bind_eq_error_iff.2 (.inr ⟨name, hname, ?_⟩)
  rw [if_neg hclinit]
  refine bind_eq_error_iff.2 (.inr ⟨d, hd, bind_eq_error_iff.2 ?_⟩)
  by_cases hparameters : HasParameters d
  · obtain ⟨types, htypes⟩ := Descriptor.parameterTypes_succeeds_iff (d := ⟨d⟩).2 hparameters
    obtain ⟨hinit, hresult⟩ := h hparameters
    exact .inr ⟨types, htypes, bind_eq_error_iff.2 (.inl (methodHead_eq_error hinit hresult))⟩
  · exact .inl (Descriptor.meaning_eq_error
      (mt Descriptor.parameterTypes_succeeds_iff.1 hparameters))

/-- **What is shown of a member is valid or overlooked.** -/
theorem ClassMember.asked_of_lines {member : ClassMember} (h : (member.lines o c).Succeeds) :
    member.IsValid c ∨ member.IsOverlooked c := by
  cases member with
  | field f =>
    obtain ⟨d, hd, rfl | htype⟩ := fieldLines_asked h
    · exact .inr hd
    · exact .inl ⟨d, hd, htype⟩
  | method m =>
    obtain ⟨declaration, hdeclaration, _⟩ := h.of_bind
    obtain ⟨name, hname, hasked⟩ := methodDeclaration_asked ⟨declaration, hdeclaration⟩
    by_cases hclinit : name = "<clinit>"
    · exact .inl ⟨name, hname, fun hother => absurd hclinit hother⟩
    · obtain ⟨d, hd, hparameters, hresult⟩ := hasked hclinit
      by_cases hmethod : IsMethodText d
      · exact .inl ⟨name, hname, fun _ => ⟨d, hd, hmethod⟩⟩
      · obtain rfl := hresult.resolve_right hmethod
        exact .inr ⟨hname, d, hd, hparameters, hmethod⟩

/-- **Every other descriptor makes the lines of its member fail, and is what they fail for.** -/
theorem ClassMember.lines_eq_error {member : ClassMember} (hd : member.descriptor c = .ok d)
    (hvalid : ¬ member.IsValid c) (hoverlooked : ¬ member.IsOverlooked c) :
    member.lines o c = .error (.invalidDescriptor d) := by
  cases member with
  | field f =>
    refine fieldLines_eq_error hd fun htype => ?_
    rcases htype with rfl | htype
    · exact hoverlooked hd
    · exact hvalid ⟨d, hd, htype⟩
  | method m =>
    obtain ⟨name, hname, hd⟩ := bind_eq_ok_iff.1 hd
    have hclinit : name ≠ "<clinit>" := fun hclinit =>
      hvalid ⟨name, hname, fun hother => absurd hclinit hother⟩
    have hmethod : ¬ IsMethodText d := fun hmethod =>
      hvalid ⟨name, hname, fun _ => ⟨d, hd, hmethod⟩⟩
    refine bind_eq_error_iff.2 (.inl (methodDeclaration_eq_error hname hclinit hd ?_))
    refine fun hparameters => ⟨fun hinit => ?_, hmethod⟩
    exact hoverlooked ⟨hinit ▸ hname, d, hd, hparameters, hmethod⟩

/-! ## 4. Listings -/

/-- What is in front of a member in a listing has its lines. -/
structure ClassFile.Reaches (c : ClassFile) (o : ListingOptions) (front : List ClassMember) :
    Prop where
  source : (c.sourceLines "Compiled from ").Succeeds
  opening : (c.openingLines o).Succeeds
  members : ∀ member ∈ front, (member.lines o c).Succeeds

theorem ClassFile.members_of_listing (h : (c.listing o).Succeeds) :
    ∀ member ∈ c.members, (member.lines o c).Succeeds := by
  obtain ⟨_, _, h⟩ := h.of_bind
  obtain ⟨_, _, h⟩ := h.of_bind
  obtain ⟨shown, hshown, _⟩ := h.of_bind
  rw [memberLines_eq] at hshown
  exact Succeeds.of_mapM (Succeeds.of_map ⟨shown, hshown⟩)

/-- A listing fails as the first member whose lines do. -/
theorem ClassFile.listing_eq_error {front back : List ClassMember} {member : ClassMember}
    {e : DecodeError} (horder : c.members = front ++ member :: back) (h : c.Reaches o front)
    (hfails : member.lines o c = .error e) : c.listing o = .error e := by
  obtain ⟨source, hsource⟩ := h.source
  obtain ⟨opening, hopening⟩ := h.opening
  have hmembers : c.memberLines o = .error e := by
    rw [memberLines_eq, map_eq_error_iff, mapM_eq_error_iff]
    exact ⟨front, member, back, horder, h.members, hfails⟩
  refine bind_eq_error_iff.2 (.inr ⟨source, hsource, ?_⟩)
  exact bind_eq_error_iff.2 (.inr ⟨opening, hopening, bind_eq_error_iff.2 (.inl hmembers)⟩)

/-- **What a listing asks of descriptors.** Whatever is shown, the text is made only if all members
    have descriptors of the grammar, but for those that are overlooked. Otherwise it is not made,
    and the first member with another descriptor is the one that is reported if nothing in front of
    it fails. -/
theorem disassemble_descriptors {texts : TextReader} {bytes : List UInt8}
    (hparse : ClassFile.parse bytes texts = .ok c) (o : ListingOptions) :
    (∀ text, disassemble o bytes texts = .ok text →
      ∀ member ∈ c.members, member.IsValid c ∨ member.IsOverlooked c) ∧
    ∀ front member back d, c.members = front ++ member :: back → c.Reaches o front →
      member.descriptor c = .ok d → ¬ member.IsValid c → ¬ member.IsOverlooked c →
        disassemble o bytes texts = .error (.invalidDescriptor d) := by
  refine ⟨fun text htext member hmember => ?_,
    fun front member back d horder hreaches hd hvalid hoverlooked => ?_⟩
  · rw [disassemble_of_parse hparse] at htext
    have hlines := ClassFile.members_of_listing (Succeeds.of_map ⟨text, htext⟩) member hmember
    exact ClassMember.asked_of_lines hlines
  · rw [disassemble_of_parse hparse, map_eq_error_iff]
    exact ClassFile.listing_eq_error horder hreaches
      (ClassMember.lines_eq_error hd hvalid hoverlooked)

/-- A class with a field that holds nothing, and a method with a result of no type. The method is a
    constructor, or it has the name of the field. -/
def oddMembers (isConstructor : Bool) : List UInt8 :=
  [0xca, 0xfe, 0xba, 0xbe, 0, 0, 0, 52, 0, 7, 1, 0, 1, 65, 7, 0, 1, 1, 0, 1, 120, 1, 0, 1, 86,
    1, 0, 6, 60, 105, 110, 105, 116, 62, 1, 0, 3, 40, 41, 81, 0, 0, 0, 2, 0, 0, 0, 0,
    0, 1, 0, 0, 0, 3, 0, 4, 0, 0, 0, 1, 0, 0, 0, if isConstructor then 5 else 3, 0, 6, 0, 0, 0, 0]

theorem not_isFieldText_V : ¬ IsFieldText "V" := by
  intro h
  cases h with
  | base known => exact absurd known (by decide)

theorem not_isMethodText_oddResult : ¬ IsMethodText "()Q" := fun h =>
  nomatch (Descriptor.resultType_succeeds_iff (d := ⟨"()Q"⟩).2 h).choose_spec

/-- The field is overlooked in both classes, the method only as a constructor. -/
theorem disassemble_descriptors_oddMembers :
    (∃ c text, ClassFile.parse (oddMembers true) = .ok c ∧
      disassemble .plain (oddMembers true) = .ok text ∧
      ∀ member ∈ c.members, member.IsValid c ∨ member.IsOverlooked c) ∧
    ∃ c, ClassFile.parse (oddMembers false) = .ok c ∧
      disassemble .plain (oddMembers false) = .error (.invalidDescriptor "()Q") := by
  obtain ⟨c, hc⟩ : ∃ c, ClassFile.parse (oddMembers true) = .ok c := ⟨_, rfl⟩
  have hmethod : ClassFile.parse (oddMembers false) = .ok _ := rfl
  refine ⟨⟨c, _, hc, rfl, (disassemble_descriptors hc .plain).1 _ rfl⟩, _, hmethod, ?_⟩
  refine (disassemble_descriptors hmethod .plain).2 [.field _] (.method _) [] "()Q" rfl
    ⟨⟨_, rfl⟩, ⟨_, rfl⟩, List.forall_mem_singleton.2 ⟨_, rfl⟩⟩ rfl ?_ ?_
  · rintro ⟨name, hname, hvalid⟩
    cases hname
    obtain ⟨d, hd, hresult⟩ := hvalid (by decide)
    cases hd
    exact not_isMethodText_oddResult hresult
  · rintro ⟨hname, _⟩
    exact absurd (Except.ok.inj hname) (by decide)

/-- Neither of the two descriptors is one of the grammar, and the class is listed. -/
theorem listing_of_invalid_descriptors : ∃ c, ClassFile.parse (oddMembers true) = .ok c ∧
    disassemble .plain (oddMembers true) = .ok "class A \x7b\n  void x;\n\n  A();\n\x7d\n" ∧
    (∃ f ∈ c.fields, f.descriptorIn c.pool = .ok "V" ∧ ¬ IsFieldText "V") ∧
    ∃ m ∈ c.methods, m.nameIn c.pool = .ok "<init>" ∧ m.descriptorIn c.pool = .ok "()Q" ∧
      ¬ IsMethodText "()Q" := by
  refine ⟨_, rfl, by decide +kernel, ⟨_, List.mem_singleton_self _, rfl, not_isFieldText_V⟩, ?_⟩
  exact ⟨_, List.mem_singleton_self _, rfl, rfl, not_isMethodText_oddResult⟩

end ClassView
