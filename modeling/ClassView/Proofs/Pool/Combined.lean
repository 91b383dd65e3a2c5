import ClassView.Proofs.Pool.References
import Mathlib.Logic.ExistsUnique

/-!
# Look-ups for entries of several kinds

Methods, members and constants can be looked up without saying which kind of entry is expected.
Such a look-up goes by the kind that it finds and does what the look-up for that kind alone would
do. So the two never disagree, neither on a value nor on which fault of several is reported, and
of the look-ups for one kind each at most one has an answer at an index.

* `LoadableKind`, `ConstantPool.constantOf`: the kinds of constants, each with its own look-up;
* `ConstantPool.invocable_eq_memberOf`, `ConstantPool.member_eq_memberOf`,
  `ConstantPool.constant_eq_constantOf`: at an entry of some kind, the look-up for it decides;
* `ConstantPool.member_eq_ok_iff`, `ConstantPool.invocable_eq_ok_iff`,
  `ConstantPool.constant_eq_ok_iff`: what is answered is what one of the kinds answers;
* **`ConstantPool.combined_lookUps`**: the look-ups for several kinds agree with those for one.
-/

namespace ClassView

open Outcome

/-! ## 1. Kinds of constants -/

/-- A kind of constant that an instruction can load. -/
inductive LoadableKind where
  | integer | float | long | double | string | classRef | methodType | methodHandle | dynamic
  deriving DecidableEq, Repr

/-- The tag of the entries of a kind. -/
def LoadableKind.tag : LoadableKind → Tag
  | .integer => .integer
  | .float => .float
  | .long => .long
  | .double => .double
  | .string => .string
  | .classRef => .classRef
  | .methodType => .methodType
  | .methodHandle => .methodHandle
  | .dynamic => .dynamic

theorem LoadableKind.tag_injective {kind kind' : LoadableKind} (h : kind.tag = kind'.tag) :
    kind = kind' := by
  cases kind <;> cases kind' <;> simp [tag] at h ⊢

theorem LoadableKind.exists_of_loadable {tag : Tag} (h : tag ∈ Tag.loadable) :
    ∃ kind : LoadableKind, kind.tag = tag := by
  simp only [Tag.loadable, List.mem_cons, List.not_mem_nil, or_false] at h
  rcases h with rfl | rfl | rfl | rfl | rfl | rfl | rfl | rfl | rfl
  · exact ⟨.integer, rfl⟩
  · exact ⟨.float, rfl⟩
  · exact ⟨.long, rfl⟩
  · exact ⟨.double, rfl⟩
  · exact ⟨.string, rfl⟩
  · exact ⟨.classRef, rfl⟩
  · exact ⟨.methodType, rfl⟩
  · exact ⟨.methodHandle, rfl⟩
  · exact ⟨.dynamic, rfl⟩

/-- The tags of members are those of their kinds. -/
theorem MemberKind.exists_of_member {tag : Tag} (h : tag ∈ Tag.ofMembers) :
    ∃ kind : MemberKind, kind.tag = tag := by
  simp only [Tag.ofMembers, List.mem_cons, List.not_mem_nil, or_false] at h
  rcases h with rfl | rfl | rfl
  · exact ⟨.field, rfl⟩
  · exact ⟨.method, rfl⟩
  · exact ⟨.interfaceMethod, rfl⟩

theorem MemberKind.exists_of_method {tag : Tag} (h : tag ∈ Tag.ofMethods) :
    ∃ kind : MemberKind, kind ≠ .field ∧ kind.tag = tag := by
  rcases List.mem_pair.1 h with rfl | rfl
  · exact ⟨.method, by decide, rfl⟩
  · exact ⟨.interfaceMethod, by decide, rfl⟩

theorem MemberKind.tag_injective {kind kind' : MemberKind} (h : kind.tag = kind'.tag) :
    kind = kind' := by
  cases kind <;> cases kind' <;> simp [tag] at h ⊢

namespace ConstantPool

/-- The constant of one kind at an index, from the look-up for that kind. -/
def constantOf (pool : ConstantPool) (index : UInt16) : LoadableKind → Outcome LoadableConstant
  | .integer => .integer <$> pool.integer index
  | .float => .float <$> pool.float index
  | .long => .long <$> pool.long index
  | .double => .double <$> pool.double index
  | .string => .string <$> pool.string index
  | .classRef => .classRef <$> pool.classDisplayName index
  | .methodType => .methodType <$> pool.methodType index
  | .methodHandle => .methodHandle <$> pool.methodHandle index
  | .dynamic => .dynamic <$> pool.dynamic index

variable {pool : ConstantPool} {index : UInt16} {e : Entry} {m : MemberRef} {c : LoadableConstant}

/-! ## 2. Look-ups for one kind -/

theorem check_constantOf (pool : ConstantPool) (depth : Nat) (index : UInt16)
    (kind : LoadableKind) :
    check (pool.constantOf index kind) = pool.reach (depth + 3) (.toTag index kind.tag) := by
  cases kind with
  | integer => exact (check_map _).trans (pool.check_integer (depth + 3) index)
  | float => exact (check_map _).trans (pool.check_float (depth + 3) index)
  | long => exact (check_map _).trans (pool.check_long (depth + 3) index)
  | double => exact (check_map _).trans (pool.check_double (depth + 3) index)
  | string => exact (check_map _).trans (pool.check_string (depth + 2) index)
  | classRef => exact (check_map _).trans (pool.check_classDisplayName (depth + 2) index)
  | methodType => exact (check_map _).trans (pool.check_methodType (depth + 2) index)
  | methodHandle => exact (check_map _).trans (pool.check_methodHandle depth index)
  | dynamic => exact (check_map _).trans (pool.check_dynamic (depth + 1) index)

/-- A look-up that follows a reference has an answer only at entries that fit there. -/
theorem exists_entry_of_check {α : Type} {look : Outcome α} {depth : Nat} {asked : Tag}
    {tags : List Tag} (hcheck : check look = pool.reach depth ⟨index, asked, tags⟩)
    (h : look.Succeeds) : ∃ e, pool.entry? index = some e ∧ e.tag ∈ tags :=
  admits_of_reach (r := ⟨index, asked, tags⟩) (hcheck ▸ succeeds_check_iff.2 h)

theorem exists_entry_of_memberOf {kind : MemberKind} (h : (pool.memberOf kind index).Succeeds) :
    ∃ e, pool.entry? index = some e ∧ e.tag = kind.tag := by
  obtain ⟨e, he, htag⟩ := exists_entry_of_check (pool.check_memberOf 0 index kind) h
  exact ⟨e, he, List.mem_singleton.1 htag⟩

theorem exists_entry_of_constantOf {kind : LoadableKind}
    (h : (pool.constantOf index kind).Succeeds) :
    ∃ e, pool.entry? index = some e ∧ e.tag = kind.tag := by
  obtain ⟨e, he, htag⟩ := exists_entry_of_check (pool.check_constantOf 0 index kind) h
  exact ⟨e, he, List.mem_singleton.1 htag⟩

/-- Two look-ups for one kind of member do not both have an answer. -/
theorem memberOf_unique {kind kind' : MemberKind} (h : (pool.memberOf kind index).Succeeds)
    (h' : (pool.memberOf kind' index).Succeeds) : kind = kind' := by
  obtain ⟨e, he, htag⟩ := exists_entry_of_memberOf h
  obtain ⟨e', he', htag'⟩ := exists_entry_of_memberOf h'
  cases he.symm.trans he'
  exact MemberKind.tag_injective (htag.symm.trans htag')

/-- Two look-ups for one kind of constant do not both have an answer. -/
theorem constantOf_unique {kind kind' : LoadableKind} (h : (pool.constantOf index kind).Succeeds)
    (h' : (pool.constantOf index kind').Succeeds) : kind = kind' := by
  obtain ⟨e, he, htag⟩ := exists_entry_of_constantOf h
  obtain ⟨e', he', htag'⟩ := exists_entry_of_constantOf h'
  cases he.symm.trans he'
  exact LoadableKind.tag_injective (htag.symm.trans htag')

/-- A member that is found says of which kind it is. -/
theorem kind_of_memberOf {kind : MemberKind} (h : pool.memberOf kind index = .ok m) :
    m.kind = kind := by
  unfold memberOf at h
  obtain ⟨_, _, h⟩ := bind_eq_ok_iff.1 h
  obtain ⟨_, _, h⟩ := bind_eq_ok_iff.1 h
  obtain ⟨_, _, h⟩ := bind_eq_ok_iff.1 h
  cases h
  rfl

/-! ## 3. At an entry of some kind -/

/-- At a method, of a class or of an interface, the look-up for its kind decides. -/
theorem invocable_eq_memberOf {kind : MemberKind} (he : pool.entry? index = some e)
    (htag : e.tag = kind.tag) (hkind : kind ≠ .field) :
    pool.invocable index = pool.memberOf kind index := by
  have hget := get_eq_ok_iff.2 he
  cases kind with
  | field => exact absurd rfl hkind
  | method => exact invocable_of_other hget (htag ▸ by decide)
  | interfaceMethod => exact invocable_of_interfaceMethod hget htag

/-- At a member of any kind, the look-up for its kind decides. -/
theorem member_eq_memberOf {kind : MemberKind} (he : pool.entry? index = some e)
    (htag : e.tag = kind.tag) : pool.member index = pool.memberOf kind index := by
  have hget := get_eq_ok_iff.2 he
  cases kind with
  | field => exact member_of_field hget htag
  | method =>
    rw [member_of_other hget (htag ▸ by decide)]
    exact invocable_eq_memberOf he htag (by decide)
  | interfaceMethod =>
    rw [member_of_other hget (htag ▸ by decide)]
    exact invocable_eq_memberOf he htag (by decide)

/-- At a constant, the look-up for its kind decides, also on what is wrong with it. -/
theorem constant_eq_constantOf {kind : LoadableKind} (he : pool.entry? index = some e)
    (htag : e.tag = kind.tag) : pool.constant index = pool.constantOf index kind := by
  have hget := get_eq_ok_iff.2 he
  unfold constant
  rw [hget]
  cases kind with
  | integer | float | long | double =>
    obtain ⟨value, rfl⟩ := (Entry.tag_eq_iff _ e).1 htag
    simp only [constantOf, integer, float, long, double, typed, hget]
    rfl
  | string | classRef | methodType =>
    obtain ⟨name, rfl⟩ := (Entry.tag_eq_iff _ e).1 htag
    rfl
  | methodHandle | dynamic =>
    obtain ⟨_, _, rfl⟩ := (Entry.tag_eq_iff _ e).1 htag
    rfl

/-- At an entry that cannot be loaded, a string is asked for. -/
theorem constant_of_other (he : pool.entry? index = some e) (htag : e.tag ∉ Tag.loadable) :
    pool.constant index = .error (.tagMismatch index.toNat .string e.tag) := by
  rw [← check_eq_error_iff, pool.check_constant 0 index]
  exact reach_of_mismatch (r := .toConstant index) (get_eq_ok_iff.2 he) htag

/-- A string is the text that its entry refers to. -/
theorem constant_of_string {text : UInt16} (he : pool.entry? index = some (.string text)) :
    pool.constant index = .string <$> pool.text text := by
  have hstring : pool.string index = pool.text text := by
    unfold string typed
    rw [get_eq_ok_iff.2 he]
    rfl
  have htag : (Entry.string text).tag = LoadableKind.string.tag := rfl
  rw [constant_eq_constantOf he htag, constantOf, hstring]

/-! ## 4. What is answered -/

/-- A member is answered exactly if the look-up for its own kind answers it. -/
theorem member_eq_ok_iff : pool.member index = .ok m ↔ pool.memberOf m.kind index = .ok m := by
  constructor
  · intro h
    obtain ⟨e, he, htag⟩ := exists_entry_of_check (pool.check_member 0 index) ⟨m, h⟩
    obtain ⟨kind, hkind⟩ := MemberKind.exists_of_member htag
    rw [member_eq_memberOf he hkind.symm] at h
    exact kind_of_memberOf h ▸ h
  · intro h
    obtain ⟨e, he, htag⟩ := exists_entry_of_memberOf ⟨m, h⟩
    exact (member_eq_memberOf he htag).trans h

/-- A method is answered exactly if it is one of a class or one of an interface. -/
theorem invocable_eq_ok_iff : pool.invocable index = .ok m ↔
    pool.methodRef index = .ok m ∨ pool.interfaceMethodRef index = .ok m := by
  constructor
  · intro h
    obtain ⟨e, he, htag⟩ := exists_entry_of_check (pool.check_invocable 0 index) ⟨m, h⟩
    obtain ⟨kind, hmethod, hkind⟩ := MemberKind.exists_of_method htag
    rw [invocable_eq_memberOf he hkind.symm hmethod] at h
    cases kind with
    | field => exact absurd rfl hmethod
    | method => exact .inl h
    | interfaceMethod => exact .inr h
  · intro h
    rcases h with h | h
    · obtain ⟨e, he, htag⟩ := exists_entry_of_memberOf ⟨m, h⟩
      exact (invocable_eq_memberOf he htag (by decide)).trans h
    · obtain ⟨e, he, htag⟩ := exists_entry_of_memberOf ⟨m, h⟩
      exact (invocable_eq_memberOf he htag (by decide)).trans h

/-- A constant is answered exactly if the look-up for one of the kinds answers it. -/
theorem constant_eq_ok_iff :
    pool.constant index = .ok c ↔ ∃ kind, pool.constantOf index kind = .ok c := by
  constructor
  · intro h
    obtain ⟨e, he, htag⟩ := exists_entry_of_check (pool.check_constant 0 index) ⟨c, h⟩
    obtain ⟨kind, hkind⟩ := LoadableKind.exists_of_loadable htag
    exact ⟨kind, (constant_eq_constantOf he hkind.symm).symm.trans h⟩
  · intro hkind
    obtain ⟨kind, h⟩ := hkind
    obtain ⟨e, he, htag⟩ := exists_entry_of_constantOf ⟨c, h⟩
    exact (constant_eq_constantOf he htag).trans h

theorem constant_succeeds_iff : (pool.constant index).Succeeds ↔
    ∃! kind, (pool.constantOf index kind).Succeeds := by
  constructor
  · intro hsome
    obtain ⟨c, h⟩ := hsome
    obtain ⟨kind, h⟩ := constant_eq_ok_iff.1 h
    exact ⟨kind, ⟨c, h⟩, fun other hother => constantOf_unique hother ⟨c, h⟩⟩
  · intro hone
    obtain ⟨kind, ⟨c, h⟩, _⟩ := hone
    exact ⟨c, constant_eq_ok_iff.2 ⟨kind, h⟩⟩

/-- A class is shown with dots where its name has slashes, and what is wrong with its name is wrong
    with what is shown. -/
theorem classDisplayName_eq_ok_iff {shown : String} : pool.classDisplayName index = .ok shown ↔
    ∃ name, pool.className index = .ok name ∧
      shown.toList = name.toList.map fun c => if c = '/' then '.' else c := by
  unfold classDisplayName
  rw [map_eq_ok_iff]
  refine exists_congr fun name => and_congr_right fun _ => ?_
  rw [← String.toList_inj, displayName, String.toList_map, eq_comm]

/-- **The look-ups for several kinds agree with those for one.** At every index of every pool at
    most one kind of member has an answer, and a member or a method is answered exactly if the
    look-up for its kind answers it. A constant is answered exactly if one kind of constant has an
    answer, which is then the only one, and it is that answer. At an entry of a kind the look-up for
    that kind also decides which fault is reported; at any other entry the fault is that a string
    was asked for. The display name of a class is its name with dots for slashes, with the same
    faults. -/
theorem combined_lookUps (pool : ConstantPool) (index : UInt16) :
    (∀ kind kind', (pool.memberOf kind index).Succeeds → (pool.memberOf kind' index).Succeeds →
      kind = kind') ∧
    (∀ m, pool.member index = .ok m ↔ pool.memberOf m.kind index = .ok m) ∧
    (∀ m, pool.invocable index = .ok m ↔
      pool.methodRef index = .ok m ∨ pool.interfaceMethodRef index = .ok m) ∧
    ((pool.constant index).Succeeds ↔ ∃! kind, (pool.constantOf index kind).Succeeds) ∧
    (∀ c, pool.constant index = .ok c ↔ ∃ kind, pool.constantOf index kind = .ok c) ∧
    (∀ e kind, pool.entry? index = some e → e.tag = LoadableKind.tag kind →
      pool.constant index = pool.constantOf index kind) ∧
    (∀ text, pool.entry? index = some (.string text) →
      pool.constant index = .string <$> pool.text text) ∧
    (∀ e, pool.entry? index = some e → (∀ kind : LoadableKind, e.tag ≠ kind.tag) →
      pool.constant index = .error (.tagMismatch index.toNat .string e.tag)) ∧
    (∀ shown, pool.classDisplayName index = .ok shown ↔
      ∃ name, pool.className index = .ok name ∧
        shown.toList = name.toList.map fun c => if c = '/' then '.' else c) ∧
    ∀ err, pool.classDisplayName index = .error err ↔ pool.className index = .error err := by
  refine ⟨fun _ _ => memberOf_unique, fun _ => member_eq_ok_iff, fun _ => invocable_eq_ok_iff,
    constant_succeeds_iff, fun _ => constant_eq_ok_iff, fun _ _ => constant_eq_constantOf,
    fun _ => constant_of_string, fun e he hother => ?_, fun _ => classDisplayName_eq_ok_iff,
    fun _ => map_eq_error_iff⟩
  refine constant_of_other he fun htag => ?_
  obtain ⟨kind, hkind⟩ := LoadableKind.exists_of_loadable htag
  exact hother kind hkind.symm

/-- A method of an interface of the class `a/B`, a string that refers to that class instead of a
    text, and the class itself. -/
theorem combined_lookUps_method :
    let pool : ConstantPool := ⟨#[none, some (.utf8 "a/B"), some (.classRef 1), some (.string 2),
      some (.nameAndType 1 1), some (.member .interfaceMethod 2 4)]⟩
    let m : MemberRef := ⟨.interfaceMethod, displayName "a/B", "a/B", "a/B"⟩
    pool.member 5 = .ok m ∧ pool.invocable 5 = .ok m ∧ ¬ (pool.memberOf .method 5).Succeeds ∧
    pool.constant 2 = .ok (.classRef (displayName "a/B")) ∧
    pool.constant 3 = .error (.tagMismatch 2 .utf8 .classRef) ∧
    pool.constant 5 = .error (.tagMismatch 5 .string .interfaceMethodRef) := by
  intro pool m
  obtain ⟨hone, hmember, hinvocable, _, _, _, _, hother, _⟩ := combined_lookUps pool 5
  obtain ⟨_, _, _, _, hclass, _⟩ := combined_lookUps pool 2
  obtain ⟨_, _, _, _, _, hstring, _⟩ := combined_lookUps pool 3
  refine ⟨(hmember m).2 rfl, (hinvocable m).2 (.inr rfl), fun hmethod => ?_,
    (hclass _).2 ⟨.classRef, rfl⟩, (hstring _ .string rfl rfl).trans rfl,
    hother _ rfl fun kind => ?_⟩
  · exact nomatch hone .method .interfaceMethod hmethod ⟨m, rfl⟩
  · cases kind <;> decide

end ConstantPool

end ClassView
