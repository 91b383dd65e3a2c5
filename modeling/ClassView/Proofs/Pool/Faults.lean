import ClassView.Proofs.Pool.References

/-!
# The fault that a look-up reports

A look-up follows the references of one entry after the other, each to its end before the next one.
If it fails, then for the first of them that leads to no entry or to one that does not fit, and the
fault says which slot that is and what stands there. If every entry on the way fits, the look-up has
an answer. Pools with dangling references and with references in a circle are no exception: the tags
that fit behind an entry have shorter ways than its own.

* `Tag.depth`, `Entry.isBelow_of_mem`: how many references can follow one another;
* `ConstantPool.Holds`, `ConstantPool.FirstFault`: a reference with nothing wrong on its way, and
  the first fault on the way of another;
* `ConstantPool.Finds`, **`ConstantPool.reach_finds`**: following a reference far enough finds just
  that fault;
* `ConstantPool.Leads`, `ConstantPool.Blames`, **`ConstantPool.FirstFault.exists_leads`**: that
  fault is one of a slot on the way, and it says what is wrong there;
* `LookUp`, `LookUp.ask_eq_reach`: the look-ups of a pool by name, each with the reference that it
  follows;
* **`LookUp.ask_faults`**: what a look-up reports is true, and it is the first fault on its way.
-/

namespace ClassView

open Outcome

/-! ## 1. How far references go -/

/-- How many references can follow one another from an entry with the tag. -/
def Tag.depth : Tag → Nat
  | .utf8 | .integer | .float | .long | .double => 0
  | .classRef | .string | .nameAndType | .methodType | .moduleRef | .packageRef => 1
  | .fieldRef | .methodRef | .interfaceMethodRef | .dynamic | .invokeDynamic => 2
  | .methodHandle => 3

/-- The reference asks for a tag that fits, and fewer than `n` references follow one another from
    the entries that do. -/
structure Reference.IsBelow (r : Reference) (n : Nat) : Prop where
  asked_mem : r.asked ∈ r.admitted
  depth_lt : ∀ tag ∈ r.admitted, tag.depth < n

namespace Reference

variable {n : Nat} {r : Reference}

theorem IsBelow.mono {m : Nat} (h : r.IsBelow m) (hle : m ≤ n) : r.IsBelow n :=
  ⟨h.asked_mem, fun tag htag => Nat.lt_of_lt_of_le (h.depth_lt tag htag) hle⟩

theorem toTag_isBelow {index : UInt16} {tag : Tag} (h : tag.depth < n) :
    (toTag index tag).IsBelow n :=
  ⟨List.mem_singleton_self tag, List.forall_mem_singleton.2 h⟩

theorem toInvocable_isBelow (index : UInt16) : (toInvocable index).IsBelow 3 :=
  ⟨(by decide : Tag.methodRef ∈ Tag.ofMethods), (by decide : ∀ tag ∈ Tag.ofMethods, tag.depth < 3)⟩

theorem toMember_isBelow (index : UInt16) : (toMember index).IsBelow 3 :=
  ⟨(by decide : Tag.methodRef ∈ Tag.ofMembers), (by decide : ∀ tag ∈ Tag.ofMembers, tag.depth < 3)⟩

theorem toConstant_isBelow (index : UInt16) : (toConstant index).IsBelow 4 :=
  ⟨(by decide : Tag.string ∈ Tag.loadable), (by decide : ∀ tag ∈ Tag.loadable, tag.depth < 4)⟩

end Reference

/-- **The ways behind an entry are shorter than its own.** -/
theorem Entry.isBelow_of_mem {e : Entry} {r : Reference} (hr : r ∈ e.references) :
    r.IsBelow e.tag.depth := by
  have h : ∀ r ∈ e.references, r.IsBelow e.tag.depth := by
    cases e with
    | utf8 | integer | float | long | double => exact List.forall_mem_nil _
    | classRef | string | methodType | moduleRef | packageRef =>
      exact List.forall_mem_singleton.2 (Reference.toTag_isBelow Nat.zero_lt_one)
    | nameAndType =>
      have hname : ∀ index, (Reference.toTag index .utf8).IsBelow 1 := fun index =>
        Reference.toTag_isBelow Nat.zero_lt_one
      exact List.forall_mem_cons.2 ⟨hname _, List.forall_mem_singleton.2 (hname _)⟩
    | member kind =>
      have hkind : kind.tag.depth = 2 := by cases kind <;> rfl
      have hpart : ∀ {index tag}, tag.depth = 1 →
          (Reference.toTag index tag).IsBelow kind.tag.depth := fun h =>
        Reference.toTag_isBelow (by omega)
      exact List.forall_mem_cons.2 ⟨hpart rfl, List.forall_mem_singleton.2 (hpart rfl)⟩
    | methodHandle =>
      exact List.forall_mem_singleton.2 (Reference.toMember_isBelow _)
    | dynamic | invokeDynamic =>
      exact List.forall_mem_singleton.2 (Reference.toTag_isBelow Nat.one_lt_two)
  exact h r hr

namespace ConstantPool

variable {pool : ConstantPool} {index : UInt16} {r : Reference} {target : Entry} {e : DecodeError}
  {depth : Nat}

/-! ## 2. The first fault on the way -/

/-- The reference leads to an entry that fits, and so do all references on the way from there. -/
inductive Holds (pool : ConstantPool) : Reference → Prop
  | fits {r : Reference} {target : Entry} (found : pool.entry? r.index = some target)
      (fits : target.tag ∈ r.admitted) (behind : ∀ next ∈ target.references, Holds pool next) :
      Holds pool r

/-- The first fault on the way of a reference: there is no entry, or it does not fit, or it fits and
    the fault is that of one of its references, all in front of which hold. -/
inductive FirstFault (pool : ConstantPool) : Reference → DecodeError → Prop
  | missing {r : Reference} (found : pool.entry? r.index = none) :
      FirstFault pool r (.indexOutOfRange r.index.toNat)
  | mismatch {r : Reference} {target : Entry} (found : pool.entry? r.index = some target)
      (fits : target.tag ∉ r.admitted) :
      FirstFault pool r (.tagMismatch r.index.toNat r.asked target.tag)
  | behind {r : Reference} {target : Entry} {e : DecodeError} {front back : List Reference}
      {next : Reference} (found : pool.entry? r.index = some target)
      (fits : target.tag ∈ r.admitted) (order : target.references = front ++ next :: back)
      (front : ∀ b ∈ front, Holds pool b) (fault : FirstFault pool next e) : FirstFault pool r e

theorem not_holds_of_missing (h : pool.entry? r.index = none) : ¬ pool.Holds r := by
  intro hr
  cases hr with
  | fits found => exact nomatch h.symm.trans found

theorem not_holds_of_mismatch (h : pool.entry? r.index = some target)
    (htag : target.tag ∉ r.admitted) : ¬ pool.Holds r := by
  intro hr
  cases hr with
  | fits found fits =>
    cases h.symm.trans found
    exact htag fits

theorem holds_iff_of_admitted (h : pool.entry? r.index = some target)
    (htag : target.tag ∈ r.admitted) :
    pool.Holds r ↔ ∀ next ∈ target.references, pool.Holds next := by
  refine ⟨fun hr => ?_, fun hbehind => .fits h htag hbehind⟩
  cases hr with
  | fits found _ behind =>
    cases h.symm.trans found
    exact behind

theorem firstFault_iff_of_missing (h : pool.entry? r.index = none) :
    pool.FirstFault r e ↔ e = .indexOutOfRange r.index.toNat := by
  refine ⟨fun hr => ?_, fun he => he ▸ .missing h⟩
  cases hr with
  | missing => rfl
  | mismatch found => exact nomatch h.symm.trans found
  | behind found => exact nomatch h.symm.trans found

theorem firstFault_iff_of_mismatch (h : pool.entry? r.index = some target)
    (htag : target.tag ∉ r.admitted) :
    pool.FirstFault r e ↔ e = .tagMismatch r.index.toNat r.asked target.tag := by
  refine ⟨fun hr => ?_, fun he => he ▸ .mismatch h htag⟩
  cases hr with
  | missing found => exact nomatch h.symm.trans found
  | mismatch found =>
    cases h.symm.trans found
    rfl
  | behind found fits =>
    cases h.symm.trans found
    exact absurd fits htag

theorem firstFault_iff_of_admitted (h : pool.entry? r.index = some target)
    (htag : target.tag ∈ r.admitted) :
    pool.FirstFault r e ↔ ∃ front next back, target.references = front ++ next :: back ∧
      (∀ b ∈ front, pool.Holds b) ∧ pool.FirstFault next e := by
  refine ⟨fun hr => ?_, fun hbehind => ?_⟩
  · cases hr with
    | missing found => exact nomatch h.symm.trans found
    | mismatch found fits =>
      cases h.symm.trans found
      exact absurd htag fits
    | behind found fits order front fault =>
      cases h.symm.trans found
      exact ⟨_, _, _, order, front, fault⟩
  · obtain ⟨front, next, back, horder, hfront, hfault⟩ := hbehind
    exact .behind h htag horder hfront hfault

/-- What following a reference finds is whether it holds, and its first fault. -/
structure Finds (pool : ConstantPool) (r : Reference) (found : Outcome Unit) : Prop where
  succeeds_iff : found.Succeeds ↔ pool.Holds r
  error_iff : ∀ e, found = .error e ↔ pool.FirstFault r e

theorem finds_of_missing {err : DecodeError} (h : pool.get r.index = .error err) :
    pool.Finds r (pool.reach depth r) := by
  obtain ⟨hfound, rfl⟩ := get_eq_error_iff.1 h
  rw [reach_of_missing h]
  refine ⟨iff_of_false (fun hok => nomatch hok.choose_spec) (not_holds_of_missing hfound),
    fun e => ?_⟩
  rw [firstFault_iff_of_missing hfound, Except.error.injEq, eq_comm]

theorem finds_of_mismatch (h : pool.get r.index = .ok target) (htag : target.tag ∉ r.admitted) :
    pool.Finds r (pool.reach depth r) := by
  have hfound := get_eq_ok_iff.1 h
  rw [reach_of_mismatch h htag]
  refine ⟨iff_of_false (fun hok => nomatch hok.choose_spec) (not_holds_of_mismatch hfound htag),
    fun e => ?_⟩
  rw [firstFault_iff_of_mismatch hfound htag, Except.error.injEq, eq_comm]

/-- Where nothing is referred to, nothing is wrong. -/
theorem finds_of_leaf (h : pool.get r.index = .ok target) (htag : target.tag ∈ r.admitted)
    (hleaf : target.references = []) : pool.Finds r (pool.reach depth r) := by
  have hfound := get_eq_ok_iff.1 h
  rw [reach_of_leaf h htag hleaf]
  refine ⟨iff_of_true ⟨(), rfl⟩ ((holds_iff_of_admitted hfound htag).2 ?_), fun e => ?_⟩
  · exact hleaf ▸ List.forall_mem_nil _
  · rw [firstFault_iff_of_admitted hfound htag, hleaf]
    simp

/-- The references of an entry are followed one after the other up to the first that fails. -/
theorem finds_of_admitted (h : pool.get r.index = .ok target) (htag : target.tag ∈ r.admitted)
    (hbehind : ∀ next ∈ target.references, pool.Finds next (pool.reach depth next)) :
    pool.Finds r (pool.reach (depth + 1) r) := by
  have hfound := get_eq_ok_iff.1 h
  rw [reach_of_admitted h htag]
  refine ⟨?_, fun e => ?_⟩
  · rw [holds_iff_of_admitted hfound htag]
    exact succeeds_forM_iff.trans
      (forall₂_congr fun next hnext => (hbehind next hnext).succeeds_iff)
  · rw [firstFault_iff_of_admitted hfound htag]
    refine forM_eq_error_iff.trans (exists_congr fun front => exists_congr fun next =>
      exists_congr fun back => and_congr_right fun horder => ?_)
    have hparts := List.forall_mem_append.1 (horder ▸ hbehind)
    refine and_congr (forall₂_congr fun b hb => (hparts.1 b hb).succeeds_iff) ?_
    exact (hparts.2 next List.mem_cons_self).error_iff e

variable (pool) in
/-- **Following a reference far enough finds its first fault.** It succeeds exactly if the reference
    holds. The induction is on the depth, which covers the ways behind all entries that fit. -/
theorem reach_finds (hbelow : r.IsBelow (depth + 1)) : pool.Finds r (pool.reach depth r) := by
  induction depth generalizing r with
  | zero =>
    cases hget : pool.get r.index with
    | error err => exact finds_of_missing hget
    | ok target =>
      by_cases htag : target.tag ∈ r.admitted
      · -- no entry that fits refers to anything
        refine finds_of_leaf hget htag (List.eq_nil_iff_forall_not_mem.2 fun next hnext => ?_)
        have hnone := Entry.isBelow_of_mem hnext
        have hfits := hnone.depth_lt _ hnone.asked_mem
        have hdepth := hbelow.depth_lt _ htag
        omega
      · exact finds_of_mismatch hget htag
  | succ depth ih =>
    cases hget : pool.get r.index with
    | error err => exact finds_of_missing hget
    | ok target =>
      by_cases htag : target.tag ∈ r.admitted
      · refine finds_of_admitted hget htag fun next hnext => ih ?_
        exact (Entry.isBelow_of_mem hnext).mono (Nat.le_of_lt_succ (hbelow.depth_lt _ htag))
      · exact finds_of_mismatch hget htag

/-! ## 3. Slots on the way -/

/-- The second reference is the first one, or it is on the way behind an entry that fits there. -/
inductive Leads (pool : ConstantPool) : Reference → Reference → Prop
  | here (r : Reference) : Leads pool r r
  | behind {r next last : Reference} {target : Entry} (found : pool.entry? r.index = some target)
      (fits : target.tag ∈ r.admitted) (mem : next ∈ target.references)
      (way : Leads pool next last) : Leads pool r last

/-- The fault says what is wrong with the slot of a reference: there is no entry, or there is one,
    and it has another tag than the one asked for. -/
inductive Blames (pool : ConstantPool) (r : Reference) : DecodeError → Prop
  | missing (found : pool.entry? r.index = none) : Blames pool r (.indexOutOfRange r.index.toNat)
  | mismatch {target : Entry} (found : pool.entry? r.index = some target)
      (other : target.tag ≠ r.asked) :
      Blames pool r (.tagMismatch r.index.toNat r.asked target.tag)

/-- **The first fault on the way is one of a slot on the way.** -/
theorem FirstFault.exists_leads (h : pool.FirstFault r e) (hasked : r.asked ∈ r.admitted) :
    ∃ last, pool.Leads r last ∧ pool.Blames last e := by
  induction h with
  | missing found => exact ⟨_, .here _, .missing found⟩
  | mismatch found fits =>
    exact ⟨_, .here _, .mismatch found fun htag => fits (htag ▸ hasked)⟩
  | behind found fits order _ _ ih =>
    have hmem := order ▸ List.mem_append_right _ List.mem_cons_self
    obtain ⟨last, hway, hblames⟩ := ih (Entry.isBelow_of_mem hmem).asked_mem
    exact ⟨last, .behind found fits hmem hway, hblames⟩

end ConstantPool

/-! ## 4. The look-ups -/

/-- A look-up of a pool, by its name. -/
inductive LookUp where
  | text | className | classDisplayName | nameAndType
  | fieldRef | methodRef | interfaceMethodRef | invocable | member
  | string | integer | float | long | double
  | methodType | methodHandle | dynamic | invokeDynamic | moduleName | packageName | constant
  deriving DecidableEq, Repr

namespace LookUp

/-- Whether the look-up has an answer at an index, and if not why. -/
def ask (pool : ConstantPool) (index : UInt16) : LookUp → Outcome Unit
  | .text => check (pool.text index)
  | .className => check (pool.className index)
  | .classDisplayName => check (pool.classDisplayName index)
  | .nameAndType => check (pool.nameAndType index)
  | .fieldRef => check (pool.fieldRef index)
  | .methodRef => check (pool.methodRef index)
  | .interfaceMethodRef => check (pool.interfaceMethodRef index)
  | .invocable => check (pool.invocable index)
  | .member => check (pool.member index)
  | .string => check (pool.string index)
  | .integer => check (pool.integer index)
  | .float => check (pool.float index)
  | .long => check (pool.long index)
  | .double => check (pool.double index)
  | .methodType => check (pool.methodType index)
  | .methodHandle => check (pool.methodHandle index)
  | .dynamic => check (pool.dynamic index)
  | .invokeDynamic => check (pool.invokeDynamic index)
  | .moduleName => check (pool.moduleName index)
  | .packageName => check (pool.packageName index)
  | .constant => check (pool.constant index)

/-- The reference that the look-up of an index follows. -/
def reference (index : UInt16) : LookUp → Reference
  | .text => .toTag index .utf8
  | .className | .classDisplayName => .toTag index .classRef
  | .nameAndType => .toTag index .nameAndType
  | .fieldRef => .toTag index .fieldRef
  | .methodRef => .toTag index .methodRef
  | .interfaceMethodRef => .toTag index .interfaceMethodRef
  | .invocable => .toInvocable index
  | .member => .toMember index
  | .string => .toTag index .string
  | .integer => .toTag index .integer
  | .float => .toTag index .float
  | .long => .toTag index .long
  | .double => .toTag index .double
  | .methodType => .toTag index .methodType
  | .methodHandle => .toTag index .methodHandle
  | .dynamic => .toTag index .dynamic
  | .invokeDynamic => .toTag index .invokeDynamic
  | .moduleName => .toTag index .moduleRef
  | .packageName => .toTag index .packageRef
  | .constant => .toConstant index

variable (pool : ConstantPool) (index : UInt16) (look : LookUp)

theorem reference_index : (look.reference index).index = index := by
  cases look <;> rfl

theorem reference_isBelow : (look.reference index).IsBelow 4 := by
  cases look with
  | invocable => exact (Reference.toInvocable_isBelow index).mono (by decide)
  | member => exact (Reference.toMember_isBelow index).mono (by decide)
  | constant => exact Reference.toConstant_isBelow index
  | _ => exact Reference.toTag_isBelow (by decide)

/-- A look-up follows its reference. -/
theorem ask_eq_reach : look.ask pool index = pool.reach 3 (look.reference index) := by
  cases look with
  | text => exact pool.check_text 3 index
  | className => exact pool.check_className 2 index
  | classDisplayName => exact pool.check_classDisplayName 2 index
  | nameAndType => exact pool.check_nameAndType 2 index
  | fieldRef => exact pool.check_memberOf 1 index .field
  | methodRef => exact pool.check_memberOf 1 index .method
  | interfaceMethodRef => exact pool.check_memberOf 1 index .interfaceMethod
  | invocable => exact pool.check_invocable 1 index
  | member => exact pool.check_member 1 index
  | string => exact pool.check_string 2 index
  | integer => exact pool.check_integer 3 index
  | float => exact pool.check_float 3 index
  | long => exact pool.check_long 3 index
  | double => exact pool.check_double 3 index
  | methodType => exact pool.check_methodType 2 index
  | methodHandle => exact pool.check_methodHandle 0 index
  | dynamic => exact pool.check_dynamic 1 index
  | invokeDynamic => exact pool.check_invokeDynamic 1 index
  | moduleName => exact pool.check_moduleName 2 index
  | packageName => exact pool.check_packageName 2 index
  | constant => exact pool.check_constant 0 index

/-- **What a look-up reports is true, and it is the first fault on its way.** Every look-up at every
    index of every pool has an answer exactly if its reference holds. Otherwise it fails for the
    first fault on the way of that reference, which is one of a slot on the way: either there is no
    entry in that slot, or one with the tag that is reported, which is not the tag asked for. -/
theorem ask_faults :
    (look.reference index).index = index ∧
    ((look.ask pool index).Succeeds ↔ pool.Holds (look.reference index)) ∧
    (∀ e, look.ask pool index = .error e ↔ pool.FirstFault (look.reference index) e) ∧
    ∀ e, look.ask pool index = .error e →
      ∃ last, pool.Leads (look.reference index) last ∧ pool.Blames last e := by
  have hbelow : (look.reference index).IsBelow (3 + 1) := look.reference_isBelow index
  obtain ⟨hholds, hfaults⟩ := pool.reach_finds hbelow
  rw [ask_eq_reach]
  refine ⟨look.reference_index index, hholds, hfaults, fun e he => ?_⟩
  exact ((hfaults e).1 he).exists_leads hbelow.asked_mem

/-- A class whose name is the class itself. -/
example : LookUp.constant.ask ⟨#[none, some (.classRef 1)]⟩ 1 =
    .error (.tagMismatch 1 .utf8 .classRef) := rfl

end LookUp

end ClassView
