import ClassView.Listing.Phrase
import ClassView.Proofs.Pool.Filling

/-!
# The listing of the pool as a check of references

An entry refers to other entries by their indices, these refer to others again, and a look-up
follows all of them. Each kind of entry says what its references may lead to. If every entry of a
pool keeps to that for its own references, then every chain of references holds, and every look-up
at an entry of its own tag has an answer. The listing of a pool looks up every entry, so it is made
exactly for these pools.

* `Entry.references`, `ConstantPool.IsWellTyped`: what the references of an entry may lead to;
* `Tag.Part`, `Entry.holding`, `Entry.part?`: what the entries with a tag hold;
* `ConstantPool.reach`, `ConstantPool.chain`: references followed one after the other;
* `ConstantPool.check_className`, `ConstantPool.check_member` and their likes: a look-up fails as
  the chain of its reference does;
* **`ConstantPool.reach_succeeds_iff`**: in a well-typed pool the first step decides;
* **`ConstantPool.poolLines_check`**: the listing of a pool checks all of its references.
-/

namespace ClassView

open Outcome

/-! ## 1. References -/

/-- An index of another entry, with the tags that fit there. -/
structure Reference where
  index : UInt16
  /-- The tag that is asked for where none of the tags that fit is found. -/
  asked : Tag
  admitted : List Tag
  deriving DecidableEq, Repr

/-- The tags of methods, of a class or of an interface. -/
def Tag.ofMethods : List Tag := [.methodRef, .interfaceMethodRef]

/-- The tags of members of any kind. -/
def Tag.ofMembers : List Tag := [.fieldRef, .methodRef, .interfaceMethodRef]

/-- The tags of the constants that can be loaded. -/
def Tag.loadable : List Tag :=
  [.integer, .float, .long, .double, .string, .classRef, .methodType, .methodHandle, .dynamic]

namespace Reference

/-- A reference to an entry of one tag. -/
def toTag (index : UInt16) (tag : Tag) : Reference := ⟨index, tag, [tag]⟩

/-- A reference to a method of a class or of an interface. -/
def toInvocable (index : UInt16) : Reference := ⟨index, .methodRef, Tag.ofMethods⟩

/-- A reference to a member of any kind. -/
def toMember (index : UInt16) : Reference := ⟨index, .methodRef, Tag.ofMembers⟩

/-- A reference to a constant that can be loaded. -/
def toConstant (index : UInt16) : Reference := ⟨index, .string, Tag.loadable⟩

end Reference

/-- The references of an entry, in the order in which they are followed. -/
def Entry.references : Entry → List Reference
  | .utf8 _ | .integer _ | .float _ | .long _ | .double _ => []
  | .classRef name | .moduleRef name | .packageRef name => [.toTag name .utf8]
  | .string spelled | .methodType spelled => [.toTag spelled .utf8]
  | .nameAndType name descriptor => [.toTag name .utf8, .toTag descriptor .utf8]
  | .member _ owner signature => [.toTag owner .classRef, .toTag signature .nameAndType]
  | .methodHandle _ target => [.toMember target]
  | .dynamic _ signature | .invokeDynamic _ signature => [.toTag signature .nameAndType]

/-! ## 2. What entries hold -/

/-- What the entries with a tag hold. -/
abbrev Tag.Part : Tag → Type
  | .utf8 => String
  | .integer => Int32
  | .float => UInt32
  | .long => Int64
  | .double => UInt64
  | .classRef | .string | .methodType | .moduleRef | .packageRef => UInt16
  | .fieldRef | .methodRef | .interfaceMethodRef | .nameAndType | .dynamic | .invokeDynamic =>
    UInt16 × UInt16
  | .methodHandle => UInt8 × UInt16

namespace Entry

/-- The entry with a tag that holds the part. -/
def holding : (tag : Tag) → tag.Part → Entry
  | .utf8, text => .utf8 text
  | .integer, value => .integer value
  | .float, bits => .float bits
  | .long, value => .long value
  | .double, bits => .double bits
  | .classRef, name => .classRef name
  | .string, text => .string text
  | .fieldRef, parts => .member .field parts.1 parts.2
  | .methodRef, parts => .member .method parts.1 parts.2
  | .interfaceMethodRef, parts => .member .interfaceMethod parts.1 parts.2
  | .nameAndType, parts => .nameAndType parts.1 parts.2
  | .methodHandle, parts => .methodHandle parts.1 parts.2
  | .methodType, descriptor => .methodType descriptor
  | .dynamic, parts => .dynamic parts.1 parts.2
  | .invokeDynamic, parts => .invokeDynamic parts.1 parts.2
  | .moduleRef, name => .moduleRef name
  | .packageRef, name => .packageRef name

/-- What an entry holds if it is a member of one kind. -/
def memberPart? (kind : MemberKind) : Entry → Option (UInt16 × UInt16)
  | .member k owner signature => if k = kind then some (owner, signature) else none
  | _ => none

/-- What an entry holds if it has the tag; each look-up picks just that, by definition. -/
def part? : (tag : Tag) → Entry → Option tag.Part
  | .utf8 => fun | .utf8 text => some text | _ => none
  | .integer => fun | .integer value => some value | _ => none
  | .float => fun | .float bits => some bits | _ => none
  | .long => fun | .long value => some value | _ => none
  | .double => fun | .double bits => some bits | _ => none
  | .classRef => fun | .classRef name => some name | _ => none
  | .string => fun | .string text => some text | _ => none
  | .fieldRef => memberPart? .field
  | .methodRef => memberPart? .method
  | .interfaceMethodRef => memberPart? .interfaceMethod
  | .nameAndType => fun | .nameAndType name descriptor => some (name, descriptor) | _ => none
  | .methodHandle => fun | .methodHandle kind target => some (kind, target) | _ => none
  | .methodType => fun | .methodType descriptor => some descriptor | _ => none
  | .dynamic => fun | .dynamic bootstrap signature => some (bootstrap, signature) | _ => none
  | .invokeDynamic => fun
    | .invokeDynamic bootstrap signature => some (bootstrap, signature)
    | _ => none
  | .moduleRef => fun | .moduleRef name => some name | _ => none
  | .packageRef => fun | .packageRef name => some name | _ => none

variable {tag : Tag} {e : Entry}

theorem tag_holding (part : tag.Part) : (holding tag part).tag = tag := by
  cases tag <;> rfl

theorem part?_holding (part : tag.Part) : (holding tag part).part? tag = some part := by
  cases tag <;> rfl

/-- An entry is one of the entries with its tag, and holds what they hold. -/
theorem exists_eq_holding (e : Entry) : ∃ part, e = holding e.tag part := by
  cases e with
  | member kind owner signature => cases kind <;> exact ⟨(owner, signature), rfl⟩
  | nameAndType | methodHandle | dynamic | invokeDynamic => exact ⟨(_, _), rfl⟩
  | _ => exact ⟨_, rfl⟩

theorem part?_of_ne (h : e.tag ≠ tag) : e.part? tag = none := by
  cases e with
  | member kind => cases tag <;> cases kind <;> first | rfl | exact absurd rfl h
  | _ => cases tag <;> first | rfl | exact absurd rfl h

end Entry

namespace ConstantPool

variable {pool : ConstantPool} {index : UInt16} {tag : Tag} {r : Reference} {e : Entry}
  {err : DecodeError} {depth : Nat}

/-- The reference leads to an entry with one of the tags that fit. -/
def Admits (pool : ConstantPool) (r : Reference) : Prop :=
  ∃ target ∈ pool.entry? r.index, target.tag ∈ r.admitted

/-- All references of all entries lead to entries that fit there. What these refer to in turn is
    not asked. -/
def IsWellTyped (pool : ConstantPool) : Prop :=
  ∀ p ∈ pool.entries, ∀ r ∈ p.2.references, pool.Admits r

instance : Decidable (pool.Admits r) :=
  inferInstanceAs (Decidable (∃ target ∈ pool.entry? r.index, target.tag ∈ r.admitted))

instance : Decidable pool.IsWellTyped :=
  inferInstanceAs (Decidable (∀ p ∈ pool.entries, ∀ r ∈ p.2.references, pool.Admits r))

/-! ## 3. Chains of references -/

/-- The entry that a reference leads to, which has to fit. -/
def step (pool : ConstantPool) (r : Reference) : Outcome Entry := do
  let target ← pool.get r.index
  if target.tag ∈ r.admitted then return target
  else throw (.tagMismatch r.index.toNat r.asked target.tag)

/-- Follows a reference, and then the references of the entry that it leads to, each to its end
    before the next one, `depth` times in all. -/
def reach (pool : ConstantPool) : (depth : Nat) → Reference → Outcome Unit
  | 0, r => check (pool.step r)
  | depth + 1, r => do forM (← pool.step r).references (pool.reach depth)

/-- Follows all references of an entry. -/
def chain (pool : ConstantPool) (depth : Nat) (e : Entry) : Outcome Unit :=
  forM e.references (pool.reach depth)

theorem step_eq_ok_iff {target : Entry} :
    pool.step r = .ok target ↔ pool.entry? r.index = some target ∧ target.tag ∈ r.admitted := by
  unfold step
  rw [bind_eq_ok_iff]
  refine ⟨fun h => ?_, fun h => ?_⟩
  · obtain ⟨found, hget, hfound⟩ := h
    split at hfound
    · rename_i hfits
      cases hfound
      exact ⟨get_eq_ok_iff.1 hget, hfits⟩
    · exact nomatch hfound
  · exact ⟨target, get_eq_ok_iff.2 h.1, if_pos h.2⟩

theorem succeeds_step_iff : (pool.step r).Succeeds ↔ pool.Admits r :=
  exists_congr fun _ => step_eq_ok_iff

/-- Where there is no entry, following fails for that. -/
theorem reach_of_missing (h : pool.get r.index = .error err) : pool.reach depth r = .error err := by
  have hstep : pool.step r = .error err := by
    unfold step
    rw [h]
    rfl
  cases depth <;> simp only [reach, hstep] <;> rfl

/-- At an entry that does not fit, following fails for its tag. -/
theorem reach_of_mismatch (h : pool.get r.index = .ok e) (htag : e.tag ∉ r.admitted) :
    pool.reach depth r = .error (.tagMismatch r.index.toNat r.asked e.tag) := by
  have hstep : pool.step r = .error (.tagMismatch r.index.toNat r.asked e.tag) := by
    unfold step
    rw [h]
    exact if_neg htag
  cases depth <;> simp only [reach, hstep] <;> rfl

/-- At an entry that fits, following goes on with the references of that entry. -/
theorem reach_of_admitted (h : pool.get r.index = .ok e) (htag : e.tag ∈ r.admitted) :
    pool.reach (depth + 1) r = pool.chain depth e := by
  have hstep : pool.step r = .ok e := step_eq_ok_iff.2 ⟨get_eq_ok_iff.1 h, htag⟩
  rw [reach, hstep]
  rfl

/-- At an entry without references, following ends. -/
theorem reach_of_leaf (h : pool.get r.index = .ok e) (htag : e.tag ∈ r.admitted)
    (hleaf : e.references = []) : pool.reach depth r = .ok () := by
  cases depth with
  | zero =>
    rw [reach, step_eq_ok_iff.2 ⟨get_eq_ok_iff.1 h, htag⟩]
    rfl
  | succ depth =>
    rw [reach_of_admitted h htag, chain, hleaf]
    rfl

/-- Two references to one entry are followed alike if it fits in both places, or in none of them and
    the same tag is asked for. -/
theorem reach_congr {r' : Reference} (h : pool.get r.index = .ok e) (hindex : r'.index = r.index)
    (hfits : e.tag ∈ r.admitted ↔ e.tag ∈ r'.admitted)
    (hasked : e.tag ∉ r.admitted → r.asked = r'.asked) :
    pool.reach (depth + 1) r = pool.reach (depth + 1) r' := by
  have h' : pool.get r'.index = .ok e := hindex ▸ h
  by_cases htag : e.tag ∈ r.admitted
  · rw [reach_of_admitted h htag, reach_of_admitted h' (hfits.1 htag)]
  · rw [reach_of_mismatch h htag, reach_of_mismatch h' (mt hfits.2 htag), hindex, hasked htag]

/-- A reference to an entry that fits is followed as one to the tag of that entry. -/
theorem reach_toTag (h : pool.get r.index = .ok e) (hfits : e.tag ∈ r.admitted) :
    pool.reach (depth + 1) (.toTag r.index e.tag) = pool.reach (depth + 1) r :=
  reach_congr h rfl (iff_of_true List.mem_cons_self hfits) (absurd List.mem_cons_self)

theorem entry_mem_entries (h : pool.entry? index = some e) : (index, e) ∈ pool.entries := by
  have hnumbered : (index.toNat, e) ∈ pool.numbered :=
    mem_numbered_iff.2 (entry?_eq_some_iff.1 h)
  rw [entries_eq_map_numbered, List.mem_map]
  exact ⟨_, hnumbered, Prod.ext UInt16.ofNat_toNat rfl⟩

/-- **In a well-typed pool a reference can be followed to any depth exactly if it leads to an entry
    that fits.** The induction is on the depth: the references of that entry fit as well. -/
theorem reach_succeeds_iff (h : pool.IsWellTyped) (depth : Nat) (r : Reference) :
    (pool.reach depth r).Succeeds ↔ pool.Admits r := by
  induction depth generalizing r with
  | zero => exact succeeds_check_iff.trans succeeds_step_iff
  | succ depth ih =>
    refine ⟨fun hreach => ?_, fun hadmits => ?_⟩
    · obtain ⟨target, hstep, _⟩ := hreach.of_bind
      exact succeeds_step_iff.1 ⟨target, hstep⟩
    · obtain ⟨target, htarget, hfits⟩ := hadmits
      rw [reach_of_admitted (get_eq_ok_iff.2 htarget) hfits]
      exact succeeds_forM_iff.2 fun next hnext =>
        (ih next).2 (h (r.index, target) (entry_mem_entries htarget) next hnext)

/-- Following always starts with the first step. -/
theorem admits_of_reach (h : (pool.reach depth r).Succeeds) : pool.Admits r := by
  cases depth with
  | zero => exact succeeds_step_iff.1 (succeeds_check_iff.1 h)
  | succ depth =>
    obtain ⟨target, hstep, _⟩ := h.of_bind
    exact succeeds_step_iff.1 ⟨target, hstep⟩

/-- **A pool is well-typed exactly if all chains hold**, to whatever depth they are followed. -/
theorem isWellTyped_iff (depth : Nat) :
    pool.IsWellTyped ↔ ∀ p ∈ pool.entries, (pool.chain depth p.2).Succeeds := by
  refine ⟨fun h p hp => ?_, fun h p hp r hr => ?_⟩
  · exact succeeds_forM_iff.2 fun r hr => (reach_succeeds_iff h depth r).2 (h p hp r hr)
  · exact admits_of_reach (succeeds_forM_iff.1 (h p hp) r hr)

/-! ## 4. Look-ups fail as the chains of their references -/

section LookUps

variable {β : Type}

/-- A look-up answers what the entry of its tag holds, or it fails as its reference does. -/
theorem typed_cases (depth : Nat) (index : UInt16) (tag : Tag) :
    (∃ part, pool.get index = .ok (.holding tag part) ∧
      pool.typed index tag (Entry.part? tag) = .ok part) ∨
    ∃ err, pool.typed index tag (Entry.part? tag) = .error err ∧
      pool.reach depth (.toTag index tag) = .error err := by
  cases hget : pool.get index with
  | error err =>
    refine .inr ⟨err, ?_, reach_of_missing (r := .toTag index tag) hget⟩
    exact bind_eq_error_iff.2 (.inl hget)
  | ok e =>
    by_cases htag : e.tag = tag
    · obtain ⟨part, rfl⟩ : ∃ part, e = .holding tag part := htag ▸ e.exists_eq_holding
      refine .inl ⟨part, rfl, bind_eq_ok_iff.2 ⟨_, hget, ?_⟩⟩
      rw [Entry.part?_holding]
      rfl
    · refine .inr ⟨.tagMismatch index.toNat tag e.tag, bind_eq_error_iff.2 (.inr ⟨e, hget, ?_⟩), ?_⟩
      · rw [Entry.part?_of_ne htag]
        rfl
      · exact reach_of_mismatch (r := .toTag index tag) hget (mt List.mem_singleton.1 htag)

/-- A look-up of entries that refer to nothing. -/
theorem check_typed (tag : Tag) (hleaf : ∀ part, (Entry.holding tag part).references = []) :
    check (pool.typed index tag (Entry.part? tag)) = pool.reach depth (.toTag index tag) := by
  obtain ⟨part, hget, htyped⟩ | ⟨err, htyped, hreach⟩ := pool.typed_cases depth index tag
  · have hfits := List.mem_singleton.2 (Entry.tag_holding part)
    rw [htyped]
    exact (reach_of_leaf (r := .toTag index tag) hget hfits (hleaf part)).symm
  · rw [htyped, hreach]
    rfl

/-- A look-up that goes on with the references of the entry. -/
theorem check_typed_bind (tag : Tag) {next : tag.Part → Outcome β}
    (hnext : ∀ part, check (next part) = pool.chain depth (.holding tag part)) :
    check (pool.typed index tag (Entry.part? tag) >>= next) =
      pool.reach (depth + 1) (.toTag index tag) := by
  obtain ⟨part, hget, htyped⟩ | ⟨err, htyped, hreach⟩ := pool.typed_cases (depth + 1) index tag
  · have hfits := List.mem_singleton.2 (Entry.tag_holding part)
    rw [htyped, reach_of_admitted (r := .toTag index tag) hget hfits, ← hnext part]
    rfl
  · rw [htyped, hreach]
    rfl

end LookUps

variable (pool : ConstantPool) (depth : Nat) (index : UInt16)

theorem check_text : check (pool.text index) = pool.reach depth (.toTag index .utf8) :=
  check_typed .utf8 fun _ => rfl

/-- The text that an entry refers to is all that its chain leads to. -/
theorem check_spelled (h : e.references = [.toTag index .utf8]) :
    check (pool.text index) = pool.chain depth e := by
  rw [chain, h, forM_singleton]
  exact pool.check_text depth index

theorem check_className :
    check (pool.className index) = pool.reach (depth + 1) (.toTag index .classRef) :=
  check_typed_bind .classRef fun name => pool.check_spelled depth name rfl

theorem check_classDisplayName :
    check (pool.classDisplayName index) = pool.reach (depth + 1) (.toTag index .classRef) :=
  (check_map displayName).trans (pool.check_className depth index)

theorem check_string :
    check (pool.string index) = pool.reach (depth + 1) (.toTag index .string) :=
  check_typed_bind .string fun text => pool.check_spelled depth text rfl

theorem check_methodType :
    check (pool.methodType index) = pool.reach (depth + 1) (.toTag index .methodType) :=
  check_typed_bind .methodType fun descriptor => pool.check_spelled depth descriptor rfl

theorem check_moduleName :
    check (pool.moduleName index) = pool.reach (depth + 1) (.toTag index .moduleRef) :=
  check_typed_bind .moduleRef fun name => pool.check_spelled depth name rfl

theorem check_packageName :
    check (pool.packageName index) = pool.reach (depth + 1) (.toTag index .packageRef) :=
  check_typed_bind .packageRef fun name => pool.check_spelled depth name rfl

theorem check_nameAndType :
    check (pool.nameAndType index) = pool.reach (depth + 1) (.toTag index .nameAndType) := by
  refine check_typed_bind .nameAndType fun parts => ?_
  rw [chain, Entry.holding, Entry.references, List.forM_cons, forM_singleton, ← check_text,
    ← check_text]
  exact check_bind fun _ => check_bind_ok fun _ => rfl

/-- The owner of a member is followed to its end before its name and descriptor are. -/
theorem check_memberOf (kind : MemberKind) :
    check (pool.memberOf kind index) = pool.reach (depth + 2) (.toTag index kind.tag) := by
  have hnext (parts : UInt16 × UInt16) : check (do
      let owner ← pool.classDisplayName parts.1
      let signature ← pool.nameAndType parts.2
      return (⟨kind, owner, signature.name, signature.descriptor⟩ : MemberRef)) =
        pool.chain (depth + 1) (.member kind parts.1 parts.2) := by
    rw [chain, Entry.references, List.forM_cons, forM_singleton, ← check_nameAndType,
      ← check_classDisplayName]
    exact check_bind fun _ => check_bind_ok fun _ => rfl
  cases kind with
  | field => exact check_typed_bind .fieldRef hnext
  | method => exact check_typed_bind .methodRef hnext
  | interfaceMethod => exact check_typed_bind .interfaceMethodRef hnext

section Kinds

variable {pool : ConstantPool} {index : UInt16} {e : Entry}

theorem invocable_of_interfaceMethod (hget : pool.get index = .ok e)
    (htag : e.tag = .interfaceMethodRef) :
    pool.invocable index = pool.memberOf .interfaceMethod index := by
  obtain ⟨owner, signature, rfl⟩ := (Entry.tag_eq_iff .interfaceMethodRef e).1 htag
  unfold invocable
  rw [hget]
  rfl

theorem invocable_of_other (hget : pool.get index = .ok e) (htag : e.tag ≠ .interfaceMethodRef) :
    pool.invocable index = pool.memberOf .method index := by
  unfold invocable
  rw [hget]
  cases e with
  | member kind =>
    cases kind with
    | interfaceMethod => exact absurd rfl htag
    | _ => rfl
  | _ => rfl

theorem member_of_field (hget : pool.get index = .ok e) (htag : e.tag = .fieldRef) :
    pool.member index = pool.memberOf .field index := by
  obtain ⟨owner, signature, rfl⟩ := (Entry.tag_eq_iff .fieldRef e).1 htag
  unfold member
  rw [hget]
  rfl

theorem member_of_other (hget : pool.get index = .ok e) (htag : e.tag ≠ .fieldRef) :
    pool.member index = pool.invocable index := by
  unfold member
  rw [hget]
  cases e with
  | member kind =>
    cases kind with
    | field => exact absurd rfl htag
    | _ => rfl
  | _ => rfl

end Kinds

/-- A method is looked up by the kind of the entry. -/
theorem check_invocable :
    check (pool.invocable index) = pool.reach (depth + 2) (.toInvocable index) := by
  cases hget : pool.get index with
  | error err =>
    have hmissing : pool.invocable index = .error err := bind_eq_error_iff.2 (.inl hget)
    rw [hmissing]
    exact (reach_of_missing (r := .toInvocable index) hget).symm
  | ok e =>
    by_cases htag : e.tag = .interfaceMethodRef
    · have hfits : e.tag ∈ Tag.ofMethods := htag ▸ (by decide)
      have hsame : pool.reach (depth + 2) (.toTag index e.tag) = pool.reach (depth + 2) _ :=
        reach_toTag (r := .toInvocable index) hget hfits
      rw [invocable_of_interfaceMethod hget htag, check_memberOf, ← hsame, htag]
      rfl
    · rw [invocable_of_other hget htag, check_memberOf]
      refine reach_congr hget rfl ?_ fun _ => rfl
      simp [Reference.toTag, Reference.toInvocable, Tag.ofMethods, MemberKind.tag, htag]

/-- A member is looked up by the kind of the entry. -/
theorem check_member :
    check (pool.member index) = pool.reach (depth + 2) (.toMember index) := by
  cases hget : pool.get index with
  | error err =>
    have hmissing : pool.member index = .error err := bind_eq_error_iff.2 (.inl hget)
    rw [hmissing]
    exact (reach_of_missing (r := .toMember index) hget).symm
  | ok e =>
    by_cases htag : e.tag = .fieldRef
    · have hfits : e.tag ∈ Tag.ofMembers := htag ▸ (by decide)
      have hsame : pool.reach (depth + 2) (.toTag index e.tag) = pool.reach (depth + 2) _ :=
        reach_toTag (r := .toMember index) hget hfits
      rw [member_of_field hget htag, check_memberOf, ← hsame, htag]
      rfl
    · rw [member_of_other hget htag, check_invocable]
      refine reach_congr hget rfl ?_ fun _ => rfl
      simp [Reference.toInvocable, Reference.toMember, Tag.ofMethods, Tag.ofMembers, htag]

theorem check_methodHandle :
    check (pool.methodHandle index) = pool.reach (depth + 3) (.toTag index .methodHandle) := by
  refine check_typed_bind .methodHandle fun parts => ?_
  rw [chain, Entry.holding, Entry.references, forM_singleton, ← check_member]
  exact check_bind_ok fun _ => rfl

/-- What a bootstrap method gives a meaning to is looked up with the entry that says so. -/
theorem check_bootstrapped {bootstrap : UInt16} (h : e.references = [.toTag index .nameAndType]) :
    check (do return (⟨bootstrap, ← pool.nameAndType index⟩ : DynamicRef)) =
      pool.chain (depth + 1) e := by
  rw [chain, h, forM_singleton, ← check_nameAndType]
  exact check_bind_ok fun _ => rfl

theorem check_dynamic :
    check (pool.dynamic index) = pool.reach (depth + 2) (.toTag index .dynamic) :=
  check_typed_bind .dynamic fun parts => pool.check_bootstrapped depth parts.2 rfl

theorem check_invokeDynamic :
    check (pool.invokeDynamic index) = pool.reach (depth + 2) (.toTag index .invokeDynamic) :=
  check_typed_bind .invokeDynamic fun parts => pool.check_bootstrapped depth parts.2 rfl

theorem check_integer : check (pool.integer index) = pool.reach depth (.toTag index .integer) :=
  check_typed .integer fun _ => rfl

theorem check_float : check (pool.float index) = pool.reach depth (.toTag index .float) :=
  check_typed .float fun _ => rfl

theorem check_long : check (pool.long index) = pool.reach depth (.toTag index .long) :=
  check_typed .long fun _ => rfl

theorem check_double : check (pool.double index) = pool.reach depth (.toTag index .double) :=
  check_typed .double fun _ => rfl

/-- A constant is looked up by the kind of the entry; the numbers refer to nothing. -/
theorem check_constant :
    check (pool.constant index) = pool.reach (depth + 3) (.toConstant index) := by
  unfold constant
  cases hget : pool.get index with
  | error err => exact (reach_of_missing (r := .toConstant index) hget).symm
  | ok e =>
    -- the look-up of a tag that fits goes on as that of a constant does
    have hsame : ∀ tag ∈ Tag.loadable, e.tag = tag →
        pool.reach (depth + 3) (.toTag index tag) = pool.reach (depth + 3) (.toConstant index) := by
      rintro tag hloadable rfl
      exact reach_toTag (r := .toConstant index) hget hloadable
    have hleaf : e.tag ∈ Tag.loadable → e.references = [] →
        Except.ok () = pool.reach (depth + 3) (.toConstant index) := fun hloadable hnone =>
      (reach_of_leaf (r := .toConstant index) hget hloadable hnone).symm
    have hmismatch : e.tag ∉ Tag.loadable → Except.error (.tagMismatch index.toNat .string e.tag) =
        pool.reach (depth + 3) (.toConstant index) := fun hother =>
      (reach_of_mismatch (r := .toConstant index) hget hother).symm
    cases e with
    | integer | float | long | double => exact hleaf (by simp [Entry.tag, Tag.loadable]) rfl
    | string =>
      refine (check_map _).trans ((pool.check_string (depth + 2) index).trans ?_)
      exact hsame .string (by decide) rfl
    | classRef =>
      refine (check_map _).trans ((pool.check_classDisplayName (depth + 2) index).trans ?_)
      exact hsame .classRef (by decide) rfl
    | methodType =>
      refine (check_map _).trans ((pool.check_methodType (depth + 2) index).trans ?_)
      exact hsame .methodType (by decide) rfl
    | methodHandle =>
      refine (check_map _).trans ((pool.check_methodHandle depth index).trans ?_)
      exact hsame .methodHandle (by decide) rfl
    | dynamic =>
      refine (check_map _).trans ((pool.check_dynamic (depth + 1) index).trans ?_)
      exact hsame .dynamic (by decide) rfl
    | member kind =>
      have hother : kind.tag ∉ Tag.loadable := by cases kind <;> decide
      exact hmismatch hother
    | utf8 | nameAndType | invokeDynamic | moduleRef | packageRef =>
      exact hmismatch (by simp [Entry.tag, Tag.loadable])

/-! ## 5. Rows of the listing -/

/-- A look-up at an entry that is there goes on with the references of that entry. -/
theorem check_shown {α β : Type} {pool : ConstantPool} {depth : Nat} {r : Reference} {e : Entry}
    {look : Outcome α} {next : α → Outcome β} (he : pool.get r.index = .ok e)
    (htag : e.tag ∈ r.admitted) (hlook : check look = pool.reach (depth + 1) r)
    (hnext : ∀ a, check (next a) = .ok ()) : check (look >>= next) = pool.chain depth e :=
  (check_bind_ok hnext).trans (hlook.trans (reach_of_admitted he htag))

variable {pool index}

/-- **What the listing shows of an entry is looked up along its references.** -/
theorem check_entryRow (he : pool.get index = .ok e) :
    check (entryRow pool index e) = pool.chain (depth + 2) e := by
  cases e with
  | utf8 | integer | float | long | double => rfl
  | classRef =>
    exact check_shown (r := .toTag index .classRef) he List.mem_cons_self
      (pool.check_classDisplayName _ index) fun _ => rfl
  | string =>
    exact check_shown (r := .toTag index .string) he List.mem_cons_self
      (pool.check_string _ index) fun _ => rfl
  | member kind =>
    have htag : kind.tag ∈ Tag.ofMembers := by cases kind <;> decide
    exact check_shown (r := .toMember index) he htag (pool.check_member _ index) fun _ => rfl
  | nameAndType =>
    exact check_shown (r := .toTag index .nameAndType) he List.mem_cons_self
      (pool.check_nameAndType _ index) fun _ => rfl
  | methodHandle =>
    exact check_shown (r := .toTag index .methodHandle) he List.mem_cons_self
      (pool.check_methodHandle _ index) fun _ => rfl
  | methodType =>
    exact check_shown (r := .toTag index .methodType) he List.mem_cons_self
      (pool.check_methodType _ index) fun _ => rfl
  | dynamic =>
    exact check_shown (r := .toTag index .dynamic) he List.mem_cons_self
      (pool.check_dynamic (depth + 1) index) fun _ => rfl
  | invokeDynamic =>
    exact check_shown (r := .toTag index .invokeDynamic) he List.mem_cons_self
      (pool.check_invokeDynamic (depth + 1) index) fun _ => rfl
  | moduleRef =>
    exact check_shown (r := .toTag index .moduleRef) he List.mem_cons_self
      (pool.check_moduleName _ index) fun _ => rfl
  | packageRef =>
    exact check_shown (r := .toTag index .packageRef) he List.mem_cons_self
      (pool.check_packageName _ index) fun _ => rfl

theorem check_entryLine (he : pool.get index = .ok e) :
    check (entryLine pool index e) = pool.chain (depth + 2) e := by
  refine (check_bind_ok fun row => ?_).trans (check_entryRow depth he)
  cases row.meaning <;> rfl

/-- The listing follows the chains of all entries, in the order of their indices. -/
theorem check_poolLines (hcount : pool.count ≤ 65536) :
    check (poolLines pool) = forM pool.entries fun p => pool.chain (depth + 2) p.2 := by
  refine (check_mapM _ _).trans (forM_congr fun p hp => ?_)
  exact check_entryLine depth (get_eq_ok_iff.2 ((mem_entries_iff hcount).1 hp))

theorem poolLines_succeeds_iff (hcount : pool.count ≤ 65536) :
    (poolLines pool).Succeeds ↔ pool.IsWellTyped := by
  rw [← succeeds_check_iff, check_poolLines 0 hcount, succeeds_forM_iff]
  exact (isWellTyped_iff 2).symm

theorem poolLines_eq_error_iff (hcount : pool.count ≤ 65536) :
    poolLines pool = .error err ↔ ∃ index e, pool.entry? index = some e ∧
      pool.chain (depth + 2) e = .error err ∧ ∀ lower other, lower < index →
        pool.entry? lower = some other → (pool.chain (depth + 2) other).Succeeds := by
  have hasymm : ∀ a b : UInt16 × Entry, a.1 < b.1 → ¬ b.1 < a.1 := fun a b => UInt16.lt_asymm
  rw [← check_eq_error_iff, check_poolLines depth hcount,
    forM_eq_error_iff_least (entries_ascending hcount) hasymm]
  simp only [Prod.exists, Prod.forall, mem_entries_iff hcount]
  exact exists_congr fun index => exists_congr fun e => and_congr_right fun _ =>
    and_congr_right fun _ => forall_congr' fun lower => forall_congr' fun other => forall_comm

/-! ## 6. Look-ups in a well-typed pool -/

/-- The look-up has an answer at every entry with one of the tags. -/
def Answers {α : Type} (pool : ConstantPool) (look : UInt16 → Outcome α) (tags : List Tag) : Prop :=
  ∀ index e, pool.entry? index = some e → e.tag ∈ tags → (look index).Succeeds

/-- Every look-up has an answer at the entries that it is for. -/
structure AnswersAll (pool : ConstantPool) : Prop where
  text : pool.Answers pool.text [.utf8]
  className : pool.Answers pool.className [.classRef]
  classDisplayName : pool.Answers pool.classDisplayName [.classRef]
  nameAndType : pool.Answers pool.nameAndType [.nameAndType]
  fieldRef : pool.Answers pool.fieldRef [.fieldRef]
  methodRef : pool.Answers pool.methodRef [.methodRef]
  interfaceMethodRef : pool.Answers pool.interfaceMethodRef [.interfaceMethodRef]
  string : pool.Answers pool.string [.string]
  integer : pool.Answers pool.integer [.integer]
  float : pool.Answers pool.float [.float]
  long : pool.Answers pool.long [.long]
  double : pool.Answers pool.double [.double]
  methodType : pool.Answers pool.methodType [.methodType]
  methodHandle : pool.Answers pool.methodHandle [.methodHandle]
  dynamic : pool.Answers pool.dynamic [.dynamic]
  invokeDynamic : pool.Answers pool.invokeDynamic [.invokeDynamic]
  moduleName : pool.Answers pool.moduleName [.moduleRef]
  packageName : pool.Answers pool.packageName [.packageRef]
  invocable : pool.Answers pool.invocable Tag.ofMethods
  member : pool.Answers pool.member Tag.ofMembers
  constant : pool.Answers pool.constant Tag.loadable

/-- A look-up that fails as its chain does has an answer wherever the first step holds. -/
theorem IsWellTyped.answers {α : Type} {look : UInt16 → Outcome α} {asked : Tag} {tags : List Tag}
    (h : pool.IsWellTyped)
    (hcheck : ∀ index, check (look index) = pool.reach depth ⟨index, asked, tags⟩) :
    pool.Answers look tags := by
  intro index e he htag
  rw [← succeeds_check_iff, hcheck, reach_succeeds_iff h]
  exact ⟨e, he, htag⟩

theorem IsWellTyped.answersAll (h : pool.IsWellTyped) : pool.AnswersAll where
  text := h.answers 0 (pool.check_text 0)
  className := h.answers 1 (pool.check_className 0)
  classDisplayName := h.answers 1 (pool.check_classDisplayName 0)
  nameAndType := h.answers 1 (pool.check_nameAndType 0)
  fieldRef := h.answers 2 fun index => pool.check_memberOf 0 index .field
  methodRef := h.answers 2 fun index => pool.check_memberOf 0 index .method
  interfaceMethodRef := h.answers 2 fun index => pool.check_memberOf 0 index .interfaceMethod
  string := h.answers 1 (pool.check_string 0)
  integer := h.answers 0 (pool.check_integer 0)
  float := h.answers 0 (pool.check_float 0)
  long := h.answers 0 (pool.check_long 0)
  double := h.answers 0 (pool.check_double 0)
  methodType := h.answers 1 (pool.check_methodType 0)
  methodHandle := h.answers 3 (pool.check_methodHandle 0)
  dynamic := h.answers 2 (pool.check_dynamic 0)
  invokeDynamic := h.answers 2 (pool.check_invokeDynamic 0)
  moduleName := h.answers 1 (pool.check_moduleName 0)
  packageName := h.answers 1 (pool.check_packageName 0)
  invocable := h.answers 2 (pool.check_invocable 0)
  member := h.answers 2 (pool.check_member 0)
  constant := h.answers 3 (pool.check_constant 0)

/-- **The listing of a pool that is read checks all of its references.** It is made exactly if all
    references of all entries lead to entries that fit there; otherwise it fails as the chain of the
    first entry whose chain does not hold. In such a pool every look-up has an answer at the entries
    that it is for. -/
theorem poolLines_check (texts : TextReader) {c behind : Cursor}
    (h : ConstantPool.read texts c = .ok (pool, behind)) :
    ((poolLines pool).Succeeds ↔ pool.IsWellTyped) ∧
    (∀ depth err, 2 ≤ depth → (poolLines pool = .error err ↔ ∃ index e,
      pool.entry? index = some e ∧ pool.chain depth e = .error err ∧
        ∀ lower other, lower < index → pool.entry? lower = some other →
          (pool.chain depth other).Succeeds)) ∧
    (pool.IsWellTyped → pool.AnswersAll) := by
  obtain ⟨_, _, hregular, _⟩ := (reads c pool behind).1 h
  have hcount : pool.count ≤ 65536 := Nat.le_of_lt hregular.count_lt
  refine ⟨poolLines_succeeds_iff hcount, fun depth err hdepth => ?_, IsWellTyped.answersAll⟩
  obtain ⟨less, rfl⟩ := Nat.exists_eq_add_of_le' hdepth
  exact poolLines_eq_error_iff less hcount

/-- A class and behind it the text that names it. -/
def linked : Cursor := Cursor.ofBytes [0, 3, 7, 0, 2, 1, 0, 1, 120] 0

/-- A class with its name, and between them a string that refers to the class instead of a text. -/
def crossed : Cursor := Cursor.ofBytes [0, 4, 7, 0, 3, 8, 0, 1, 1, 0, 1, 120] 0

theorem poolLines_check_linked :
    (∃ pool behind, read Text.text? linked = .ok (pool, behind) ∧ (poolLines pool).Succeeds ∧
      (pool.className 1).Succeeds) ∧
    ∃ pool behind, read Text.text? crossed = .ok (pool, behind) ∧
      poolLines pool = .error (.tagMismatch 1 .utf8 .classRef) := by
  refine ⟨⟨_, _, rfl, ?_, ?_⟩, _, _, rfl, ?_⟩
  · exact (poolLines_check Text.text? (c := linked) rfl).1.2 (by decide)
  · have hall := (poolLines_check Text.text? (c := linked) rfl).2.2 (by decide)
    exact hall.className 1 _ rfl (by decide)
  · refine ((poolLines_check Text.text? (c := crossed) rfl).2.1 2 _ Nat.le.refl).2
      ⟨2, .string 1, rfl, rfl, fun lower other hlower hother => ?_⟩
    obtain rfl | rfl : lower = 0 ∨ lower = 1 := by grind
    · exact nomatch hother
    · cases hother
      exact ⟨(), rfl⟩

end ConstantPool

end ClassView
