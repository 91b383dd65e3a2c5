import ClassView.Descriptor.Basic
import ClassView.Proofs.Outcome
import Mathlib.Algebra.GroupWithZero.Nat

/-!
# The grammar of descriptors

Which texts are field types, and what a method descriptor is made of. The readers of
`ClassView.Descriptor` take exactly the texts of the grammar and take them apart in one way only,
although a class name may hold any of the brackets that stand around it.

* `IsFieldText`, `methodText`: the grammar, said of texts;
* `isFieldText_iff`: the texts of field types are those that well-formed types are written as;
* `readParameters_eq_some_iff`, `ResultType.ofChars?_eq_some_iff`: the two scanners;
* **`Descriptor.splits_by_grammar`**: the parameters and the result of a descriptor are told by the
  grammar, and every descriptor outside of it is refused.
-/

namespace ClassView

/-! ## 1. Texts -/

/-- The characters of a field type. -/
inductive FieldGrammar : List Char → Prop
  | base {letter : Char} (known : letter ∈ ['B', 'C', 'D', 'F', 'I', 'J', 'S', 'Z']) :
      FieldGrammar [letter]
  | object {name : List Char} (nonempty : name ≠ []) (unended : ';' ∉ name) :
      FieldGrammar ('L' :: name ++ [';'])
  | array {element : List Char} (inner : FieldGrammar element) : FieldGrammar ('[' :: element)

/-- The text is one of a field type. -/
def IsFieldText (text : String) : Prop := FieldGrammar text.toList

/-- The text is one of a result type. -/
def IsResultText (text : String) : Prop := text = "V" ∨ IsFieldText text

/-- The parameters of a method between parentheses, and what stands behind them. -/
def methodText (parameters : List String) (behind : String) : String :=
  "(" ++ String.join parameters ++ ")" ++ behind

/-- The local variables that a value takes whose type has the text: two for the wide numbers. -/
def slotsOfText (text : String) : Nat := if text = "J" ∨ text = "D" then 2 else 1

/-! ## 2. Field types -/

theorem BaseType.letter_mem (b : BaseType) :
    b.letter ∈ ['B', 'C', 'D', 'F', 'I', 'J', 'S', 'Z'] := by
  cases b <;> decide

theorem BaseType.exists_letter {c : Char} (h : c ∈ ['B', 'C', 'D', 'F', 'I', 'J', 'S', 'Z']) :
    ∃ b : BaseType, b.letter = c := by
  simp only [List.mem_cons, List.not_mem_nil, or_false] at h
  rcases h with rfl | rfl | rfl | rfl | rfl | rfl | rfl | rfl
  · exact ⟨.byte, rfl⟩
  · exact ⟨.char, rfl⟩
  · exact ⟨.double, rfl⟩
  · exact ⟨.float, rfl⟩
  · exact ⟨.int, rfl⟩
  · exact ⟨.long, rfl⟩
  · exact ⟨.short, rfl⟩
  · exact ⟨.boolean, rfl⟩

namespace FieldType

/-- The type can be written: a class in it has a name without `;`. -/
def WellFormed (t : FieldType) : Prop := t.element.WellFormed

theorem chars_succ (n : Nat) (e : ElementType) :
    (FieldType.mk (n + 1) e).chars = '[' :: (FieldType.mk n e).chars := by
  rw [chars, chars, List.replicate_succ, List.cons_append]

/-- **The grammar is that of the well-formed types.** -/
theorem grammar_iff {cs : List Char} :
    FieldGrammar cs ↔ ∃ t : FieldType, t.WellFormed ∧ t.chars = cs := by
  refine ⟨fun h => ?_, fun h => ?_⟩
  · induction h with
    | base known =>
      obtain ⟨b, rfl⟩ := BaseType.exists_letter known
      exact ⟨⟨0, .base b⟩, trivial, rfl⟩
    | @object name nonempty unended => exact ⟨⟨0, .object name⟩, ⟨nonempty, unended⟩, rfl⟩
    | array _ ih =>
      obtain ⟨⟨n, e⟩, hwf, rfl⟩ := ih
      exact ⟨⟨n + 1, e⟩, hwf, chars_succ n e⟩
  · obtain ⟨⟨n, e⟩, hwf, rfl⟩ := h
    induction n with
    | zero =>
      cases e with
      | base b => exact .base b.letter_mem
      | object name => exact .object hwf.1 hwf.2
    | succ n ih =>
      rw [chars_succ]
      exact .array (ih hwf)

/-- A type takes at least one character, and no parenthesis starts it, nor does the letter that
    stands for no result. -/
theorem chars_eq_cons (t : FieldType) : ∃ c cs, t.chars = c :: cs ∧ c ≠ ')' ∧ c ≠ 'V' := by
  obtain ⟨n, e⟩ := t
  cases n with
  | succ n => exact ⟨'[', _, chars_succ n e, by decide, by decide⟩
  | zero =>
    cases e with
    | base b => exact ⟨b.letter, [], rfl, by cases b <;> decide, by cases b <;> decide⟩
    | object name => exact ⟨'L', name ++ [';'], rfl, by decide, by decide⟩

/-- Different types are written differently. -/
theorem chars_injective {t u : FieldType} (ht : t.WellFormed) (hu : u.WellFormed)
    (h : t.chars = u.chars) : t = u := by
  have hread := read?_chars_append ht []
  rw [h, read?_chars_append hu []] at hread
  exact (Prod.mk.inj (Option.some.inj hread)).1.symm

/-- **The wide numbers take two local variables**, and all other values one, arrays of wide numbers
    among them. -/
theorem slots_eq {t : FieldType} (ht : t.WellFormed) : t.slots = slotsOfText t.text := by
  have hwide : ∀ b : BaseType, t.text = String.ofList [b.letter] ↔ t = ⟨0, .base b⟩ := by
    intro b
    refine ⟨fun h => ?_, fun h => h ▸ rfl⟩
    have hchars : t.chars = (FieldType.mk 0 (.base b)).chars := String.ofList_injective h
    exact chars_injective ht trivial hchars
  have hlong := hwide .long
  have hdouble := hwide .double
  unfold slotsOfText
  by_cases h : t = ⟨0, .base .long⟩ ∨ t = ⟨0, .base .double⟩
  · rcases h with rfl | rfl <;> rfl
  · have hnarrow : ¬ (t.text = "J" ∨ t.text = "D") := fun h' => h (h'.imp hlong.1 hdouble.1)
    rw [if_neg hnarrow]
    unfold slots
    split
    · exact absurd (.inl rfl) h
    · exact absurd (.inr rfl) h
    · rfl

end FieldType

theorem isFieldText_iff {text : String} :
    IsFieldText text ↔ ∃ t : FieldType, t.WellFormed ∧ t.text = text := by
  unfold IsFieldText
  rw [FieldType.grammar_iff]
  refine exists_congr fun t => and_congr_right fun _ => ⟨fun h => ?_, fun h => ?_⟩
  · rw [FieldType.text, h, String.ofList_toList]
  · rw [← h, FieldType.text, String.toList_ofList]

/-- Texts of the grammar are the texts of well-formed types, one for each. -/
theorem exists_types {texts : List String} :
    (∀ s ∈ texts, IsFieldText s) ↔
      ∃ types : List FieldType, (∀ t ∈ types, t.WellFormed) ∧ types.map FieldType.text = texts := by
  refine ⟨fun h => ?_, fun h => ?_⟩
  · induction texts with
    | nil => exact ⟨[], fun _ ht => absurd ht List.not_mem_nil, rfl⟩
    | cons s texts ih =>
      obtain ⟨hs, hrest⟩ := List.forall_mem_cons.1 h
      obtain ⟨t, ht, rfl⟩ := isFieldText_iff.1 hs
      obtain ⟨types, htypes, rfl⟩ := ih hrest
      exact ⟨t :: types, List.forall_mem_cons.2 ⟨ht, htypes⟩, rfl⟩
  · obtain ⟨types, htypes, rfl⟩ := h
    intro s hs
    obtain ⟨t, ht, rfl⟩ := List.mem_map.1 hs
    exact isFieldText_iff.2 ⟨t, htypes t ht, rfl⟩

/-! ## 3. The scanners -/

/-- **Parameters are read exactly up to the parenthesis behind them.** The induction is on `room`,
    which is more than the characters ahead because each type takes at least one. -/
theorem readParameters_eq_some_iff {room : Nat} {cs behind : List Char}
    {done types : List FieldType} (hroom : cs.length < room) :
    readParameters room cs done = some (types, behind) ↔
      ∃ more, types = done.reverse ++ more ∧ (∀ t ∈ more, t.WellFormed) ∧
        cs = more.flatMap FieldType.chars ++ ')' :: behind := by
  induction room generalizing cs done with
  | zero => exact absurd hroom (Nat.not_lt_zero _)
  | succ room ih =>
    unfold readParameters
    split
    · -- no type starts with the parenthesis, so there is no further one
      rename_i tail
      refine ⟨fun h => ?_, fun h => ?_⟩
      · cases h
        exact ⟨[], (List.append_nil _).symm, fun _ ht => absurd ht List.not_mem_nil, rfl⟩
      · obtain ⟨more, rfl, _, hcs⟩ := h
        cases more with
        | nil =>
          cases hcs
          rw [List.append_nil]
        | cons t more =>
          obtain ⟨c, rest, hchars, hc, _⟩ := t.chars_eq_cons
          rw [List.flatMap_cons, hchars] at hcs
          exact absurd (List.cons.inj hcs).1.symm hc
    · rename_i hclose
      cases hread : FieldType.read? cs with
      | none =>
        refine ⟨fun h => (nomatch h), fun h => ?_⟩
        obtain ⟨more, _, hwf, hcs⟩ := h
        cases more with
        | nil => exact absurd hcs (hclose behind)
        | cons t more =>
          rw [hcs, List.flatMap_cons, List.append_assoc,
            FieldType.read?_chars_append (hwf t List.mem_cons_self)] at hread
          exact nomatch hread
      | some p =>
        obtain ⟨t, rest⟩ := p
        obtain ⟨ht, hcs⟩ := FieldType.eq_chars_of_read? hread
        have hrest : rest.length < room := by
          obtain ⟨c, tail, hchars, _⟩ := t.chars_eq_cons
          rw [hcs, hchars, List.length_append, List.length_cons] at hroom
          omega
        simp only [ih hrest, List.reverse_cons, List.append_assoc, List.singleton_append]
        refine ⟨fun h => ?_, fun h => ?_⟩
        · obtain ⟨more, htypes, hwf, hmore⟩ := h
          refine ⟨t :: more, htypes, List.forall_mem_cons.2 ⟨ht, hwf⟩, ?_⟩
          rw [hcs, hmore, List.flatMap_cons, List.append_assoc]
        · obtain ⟨more, htypes, hwf, hmore⟩ := h
          cases more with
          | nil => exact absurd hmore (hclose behind)
          | cons u more =>
            obtain ⟨hu, hmoreWf⟩ := List.forall_mem_cons.1 hwf
            rw [hmore, List.flatMap_cons, List.append_assoc,
              FieldType.read?_chars_append hu] at hread
            cases hread
            exact ⟨more, htypes, hmoreWf, rfl⟩

namespace ResultType

/-- The type can be written. -/
def WellFormed : ResultType → Prop
  | .void => True
  | .value t => t.WellFormed

/-- **A text is a result type exactly if that type is written so.** -/
theorem ofChars?_eq_some_iff {cs : List Char} {r : ResultType} :
    ofChars? cs = some r ↔ r.WellFormed ∧ r.chars = cs := by
  unfold ofChars?
  by_cases hvoid : cs = ['V']
  · rw [if_pos hvoid, hvoid]
    cases r with
    | void => exact ⟨fun _ => ⟨trivial, rfl⟩, fun _ => rfl⟩
    | value t =>
      refine ⟨fun h => (nomatch h), fun h => ?_⟩
      obtain ⟨c, rest, hchars, _, hc⟩ := t.chars_eq_cons
      have hcs : c :: rest = ['V'] := hchars.symm.trans h.2
      exact absurd (List.cons.inj hcs).1 hc
  · rw [if_neg hvoid]
    refine ⟨fun h => ?_, fun h => ?_⟩
    · split at h
      · rename_i t hread
        cases h
        obtain ⟨ht, hcs⟩ := FieldType.eq_chars_of_read? hread
        exact ⟨ht, by rw [hcs, List.append_nil, chars]⟩
      · exact nomatch h
    · cases r with
      | void => exact absurd h.2.symm hvoid
      | value t =>
        obtain ⟨ht, rfl⟩ := h
        have hread := FieldType.read?_chars_append ht []
        rw [List.append_nil] at hread
        rw [chars, hread]

theorem isResultText_iff {text : String} :
    IsResultText text ↔ ∃ r : ResultType, r.WellFormed ∧ r.text = text := by
  unfold IsResultText
  rw [isFieldText_iff]
  refine ⟨fun h => ?_, fun h => ?_⟩
  · rcases h with rfl | ⟨t, ht, rfl⟩
    · exact ⟨.void, trivial, rfl⟩
    · exact ⟨.value t, ht, rfl⟩
  · obtain ⟨r, hr, rfl⟩ := h
    cases r with
    | void => exact .inl rfl
    | value t => exact .inr ⟨t, hr, rfl⟩

end ResultType

/-! ## 4. Descriptors -/

namespace Descriptor

variable {d : Descriptor}

theorem meaning_eq_ok_iff {α : Type} {part : Option α} {a : α} :
    d.meaning part = .ok a ↔ part = some a := by
  cases part with
  | none => exact ⟨fun h => (nomatch h), fun h => (nomatch h)⟩
  | some b => exact ⟨fun h => by cases h; rfl, fun h => by cases h; rfl⟩

/-- Whatever is asked of a descriptor, it is refused as a whole. -/
theorem eq_invalidDescriptor_of_meaning {α : Type} {part : Option α} {e : DecodeError}
    (h : d.meaning part = .error e) : e = .invalidDescriptor d.text := by
  cases part with
  | none => cases h; rfl
  | some b => exact nomatch h

/-- What is asked of a descriptor and not answered is refused. -/
theorem meaning_eq_error {α : Type} {part : Option α} (h : ¬ (d.meaning part).Succeeds) :
    d.meaning part = .error (.invalidDescriptor d.text) := by
  cases part with
  | none => rfl
  | some a => exact absurd ⟨a, rfl⟩ h

/-- A descriptor that is shown is written as a type that is shown so. -/
theorem displayName_eq_ok_iff {shown : String} : d.displayName = .ok shown ↔
    ∃ r : ResultType, r.WellFormed ∧ r.text = d.text ∧ r.displayName = shown := by
  have htext : ∀ r : ResultType, r.chars = d.chars ↔ r.text = d.text := by
    intro r
    rw [ResultType.text, chars, ← String.toList_inj, String.toList_ofList]
  unfold displayName
  rw [meaning_eq_ok_iff, Option.map_eq_some_iff]
  simp only [ResultType.ofChars?_eq_some_iff, htext, and_assoc]

/-- The characters of a method's text are those of its parts. -/
theorem chars_eq_iff {types : List FieldType} {behind : List Char} :
    d.chars = '(' :: (types.flatMap FieldType.chars ++ ')' :: behind) ↔
      d.text = methodText (types.map FieldType.text) (String.ofList behind) := by
  have hjoin : (String.join (types.map FieldType.text)).toList =
      types.flatMap FieldType.chars := by
    rw [String.toList_join, List.flatMap_map]
    refine congrArg (List.flatMap · types) (funext fun t => ?_)
    rw [FieldType.text, String.toList_ofList]
  have htext : (methodText (types.map FieldType.text) (String.ofList behind)).toList =
      '(' :: (types.flatMap FieldType.chars ++ ')' :: behind) := by
    have hopen : "(".toList = ['('] := rfl
    have hclose : ")".toList = [')'] := rfl
    unfold methodText
    rw [String.toList_append, String.toList_append, String.toList_append, hjoin, hopen, hclose,
      String.toList_ofList]
    exact List.append_assoc ('(' :: types.flatMap FieldType.chars) [')'] behind
  rw [chars, ← htext, String.toList_inj]

/-- What is read of a method descriptor: well-formed types, and the text behind them. -/
theorem parameters?_eq_some_iff {types : List FieldType} {behind : List Char} :
    d.parameters? = some (types, behind) ↔ (∀ t ∈ types, t.WellFormed) ∧
      d.text = methodText (types.map FieldType.text) (String.ofList behind) := by
  rw [← chars_eq_iff]
  unfold parameters?
  split
  · rename_i rest hchars
    rw [readParameters_eq_some_iff (Nat.lt_succ_self _), hchars]
    refine ⟨fun h => ?_, fun h => ?_⟩
    · obtain ⟨more, rfl, hwf, rfl⟩ := h
      exact ⟨hwf, rfl⟩
    · obtain ⟨hwf, hrest⟩ := h
      exact ⟨types, rfl, hwf, (List.cons.inj hrest).2⟩
  · rename_i hopen
    refine ⟨fun h => (nomatch h), fun h => ?_⟩
    exact absurd h.2 (hopen _)

/-- The parameters of a descriptor, told by the grammar. -/
theorem parameterTypes_eq_ok_iff {types : List FieldType} :
    d.parameterTypes = .ok types ↔ (∀ t ∈ types, t.WellFormed) ∧
      ∃ behind, d.text = methodText (types.map FieldType.text) behind := by
  unfold parameterTypes
  rw [meaning_eq_ok_iff, Option.map_eq_some_iff]
  refine ⟨fun h => ?_, fun h => ?_⟩
  · obtain ⟨⟨_, behind⟩, hparts, rfl⟩ := h
    obtain ⟨hwf, htext⟩ := parameters?_eq_some_iff.1 hparts
    exact ⟨hwf, _, htext⟩
  · obtain ⟨hwf, behind, htext⟩ := h
    refine ⟨(types, behind.toList), parameters?_eq_some_iff.2 ⟨hwf, ?_⟩, rfl⟩
    rw [htext, String.ofList_toList]

/-- The result of a descriptor, told by the grammar. -/
theorem resultType_eq_ok_iff {r : ResultType} :
    d.resultType = .ok r ↔ r.WellFormed ∧ ∃ types : List FieldType, (∀ t ∈ types, t.WellFormed) ∧
      d.text = methodText (types.map FieldType.text) r.text := by
  unfold resultType
  rw [meaning_eq_ok_iff, Option.bind_eq_some_iff]
  refine ⟨fun h => ?_, fun h => ?_⟩
  · obtain ⟨⟨types, behind⟩, hparts, hresult⟩ := h
    obtain ⟨hwf, htext⟩ := parameters?_eq_some_iff.1 hparts
    obtain ⟨hr, rfl⟩ := ResultType.ofChars?_eq_some_iff.1 hresult
    exact ⟨hr, types, hwf, htext⟩
  · obtain ⟨hr, types, hwf, htext⟩ := h
    exact ⟨(types, r.chars), parameters?_eq_some_iff.2 ⟨hwf, htext⟩,
      ResultType.ofChars?_eq_some_iff.2 ⟨hr, rfl⟩⟩

/-- The local variables of the arguments, summed up. -/
theorem argumentSlots_eq {types : List FieldType} (h : d.parameterTypes = .ok types)
    (isStatic : Bool) : d.argumentSlots isStatic =
      .ok ((if isStatic then 0 else 1) + ((types.map FieldType.text).map slotsOfText).sum) := by
  have hwf := (parameterTypes_eq_ok_iff.1 h).1
  have hfold : ∀ start : Nat, types.foldl (fun n t => n + t.slots) start =
      start + ((types.map FieldType.text).map slotsOfText).sum := by
    clear h
    induction types with
    | nil => exact fun start => rfl
    | cons t types ih =>
      intro start
      obtain ⟨ht, hrest⟩ := List.forall_mem_cons.1 hwf
      rw [List.foldl_cons, ih hrest, FieldType.slots_eq ht, List.map_cons, List.map_cons,
        List.sum_cons, Nat.add_assoc]
  unfold argumentSlots
  rw [h, ← hfold]
  rfl

/-- **Descriptors are taken apart by the grammar, and in one way only.** The parameters are just
    the texts of field types between the first parenthesis and the one that closes it, whatever
    follows; the result is what follows, if it is the text of a result type; the arguments take as
    many local variables as the parameters say; what is written as parameters and a result is split
    into just these; and wherever an answer is refused, the fault tells the whole descriptor. -/
theorem splits_by_grammar (d : Descriptor) :
    (∀ texts : List String, List.map FieldType.text <$> d.parameterTypes = .ok texts ↔
      (∀ s ∈ texts, IsFieldText s) ∧ ∃ behind, d.text = methodText texts behind) ∧
    (∀ result : String, ResultType.text <$> d.resultType = .ok result ↔
      IsResultText result ∧
        ∃ texts : List String, (∀ s ∈ texts, IsFieldText s) ∧ d.text = methodText texts result) ∧
    (∀ (texts : List String) (isStatic : Bool),
      List.map FieldType.text <$> d.parameterTypes = .ok texts →
        d.argumentSlots isStatic =
          .ok ((if isStatic then 0 else 1) + (texts.map slotsOfText).sum)) ∧
    (∀ (texts : List String) (result : String), (∀ s ∈ texts, IsFieldText s) →
      IsResultText result → d.text = methodText texts result →
        List.map FieldType.text <$> d.parameterTypes = .ok texts ∧
        ResultType.text <$> d.resultType = .ok result) ∧
    (∀ e, d.parameterTypes = .error e → e = .invalidDescriptor d.text) ∧
    (∀ e, d.resultType = .error e → e = .invalidDescriptor d.text) ∧
    ∀ isStatic e, d.argumentSlots isStatic = .error e → e = .invalidDescriptor d.text := by
  have hparameters : ∀ texts : List String,
      List.map FieldType.text <$> d.parameterTypes = .ok texts ↔
        (∀ s ∈ texts, IsFieldText s) ∧ ∃ behind, d.text = methodText texts behind := by
    intro texts
    rw [Outcome.map_eq_ok_iff, exists_types]
    refine ⟨fun h => ?_, fun h => ?_⟩
    · obtain ⟨types, htypes, rfl⟩ := h
      obtain ⟨hwf, htext⟩ := parameterTypes_eq_ok_iff.1 htypes
      exact ⟨⟨types, hwf, rfl⟩, htext⟩
    · obtain ⟨⟨types, hwf, rfl⟩, htext⟩ := h
      exact ⟨types, parameterTypes_eq_ok_iff.2 ⟨hwf, htext⟩, rfl⟩
  have hresult : ∀ result : String, ResultType.text <$> d.resultType = .ok result ↔
      IsResultText result ∧ ∃ texts : List String, (∀ s ∈ texts, IsFieldText s) ∧
        d.text = methodText texts result := by
    intro result
    rw [Outcome.map_eq_ok_iff, ResultType.isResultText_iff]
    refine ⟨fun h => ?_, fun h => ?_⟩
    · obtain ⟨r, hr, rfl⟩ := h
      obtain ⟨hwf, types, htypes, htext⟩ := resultType_eq_ok_iff.1 hr
      exact ⟨⟨r, hwf, rfl⟩, _, exists_types.2 ⟨types, htypes, rfl⟩, htext⟩
    · obtain ⟨⟨r, hwf, rfl⟩, texts, htexts, htext⟩ := h
      obtain ⟨types, htypes, rfl⟩ := exists_types.1 htexts
      exact ⟨r, resultType_eq_ok_iff.2 ⟨hwf, types, htypes, htext⟩, rfl⟩
  refine ⟨hparameters, hresult, fun texts isStatic h => ?_, fun texts result h hr htext => ?_,
    fun e h => eq_invalidDescriptor_of_meaning h, fun e h => eq_invalidDescriptor_of_meaning h,
    fun isStatic e h => ?_⟩
  · obtain ⟨types, htypes, rfl⟩ := Outcome.map_eq_ok_iff.1 h
    exact argumentSlots_eq htypes isStatic
  · exact ⟨(hparameters texts).2 ⟨h, result, htext⟩, (hresult result).2 ⟨hr, texts, h, htext⟩⟩
  · cases htypes : d.parameterTypes with
    | ok types => exact nomatch h.symm.trans (argumentSlots_eq htypes isStatic)
    | error e' =>
      have hslots : d.argumentSlots isStatic = .error e' := by
        unfold argumentSlots
        rw [htypes]
        rfl
      obtain rfl : e' = e := Except.error.inj (hslots.symm.trans h)
      exact eq_invalidDescriptor_of_meaning htypes

/-- Class names that hold the parentheses around them, and an array of a wide number. -/
theorem splits_by_grammar_parentheses :
    let d : Descriptor := ⟨methodText ["La)b;", "[J", "D"] "L(;"⟩
    d.text = "(La)b;[JD)L(;" ∧
      List.map FieldType.text <$> d.parameterTypes = .ok ["La)b;", "[J", "D"] ∧
      ResultType.text <$> d.resultType = .ok "L(;" ∧ d.argumentSlots false = .ok 5 := by
  intro d
  obtain ⟨_, _, hslots, hsplit, _⟩ := splits_by_grammar d
  have htexts : ∀ s ∈ ["La)b;", "[J", "D"], IsFieldText s := by
    have hobject : FieldGrammar ['L', 'a', ')', 'b', ';'] :=
      @FieldGrammar.object ['a', ')', 'b'] (by decide) (by decide)
    have harray : FieldGrammar ['[', 'J'] := .array (.base (by decide))
    have hbase : FieldGrammar ['D'] := .base (by decide)
    simp only [List.forall_mem_cons]
    exact ⟨hobject, harray, hbase, fun _ h => absurd h List.not_mem_nil⟩
  have hresult : IsResultText "L(;" :=
    .inr (@FieldGrammar.object ['('] (by decide) (by decide))
  obtain ⟨hparameters, hvalue⟩ := hsplit _ _ htexts hresult rfl
  exact ⟨by decide, hparameters, hvalue, hslots _ false hparameters⟩

end Descriptor

end ClassView
