import ClassView.Listing.Basic
import ClassView.Proofs.Descriptor.DisplayName

/-!
# Parameters in the declaration of a method

A method that takes any number of arguments takes them as an array, and its declaration shows dots
in place of the last pair of brackets. Whether there is such a pair is told from the name that is
shown, not from the type. The two agree for every array, and for every other type but one kind: a
class whose own name ends in brackets.

* `FieldType.arrayOf`, `FieldType.bracketed`: an array of such values, and a class that has the name
  of one;
* `FieldType.exists_arrayOf_iff`, `FieldType.endsInBrackets_of_suffix`: the texts of arrays start
  with a bracket, and no name ends in one but theirs and those of such classes;
* `ShownParameters`: what parameters of given types are shown as;
* `anyNumber_append`, `anyNumber_of_not_suffix`: what becomes of a name;
* **`shownParameters_iff`**: the names in a declaration are these;
* **`methodDeclaration_parameters`**: the declaration of a method, with its parameters.
-/

namespace ClassView

open Outcome

/-! ## 1. Types and what they are shown as -/

/-- The array of values of the type. -/
def FieldType.arrayOf (t : FieldType) : FieldType := ⟨t.dimensions + 1, t.element⟩

/-- A class whose name ends as that of an array does. -/
def FieldType.bracketed (stem : List Char) : FieldType := ⟨0, .object (stem ++ ['[', ']'])⟩

/-- The name of the type ends in brackets: it is an array, or a class with the name of one. -/
def FieldType.EndsInBrackets (t : FieldType) : Prop :=
  (∃ component, t = FieldType.arrayOf component) ∨ ∃ stem, t = .bracketed stem

/-- What the parameters of a method are shown as: their names, but for the last one of a method that
    takes any number of arguments. -/
inductive ShownParameters : (varargs : Bool) → List FieldType → List String → Prop
  | array (front : List FieldType) (component : FieldType) :
      ShownParameters true (front ++ [component.arrayOf])
        (front.map FieldType.displayName ++ [component.displayName ++ "..."])
  | bracketed (front : List FieldType) (stem : List Char) :
      ShownParameters true (front ++ [.bracketed stem])
        (front.map FieldType.displayName ++ [displayName (String.ofList stem) ++ "..."])
  | plain {varargs : Bool} {types : List FieldType}
      (other : varargs = true → ∀ t, types.getLast? = some t → ¬ t.EndsInBrackets) :
      ShownParameters varargs types (types.map FieldType.displayName)

namespace FieldType

/-- The arrays are the types whose text starts with a bracket. -/
theorem exists_arrayOf_iff {t : FieldType} :
    (∃ component, t = arrayOf component) ↔ t.chars.head? = some '[' := by
  obtain ⟨n, e⟩ := t
  cases n with
  | succ n =>
    rw [chars_succ]
    exact ⟨fun _ => rfl, fun _ => ⟨⟨n, e⟩, rfl⟩⟩
  | zero =>
    obtain ⟨c, cs, hchars, hc⟩ := e.chars_eq_cons
    have hfirst : (FieldType.mk 0 e).chars.head? = some c := congrArg List.head? hchars
    rw [hfirst]
    constructor
    · intro h
      obtain ⟨component, hcomponent⟩ := h
      exact nomatch congrArg dimensions hcomponent
    · exact fun h => absurd (Option.some.inj h) hc

/-- The name of an array has a pair of brackets more. -/
theorem displayName_arrayOf (t : FieldType) : t.arrayOf.displayName = t.displayName ++ "[]" := by
  have hone : String.join ["[]"] = "[]" := by decide
  have hpairs : bracketPairs (t.dimensions + 1) = bracketPairs t.dimensions ++ "[]" := by
    rw [bracketPairs, List.replicate_succ', String.join_append, hone]
    rfl
  rw [displayName_eq, displayName_eq, arrayOf, hpairs, String.append_assoc]

/-- The name of a class is told character by character. -/
theorem toList_displayName_object (name : List Char) :
    (FieldType.mk 0 (.object name)).displayName.toList =
      name.map fun c => if c = '/' then '.' else c := by
  have hnone : bracketPairs 0 = "" := rfl
  rw [displayName_eq, hnone, String.append_empty, ElementType.displayName, ClassView.displayName,
    String.toList_map, String.toList_ofList]

theorem displayName_bracketed (stem : List Char) :
    (bracketed stem).displayName = ClassView.displayName (String.ofList stem) ++ "[]" := by
  rw [← String.toList_inj, bracketed, toList_displayName_object, List.map_append,
    String.toList_append, ClassView.displayName, String.toList_map, String.toList_ofList]
  rfl

end FieldType

/-! ## 2. Names that end in brackets -/

theorem anyNumber_append (s : String) : anyNumber (s ++ "[]") = s ++ "..." := by
  have hchars : (s ++ "[]").toList = s.toList ++ ['[', ']'] := String.toList_append
  have hlength : (s ++ "[]").length - 2 = s.toList.length := by
    rw [String.length_append, String.length_toList]
    exact Nat.add_sub_cancel _ 2
  unfold anyNumber
  rw [hchars, if_pos (List.isSuffixOf_iff_suffix.2 (List.suffix_append _ _)), hlength,
    List.take_left, String.ofList_toList]

theorem anyNumber_of_not_suffix {s : String} (h : ¬ ['[', ']'] <:+ s.toList) : anyNumber s = s := by
  unfold anyNumber
  rw [if_neg (mt List.isSuffixOf_iff_suffix.1 h)]

/-- No other name of a type ends in brackets. -/
theorem FieldType.endsInBrackets_of_suffix {t : FieldType}
    (h : ['[', ']'] <:+ t.displayName.toList) : t.EndsInBrackets := by
  obtain ⟨n, e⟩ := t
  cases n with
  | succ n => exact .inl ⟨⟨n, e⟩, rfl⟩
  | zero =>
    cases e with
    | base b => cases b <;> exact absurd h (by decide)
    | object name =>
      obtain ⟨front, hfront⟩ := h
      rw [toList_displayName_object, eq_comm, List.map_eq_append_iff] at hfront
      obtain ⟨stem, last, rfl, _, hlast⟩ := hfront
      have hkept : ∀ {c x : Char}, (if c = '/' then '.' else c) = x → x ≠ '.' → c = x := by
        intro c x h hx
        by_cases hslash : c = '/'
        · exact absurd ((if_pos hslash).symm.trans h).symm hx
        · exact (if_neg hslash).symm.trans h
      obtain ⟨a, more, rfl, ha, hmore⟩ := List.map_eq_cons_iff.1 hlast
      obtain ⟨b, none, rfl, hb, hnone⟩ := List.map_eq_cons_iff.1 hmore
      rw [hkept ha (by decide), hkept hb (by decide), List.map_eq_nil_iff.1 hnone]
      exact .inr ⟨stem, rfl⟩

/-! ## 3. Parameters -/

section Parameters

variable {varargs : Bool} {types : List FieldType} {shown : List String}

theorem parameterNames_concat (front : List FieldType) (t : FieldType) :
    parameterNames (front ++ [t]) true =
      front.map FieldType.displayName ++ [anyNumber t.displayName] := by
  unfold parameterNames
  dsimp only
  rw [List.map_append, List.map_singleton, List.getLast?_concat]
  exact congrArg (· ++ [anyNumber t.displayName]) List.dropLast_concat

theorem parameterNames_of_other
    (h : varargs = true → ∀ t, types.getLast? = some t → ¬ t.EndsInBrackets) :
    parameterNames types varargs = types.map FieldType.displayName := by
  cases varargs with
  | false => rfl
  | true =>
    obtain rfl | ⟨front, t, rfl⟩ := types.eq_nil_or_concat
    · rfl
    · rw [List.concat_eq_append] at h ⊢
      have hends : ¬ t.EndsInBrackets := h rfl t List.getLast?_concat
      have hname : anyNumber t.displayName = t.displayName :=
        anyNumber_of_not_suffix (mt FieldType.endsInBrackets_of_suffix hends)
      rw [parameterNames_concat, hname, List.map_append, List.map_singleton]

/-- Parameters are shown in one way. -/
theorem ShownParameters.eq (h : ShownParameters varargs types shown) :
    shown = parameterNames types varargs := by
  cases h with
  | array front component =>
    rw [parameterNames_concat, FieldType.displayName_arrayOf, anyNumber_append]
  | bracketed front stem =>
    rw [parameterNames_concat, FieldType.displayName_bracketed, anyNumber_append]
  | plain other => exact (parameterNames_of_other other).symm

/-- All parameters are shown. -/
theorem exists_shownParameters (varargs : Bool) (types : List FieldType) :
    ∃ shown, ShownParameters varargs types shown := by
  cases varargs with
  | false => exact ⟨_, .plain fun h => nomatch h⟩
  | true =>
    obtain rfl | ⟨front, t, rfl⟩ := types.eq_nil_or_concat
    · exact ⟨_, .plain fun _ _ h => nomatch h⟩
    · rw [List.concat_eq_append]
      by_cases hends : t.EndsInBrackets
      · obtain ⟨component, rfl⟩ | ⟨stem, rfl⟩ := hends
        · exact ⟨_, .array front component⟩
        · exact ⟨_, .bracketed front stem⟩
      · refine ⟨_, .plain fun _ u hu => ?_⟩
        obtain rfl := Option.some.inj (List.getLast?_concat.symm.trans hu)
        exact hends

/-- **The names in a declaration are those of the types**, in the way of their last one. -/
theorem shownParameters_iff :
    ShownParameters varargs types shown ↔ shown = parameterNames types varargs := by
  refine ⟨ShownParameters.eq, ?_⟩
  rintro rfl
  obtain ⟨shown, hshown⟩ := exists_shownParameters varargs types
  exact hshown.eq ▸ hshown

end Parameters

/-! ## 4. Declarations -/

variable {c : ClassFile} {m : Method} {name text : String}

/-- **The parameters of a declaration.** What is declared of a method, other than the one that
    initialises a class, is its keywords, its head, its parameters in their order, and the
    exceptions it throws. The names of the parameters are those of their types. Only the last one
    of a method that takes any number of arguments is shown with dots, behind the name of its
    component if it is an array; and so is a class whose name ends in brackets, behind what stands
    in front of them. -/
theorem methodDeclaration_parameters (hname : m.nameIn c.pool = .ok name)
    (hclinit : name ≠ "<clinit>") (h : methodDeclaration c m = .ok text) :
    ∃ d types head clause shown, m.descriptorIn c.pool = .ok d ∧
      (Descriptor.mk d).parameterTypes = .ok types ∧ methodHead c name ⟨d⟩ = .ok head ∧
      throwsClause c.pool m = .ok clause ∧
      text = withKeywords m.access.keywords (head ++ "(" ++ ", ".intercalate shown ++ ")") ++
        clause ++ ";" ∧
      ShownParameters m.access.isVarargs types shown ∧
      ∀ t, t ∈ types ∨ t.arrayOf ∈ types →
        (Descriptor.mk t.text).displayName = .ok t.displayName := by
  unfold methodDeclaration at h
  obtain ⟨name', hname', h⟩ := bind_eq_ok_iff.1 h
  obtain rfl := Except.ok.inj (hname.symm.trans hname')
  rw [if_neg hclinit] at h
  obtain ⟨d, hd, h⟩ := bind_eq_ok_iff.1 h
  obtain ⟨types, htypes, h⟩ := bind_eq_ok_iff.1 h
  obtain ⟨head, hhead, h⟩ := bind_eq_ok_iff.1 h
  obtain ⟨clause, hclause, h⟩ := bind_eq_ok_iff.1 h
  have hwf := (Descriptor.parameterTypes_eq_ok_iff.1 htypes).1
  refine ⟨d, types, head, clause, _, hd, htypes, hhead, hclause, (Except.ok.inj h).symm,
    shownParameters_iff.2 rfl, fun t ht => ?_⟩
  refine Descriptor.displayName_of_wellFormed (r := .value t) ?_
  obtain ht | ht := ht
  · exact hwf t ht
  · exact hwf t.arrayOf ht

/-- A method that takes any number of arguments. -/
def anyMethod : Method := ⟨⟨0x80⟩, 3, 4, []⟩

/-- A class with just this method, which has the descriptor. -/
def anyArguments (descriptor : String) : ClassFile where
  magic := classMagic
  minorVersion := 0
  majorVersion := 52
  pool := ⟨#[none, some (.utf8 "A"), some (.classRef 1), some (.utf8 "m"),
    some (.utf8 descriptor)]⟩
  access := ⟨0⟩
  thisClass := 2
  superClass := 0
  interfaces := []
  fields := []
  methods := [anyMethod]
  attributes := []

/-- A number, and any number of arrays. -/
theorem methodDeclaration_parameters_arrays :
    let c := anyArguments "(I[[LA;)V"
    anyMethod ∈ c.methods ∧ anyMethod.nameIn c.pool = .ok "m" ∧
    methodDeclaration c anyMethod = .ok "void m(int, A[]...);" ∧
    ∃ shown, ShownParameters true [⟨0, .base .int⟩, ⟨2, .object ['A']⟩] shown ∧
      "void m(int, A[]...);" = withKeywords anyMethod.access.keywords
        ("void m" ++ "(" ++ ", ".intercalate shown ++ ")") ++ "" ++ ";" := by
  intro c
  have hname : anyMethod.nameIn c.pool = .ok "m" := rfl
  have htext : methodDeclaration c anyMethod = .ok "void m(int, A[]...);" := by decide +kernel
  obtain ⟨d, types, head, clause, shown, hd, htypes, hhead, hclause, hdeclared, hshown, _⟩ :=
    methodDeclaration_parameters hname (by decide) htext
  cases hd
  cases htypes
  cases hhead
  cases hclause
  exact ⟨List.mem_singleton_self _, hname, htext, shown, hshown, hdeclared⟩

/-- The same with a class whose name ends in brackets, as it is stored. -/
def bracketedArgument : List UInt8 :=
  [0xca, 0xfe, 0xba, 0xbe, 0, 0, 0, 52, 0, 5, 1, 0, 1, 65, 7, 0, 1, 1, 0, 1, 109,
    1, 0, 8, 40, 76, 66, 91, 93, 59, 41, 86, 0, 0, 0, 2, 0, 0, 0, 0,
    0, 0, 0, 1, 0, 128, 0, 3, 0, 4, 0, 0, 0, 0]

/-- The parameter is no array, and it is shown as if it were one. -/
theorem listing_of_bracketed_argument :
    ClassFile.parse bracketedArgument = .ok (anyArguments "(LB[];)V") ∧
    (∃ t, Descriptor.parameterTypes ⟨"(LB[];)V"⟩ = .ok [t] ∧ t.text = "LB[];" ∧
      t.dimensions = 0 ∧ (Descriptor.mk t.text).displayName = .ok "B[]") ∧
    disassemble .plain bracketedArgument = .ok "class A \x7b\n  void m(B...);\n\x7d\n" := by
  refine ⟨rfl, ⟨.bracketed ['B'], rfl, by decide, rfl, by decide +kernel⟩, by decide +kernel⟩

end ClassView
