import ClassView.Proofs.Descriptor.Grammar

/-!
# Types as a source file shows them

A type is shown as the word for its elements, with a pair of brackets for each dimension behind it.
The text is accepted by one scanner and cut up by other code, which looks at the brackets in front
only; the two agree for every text.

* `ElementWord`: the texts of element types, and the words they are shown as;
* `TypeText`: the texts of types in three parts: dimensions, elements, and the word for these;
* `typeText_iff`: they are the texts of the well-formed types;
* `Descriptor.displayName_append_eq_error`: a type with anything behind it is refused;
* **`Descriptor.shown_by_grammar`**: what a descriptor is shown as is told by the three parts, every
  other descriptor is refused, and all types of a method's descriptor are shown.
-/

namespace ClassView

/-! ## 1. Texts and words -/

/-- The text of an element type, and the word it is shown as. -/
inductive ElementWord : String → String → Prop
  | byte : ElementWord "B" "byte"
  | char : ElementWord "C" "char"
  | double : ElementWord "D" "double"
  | float : ElementWord "F" "float"
  | int : ElementWord "I" "int"
  | long : ElementWord "J" "long"
  | short : ElementWord "S" "short"
  | boolean : ElementWord "Z" "boolean"
  | object {name : String} (nonempty : name ≠ "") (unended : ';' ∉ name.toList) :
      ElementWord ("L" ++ name ++ ";") (displayName name)

/-- The brackets in front of the elements, one for each dimension. -/
def openBrackets (n : Nat) : String := String.ofList (List.replicate n '[')

/-- The brackets behind the word, a pair for each dimension. -/
def bracketPairs (n : Nat) : String := String.join (List.replicate n "[]")

/-- A text of no value, or of a type: how many dimensions it has, the text of its elements and the
    word these are shown as. -/
inductive TypeText : String → Nat → String → String → Prop
  | void : TypeText "V" 0 "V" "void"
  | value {n : Nat} {element word : String} (known : ElementWord element word) :
      TypeText (openBrackets n ++ element) n element word

/-! ## 2. Texts of types -/

variable {n : Nat} {element word text shown : String}

theorem ElementType.ofList_chars_object (name : List Char) :
    String.ofList (ElementType.object name).chars = "L" ++ String.ofList name ++ ";" := by
  have hopen : "L" = String.ofList ['L'] := rfl
  have hclose : ";" = String.ofList [';'] := rfl
  rw [hopen, hclose, ← String.ofList_append, ← String.ofList_append]
  rfl

/-- The texts and words are those of the well-formed element types. -/
theorem elementWord_iff : ElementWord element word ↔ ∃ e : ElementType, e.WellFormed ∧
    String.ofList e.chars = element ∧ e.displayName = word := by
  constructor
  · intro h
    cases h with
    | byte => exact ⟨.base .byte, trivial, rfl, rfl⟩
    | char => exact ⟨.base .char, trivial, rfl, rfl⟩
    | double => exact ⟨.base .double, trivial, rfl, rfl⟩
    | float => exact ⟨.base .float, trivial, rfl, rfl⟩
    | int => exact ⟨.base .int, trivial, rfl, rfl⟩
    | long => exact ⟨.base .long, trivial, rfl, rfl⟩
    | short => exact ⟨.base .short, trivial, rfl, rfl⟩
    | boolean => exact ⟨.base .boolean, trivial, rfl, rfl⟩
    | @object name nonempty unended =>
      have hname : name.toList ≠ [] := fun h => nonempty (String.toList_eq_nil_iff.1 h)
      refine ⟨.object name.toList, ⟨hname, unended⟩, ?_, ?_⟩
      · rw [ElementType.ofList_chars_object, String.ofList_toList]
      · rw [ElementType.displayName, String.ofList_toList]
  · rintro ⟨e, hwf, rfl, rfl⟩
    cases e with
    | base b =>
      cases b with
      | byte => exact .byte
      | char => exact .char
      | double => exact .double
      | float => exact .float
      | int => exact .int
      | long => exact .long
      | short => exact .short
      | boolean => exact .boolean
    | object name =>
      obtain ⟨hne, hsemi⟩ := hwf
      rw [ElementType.ofList_chars_object]
      refine .object (fun h => hne ?_) ?_
      · exact String.ofList_eq_empty_iff.1 h
      · rwa [String.toList_ofList]

theorem FieldType.text_eq (t : FieldType) :
    t.text = openBrackets t.dimensions ++ String.ofList t.element.chars := by
  rw [text, chars, String.ofList_append]
  rfl

theorem FieldType.displayName_eq (t : FieldType) :
    t.displayName = t.element.displayName ++ bracketPairs t.dimensions := rfl

/-- The texts in three parts are those that well-formed types are written as. -/
theorem typeText_iff : TypeText text n element word ↔
    (text = "V" ∧ n = 0 ∧ element = "V" ∧ word = "void") ∨
    ∃ t : FieldType, t.WellFormed ∧ t.text = text ∧ t.dimensions = n ∧
      String.ofList t.element.chars = element ∧ t.element.displayName = word := by
  constructor
  · intro h
    cases h with
    | void => exact .inl ⟨rfl, rfl, rfl, rfl⟩
    | value known =>
      obtain ⟨e, hwf, rfl, rfl⟩ := elementWord_iff.1 known
      exact .inr ⟨⟨n, e⟩, hwf, FieldType.text_eq _, rfl, rfl, rfl⟩
  · rintro (⟨rfl, rfl, rfl, rfl⟩ | ⟨t, hwf, rfl, rfl, rfl, rfl⟩)
    · exact .void
    · rw [FieldType.text_eq]
      exact .value (elementWord_iff.2 ⟨t.element, hwf, rfl, rfl⟩)

/-! ## 3. Cutting up -/

namespace Descriptor

variable {d : Descriptor}

/-- The brackets in front of an element type end where it starts. -/
theorem takeWhile_dropWhile_chars (t : FieldType) :
    t.chars.takeWhile (· == '[') = List.replicate t.dimensions '[' ∧
      t.chars.dropWhile (· == '[') = t.element.chars := by
  obtain ⟨c, cs, hchars, hc⟩ := t.element.chars_eq_cons
  have hall : ∀ x ∈ List.replicate t.dimensions '[', (x == '[') = true := fun x hx =>
    beq_iff_eq.2 (List.eq_of_mem_replicate hx)
  have hstop : (c == '[') = false := beq_eq_false_iff_ne.2 hc
  rw [FieldType.chars, hchars, List.takeWhile_append_of_pos hall, List.dropWhile_append_of_pos hall,
    List.takeWhile_cons_of_neg (by rw [hstop]; decide), List.append_nil,
    List.dropWhile_cons_of_neg (by rw [hstop]; decide)]
  exact ⟨rfl, rfl⟩

theorem chars_of_text_eq {t : FieldType} (h : t.text = d.text) : d.chars = t.chars := by
  rw [chars, ← h, FieldType.text, String.toList_ofList]

/-- A descriptor in three parts is cut into them. -/
theorem cut_of_typeText (h : TypeText d.text n element word) :
    d.dimensions = n ∧ d.elementType.text = element := by
  obtain ⟨hd, rfl, rfl, rfl⟩ | ⟨t, _, htext, rfl, rfl, rfl⟩ := typeText_iff.1 h
  · unfold dimensions elementType chars
    rw [hd]
    exact ⟨rfl, rfl⟩
  · obtain ⟨hbrackets, helement⟩ := takeWhile_dropWhile_chars t
    unfold dimensions elementType
    rw [chars_of_text_eq htext, hbrackets, helement, List.length_replicate]
    exact ⟨rfl, rfl⟩

/-! ## 4. What a descriptor is shown as -/

/-- A descriptor in three parts is shown as the word and the brackets. -/
theorem displayName_of_typeText (h : TypeText d.text n element word) :
    d.displayName = .ok (word ++ bracketPairs n) := by
  rw [displayName_eq_ok_iff]
  obtain ⟨hd, rfl, rfl, rfl⟩ | ⟨t, hwf, htext, rfl, rfl, rfl⟩ := typeText_iff.1 h
  · exact ⟨.void, trivial, hd.symm, by decide⟩
  · exact ⟨.value t, hwf, htext, rfl⟩

/-- Only descriptors in three parts are shown. -/
theorem exists_typeText_of_displayName (h : d.displayName = .ok shown) :
    ∃ n element word, TypeText d.text n element word := by
  obtain ⟨r, hwf, htext, _⟩ := displayName_eq_ok_iff.1 h
  cases r with
  | void => exact ⟨0, "V", "void", typeText_iff.2 (.inl ⟨htext.symm, rfl, rfl, rfl⟩)⟩
  | value t => exact ⟨_, _, _, typeText_iff.2 (.inr ⟨t, hwf, htext, rfl, rfl, rfl⟩)⟩

/-- The elements of a descriptor have three parts themselves. -/
theorem typeText_element (h : TypeText text n element word) :
    TypeText element 0 element word := by
  cases h with
  | void => exact .void
  | value known =>
    have hnone : openBrackets 0 ++ element = element := String.empty_append
    exact hnone ▸ .value known

/-- Every other descriptor is refused. -/
theorem displayName_eq_error (h : ∀ n element word, ¬ TypeText d.text n element word) :
    d.displayName = .error (.invalidDescriptor d.text) := by
  refine meaning_eq_error fun hshown => ?_
  obtain ⟨shown, hshown⟩ := hshown
  obtain ⟨n, element, word, htext⟩ := exists_typeText_of_displayName hshown
  exact h n element word htext

/-- No type is written as another one with something behind it. -/
theorem eq_nil_of_chars_append {r s : ResultType} {more : List Char} (hr : r.WellFormed)
    (hs : s.WellFormed) (h : r.chars ++ more = s.chars) : more = [] := by
  cases r with
  | void =>
    cases s with
    | void => exact (List.cons.inj h).2
    | value u =>
      obtain ⟨c, cs, hchars, _, hc⟩ := u.chars_eq_cons
      exact absurd (List.cons.inj (h.trans hchars)).1.symm hc
  | value t =>
    cases s with
    | void =>
      obtain ⟨c, cs, hchars, _, hc⟩ := t.chars_eq_cons
      have hfirst : t.chars ++ more = ['V'] := h
      rw [hchars] at hfirst
      exact absurd (List.cons.inj hfirst).1 hc
    | value u =>
      have hsame : t.chars ++ more = u.chars ++ [] := h.trans (List.append_nil _).symm
      have hread := FieldType.read?_chars_append hr more
      rw [hsame, FieldType.read?_chars_append hs] at hread
      exact (Prod.mk.inj (Option.some.inj hread)).2.symm

/-- A descriptor with anything behind it is refused. -/
theorem displayName_append_eq_error {extra : String} (h : d.displayName = .ok shown)
    (hextra : extra ≠ "") :
    (Descriptor.mk (d.text ++ extra)).displayName =
      .error (.invalidDescriptor (d.text ++ extra)) := by
  refine meaning_eq_error fun hmore => hextra ?_
  obtain ⟨r, hr, hshort, _⟩ := displayName_eq_ok_iff.1 h
  obtain ⟨_, hmore⟩ := hmore
  obtain ⟨s, hs, hlong, _⟩ := displayName_eq_ok_iff.1 hmore
  have hchars : r.chars ++ extra.toList = s.chars := by
    rw [← String.ofList_inj, String.ofList_append, String.ofList_toList]
    exact (congrArg (· ++ extra) hshort).trans hlong.symm
  exact String.toList_eq_nil_iff.1 (eq_nil_of_chars_append hr hs hchars)

/-- Whatever can be written as a result is shown. -/
theorem displayName_of_wellFormed {r : ResultType} (h : r.WellFormed) :
    (Descriptor.mk r.text).displayName = .ok r.displayName :=
  displayName_eq_ok_iff.2 ⟨r, h, rfl, rfl⟩

/-- **What a descriptor is shown as is told by its three parts**: by the word for its elements and
    a pair of brackets for each dimension. It is cut into these parts, and its elements are shown
    as the word alone; a descriptor without such parts is refused as a whole; and whatever a
    method's descriptor is taken apart into is shown. -/
theorem shown_by_grammar (d : Descriptor) :
    (∀ shown, d.displayName = .ok shown ↔
      ∃ n element word, TypeText d.text n element word ∧ shown = word ++ bracketPairs n) ∧
    (∀ n element word, TypeText d.text n element word →
      d.displayName = .ok (word ++ bracketPairs n) ∧ d.dimensions = n ∧
      d.elementType.text = element ∧ d.elementType.displayName = .ok word) ∧
    ((∀ n element word, ¬ TypeText d.text n element word) →
      d.displayName = .error (.invalidDescriptor d.text)) ∧
    (∀ types, d.parameterTypes = .ok types →
      types.mapM (fun t => (Descriptor.mk t.text).displayName) =
        .ok (types.map FieldType.displayName)) ∧
    ∀ result, d.resultType = .ok result →
      (Descriptor.mk result.text).displayName = .ok result.displayName := by
  refine ⟨fun shown => ?_, fun n element word h => ?_, displayName_eq_error, fun types h => ?_,
    fun result h => ?_⟩
  · constructor
    · intro h
      obtain ⟨n, element, word, htext⟩ := exists_typeText_of_displayName h
      have hshown := h.symm.trans (displayName_of_typeText htext)
      exact ⟨n, element, word, htext, Except.ok.inj hshown⟩
    · rintro ⟨n, element, word, htext, rfl⟩
      exact displayName_of_typeText htext
  · obtain ⟨hdimensions, helement⟩ := cut_of_typeText h
    have hword : d.elementType.displayName = .ok (word ++ bracketPairs 0) :=
      displayName_of_typeText (helement ▸ typeText_element h)
    have hnone : word ++ bracketPairs 0 = word := String.append_empty
    exact ⟨displayName_of_typeText h, hdimensions, helement, hnone ▸ hword⟩
  · have hwf := (parameterTypes_eq_ok_iff.1 h).1
    rw [Outcome.mapM_eq_ok_iff, List.forall₂_map_right_iff, List.forall₂_same]
    exact fun t ht => displayName_of_wellFormed (r := .value t) (hwf t ht)
  · exact displayName_of_wellFormed (resultType_eq_ok_iff.1 h).1

/-- An array of arrays of classes, the types of a method, and texts that are no types. -/
theorem shown_by_grammar_arrays :
    let d : Descriptor := ⟨"[[Ljava/lang/String;"⟩
    let types : List FieldType := [⟨1, .base .int⟩, ⟨0, .object ['A']⟩]
    TypeText d.text 2 "Ljava/lang/String;" "java.lang.String" ∧
    d.displayName = .ok ("java.lang.String" ++ bracketPairs 2) ∧ d.dimensions = 2 ∧
    d.elementType.text = "Ljava/lang/String;" ∧ d.elementType.displayName = .ok "java.lang.String" ∧
    types.mapM (fun t => (Descriptor.mk t.text).displayName) = .ok ["int[]", "A"] ∧
    Descriptor.displayName ⟨"V"⟩ = .ok "void" ∧
    ∀ text ∈ ["", "[", "[V", "L;", "[I]"],
      (Descriptor.mk text).displayName = .error (.invalidDescriptor text) := by
  intro d types
  obtain ⟨_, hparts, _⟩ := shown_by_grammar d
  obtain ⟨_, _, _, hparameters, hresult⟩ := shown_by_grammar ⟨"([ILA;)V"⟩
  have hname : ClassView.displayName "java/lang/String" = "java.lang.String" :=
    String.toList_inj.1 (String.toList_map.trans rfl)
  have helement : "Ljava/lang/String;" = "L" ++ "java/lang/String" ++ ";" := by decide
  have hd : d.text = openBrackets 2 ++ "Ljava/lang/String;" := by decide
  have htext : TypeText d.text 2 "Ljava/lang/String;" "java.lang.String" := by
    rw [hd, helement, ← hname]
    exact .value (.object (by decide) (by decide))
  have hclass : ClassView.displayName (String.ofList ['A']) = "A" :=
    String.toList_inj.1 (String.toList_map.trans rfl)
  have hnames : types.map FieldType.displayName = ["int[]", "A"] := by
    show [_, ClassView.displayName (String.ofList ['A']) ++ String.join []] = _
    rw [hclass]
    rfl
  obtain ⟨hshown, hdimensions, hcut, hword⟩ := hparts 2 _ _ htext
  refine ⟨htext, hshown, hdimensions, hcut, hword, hnames ▸ hparameters types rfl,
    hresult .void rfl, ?_⟩
  simp only [List.forall_mem_cons]
  exact ⟨rfl, rfl, rfl, rfl, rfl, fun _ h => absurd h List.not_mem_nil⟩

end Descriptor

end ClassView
