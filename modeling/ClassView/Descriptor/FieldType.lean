import ClassView.Pool.Resolve

/-!
# Field types

The type of a value is written as any number of `[`, one for each array dimension, in front of the
type of the elements: one letter for a number or truth value, or the name of a class between `L`
and `;`. `FieldType.read?` takes such a type off the front of a text, and `FieldType.text` writes
it. Reading undoes writing whatever follows (`read?_chars_append`) and reads nothing else
(`eq_chars_of_read?`), so a row of types can be taken apart in one way only.
-/

namespace ClassView

/-! ## 1. Element types -/

/-- A type that is no class and no array. -/
inductive BaseType where
  | byte | char | double | float | int | long | short | boolean
  deriving DecidableEq, Repr

namespace BaseType

/-- The letter of a base type. -/
def letter : BaseType → Char
  | .byte => 'B'
  | .char => 'C'
  | .double => 'D'
  | .float => 'F'
  | .int => 'I'
  | .long => 'J'
  | .short => 'S'
  | .boolean => 'Z'

/-- The name of a base type in a source file. -/
def name : BaseType → String
  | .byte => "byte"
  | .char => "char"
  | .double => "double"
  | .float => "float"
  | .int => "int"
  | .long => "long"
  | .short => "short"
  | .boolean => "boolean"

/-- The base type a letter stands for. -/
def ofLetter? (c : Char) : Option BaseType :=
  match c with
  | 'B' => some .byte
  | 'C' => some .char
  | 'D' => some .double
  | 'F' => some .float
  | 'I' => some .int
  | 'J' => some .long
  | 'S' => some .short
  | 'Z' => some .boolean
  | _ => none

@[simp] theorem ofLetter?_letter (b : BaseType) : ofLetter? b.letter = some b := by
  cases b <;> rfl

theorem letter_of_ofLetter? {c : Char} {b : BaseType} (h : ofLetter? c = some b) :
    b.letter = c := by
  unfold ofLetter? at h
  split at h <;> cases h <;> rfl

end BaseType

/-- What an array holds, or a type that is no array. A class is named in internal form. -/
inductive ElementType where
  | base (type : BaseType)
  | object (name : List Char)
  deriving DecidableEq, Repr

namespace ElementType

/-- A class name in a descriptor is not empty and holds no `;`. -/
def WellFormed : ElementType → Prop
  | .base _ => True
  | .object name => name ≠ [] ∧ ';' ∉ name

/-- The characters the type is written with. -/
def chars : ElementType → List Char
  | .base b => [b.letter]
  | .object name => 'L' :: name ++ [';']

/-- The name of the type in a source file. -/
def displayName : ElementType → String
  | .base b => b.name
  | .object name => ClassView.displayName (String.ofList name)

/-- Takes an element type off the front of a text. -/
def read? : List Char → Option (ElementType × List Char)
  | [] => none
  | 'L' :: rest =>
    match rest.takeWhile (· != ';'), rest.dropWhile (· != ';') with
    | c :: name, _ :: behind => some (.object (c :: name), behind)
    | _, _ => none
  | c :: rest => (BaseType.ofLetter? c).map (fun b => (.base b, rest))

/-- An element type starts with its letter, never with a bracket. -/
theorem chars_eq_cons (e : ElementType) : ∃ c cs, e.chars = c :: cs ∧ c ≠ '[' := by
  cases e with
  | base b => exact ⟨b.letter, [], rfl, by cases b <;> decide⟩
  | object name => exact ⟨'L', name ++ [';'], rfl, by decide⟩

/-- An element type that was written is read back, whatever follows it. -/
theorem read?_chars_append {e : ElementType} (h : e.WellFormed) (rest : List Char) :
    read? (e.chars ++ rest) = some (e, rest) := by
  cases e with
  | base b => cases b <;> rfl
  | object name =>
    obtain ⟨hne, hsemi⟩ := h
    have hall : ∀ c ∈ name, (c != ';') = true := fun c hc => by
      simpa using fun e : c = ';' => hsemi (e ▸ hc)
    have htake : (name ++ ';' :: rest).takeWhile (· != ';') = name := by
      simp [List.takeWhile_append_of_pos hall]
    have hdrop : (name ++ ';' :: rest).dropWhile (· != ';') = ';' :: rest := by
      simp [List.dropWhile_append_of_pos hall]
    simp only [chars, List.cons_append, List.append_assoc, List.nil_append, read?, htake, hdrop]
    cases name with
    | nil => exact absurd rfl hne
    | cons c cs => rfl

/-- What is read as an element type is how that type is written. -/
theorem eq_chars_of_read? {cs rest : List Char} {e : ElementType}
    (h : read? cs = some (e, rest)) : e.WellFormed ∧ cs = e.chars ++ rest := by
  unfold read? at h
  split at h
  · cases h
  · rename_i tail
    split at h
    · rename_i c name s behind htake hdrop
      cases h
      have hsplit := List.takeWhile_append_dropWhile (p := (· != ';')) (l := tail)
      have hs : s = ';' := by
        have := List.head?_dropWhile_not (fun c => c != ';') tail
        rw [hdrop] at this
        simpa using this
      have hmem : ';' ∉ c :: name := by
        intro hm
        rw [← htake] at hm
        simpa using List.all_eq_true.1 List.all_takeWhile _ hm
      refine ⟨⟨by simp, hmem⟩, ?_⟩
      rw [htake, hdrop] at hsplit
      subst hs
      simp [chars, ← hsplit]
    · cases h
  · obtain ⟨b, hb, hpair⟩ := Option.map_eq_some_iff.1 h
    cases hpair
    simp [WellFormed, chars, BaseType.letter_of_ofLetter? hb]

end ElementType

/-! ## 2. Field types -/

/-- The type of a field, a parameter or a result that is a value. -/
structure FieldType where
  /-- How many array dimensions there are. -/
  dimensions : Nat
  element : ElementType
  deriving DecidableEq, Repr

namespace FieldType

/-- The characters the type is written with. -/
def chars (t : FieldType) : List Char := List.replicate t.dimensions '[' ++ t.element.chars

/-- The text the type is written as. -/
def text (t : FieldType) : String := String.ofList t.chars

/-- The name of the type in a source file. -/
def displayName (t : FieldType) : String :=
  t.element.displayName ++ String.join (List.replicate t.dimensions "[]")

/-- The local variables a value of the type takes. -/
def slots (t : FieldType) : Nat :=
  match t with
  | ⟨0, .base .long⟩ | ⟨0, .base .double⟩ => 2
  | _ => 1

/-- Takes a field type off the front of a text. -/
def read? (cs : List Char) : Option (FieldType × List Char) :=
  (ElementType.read? (cs.dropWhile (· == '['))).map fun (element, behind) =>
    (⟨(cs.takeWhile (· == '[')).length, element⟩, behind)

/-- **A field type that was written is read back, whatever follows it.** -/
theorem read?_chars_append {t : FieldType} (h : t.element.WellFormed) (rest : List Char) :
    read? (t.chars ++ rest) = some (t, rest) := by
  obtain ⟨c, cs, hcs, hc⟩ := t.element.chars_eq_cons
  have hall : ∀ x ∈ List.replicate t.dimensions '[', (x == '[') = true := fun x hx => by
    simp [List.eq_of_mem_replicate hx]
  have hstop : (t.element.chars ++ rest).takeWhile (· == '[') = [] := by
    simp [hcs, hc]
  have hkeep : (t.element.chars ++ rest).dropWhile (· == '[') = t.element.chars ++ rest := by
    simp [hcs, hc]
  simp only [read?, chars, List.append_assoc, List.takeWhile_append_of_pos hall,
    List.dropWhile_append_of_pos hall, hstop, hkeep, ElementType.read?_chars_append h]
  simp

/-- **What is read as a field type is how that type is written.** -/
theorem eq_chars_of_read? {cs rest : List Char} {t : FieldType}
    (h : read? cs = some (t, rest)) : t.element.WellFormed ∧ cs = t.chars ++ rest := by
  obtain ⟨⟨e, behind⟩, he, hpair⟩ := Option.map_eq_some_iff.1 h
  cases hpair
  obtain ⟨hw, hdrop⟩ := ElementType.eq_chars_of_read? he
  refine ⟨hw, ?_⟩
  have hbrackets : cs.takeWhile (· == '[') =
      List.replicate (cs.takeWhile (· == '[')).length '[' := by
    refine List.eq_replicate_iff.2 ⟨rfl, fun x hx => ?_⟩
    simpa using List.all_eq_true.1 List.all_takeWhile x hx
  rw [chars, List.append_assoc, ← hdrop]
  simp only [← hbrackets, List.takeWhile_append_dropWhile]

end FieldType

end ClassView
