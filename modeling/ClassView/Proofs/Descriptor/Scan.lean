import ClassView.Proofs.Descriptor.DisplayName
import ClassView.Proofs.Text.Slices
import Mathlib.Logic.Relation

/-!
# Descriptors byte by byte

The types in a descriptor can be found without taking its text apart into characters: the places
where they end are told from single bytes, and each type is cut out of the text between two places.
For that to work no place may be inside of a character, although a class name can hold any
characters, and the text need not be a descriptor at all.

* `fieldEnd`, `Walk.turn`, `Walk.finish`: where types end, and the walk from one to the next;
* `scanElementType`, `scanParameterTypes`, `scanResultType`, `scanDisplayName`: what is cut out;
* `fieldEnd_bounds`, **`fieldEnd_encoded`**: the end that is found is further on, and where the type
  that is read ends;
* `Walk.Reads`, **`Walk.Reads.pass`**, **`Walk.Reads.finish`**: what is true of the walk, turn by
  turn and up to its end;
* **`scan_never_refused`**: no access is refused, and what is cut out is what is read.
-/

namespace ClassView.Descriptor

open Text

/-! ## 1. Where types end -/

/-- The first place from `i` on where no bracket stands. -/
def skipBrackets (bytes : List UInt8) (i : Nat) : Nat :=
  if (bytes[i]?).any (isByte '[') then skipBrackets bytes (i + 1) else i
termination_by bytes.length - i
decreasing_by
  rename_i h
  obtain ⟨b, hb, _⟩ := (Option.any_eq_true _ _).1 h
  obtain ⟨hlt, _⟩ := List.getElem?_eq_some_iff.1 hb
  omega

/-- How many bytes a class takes that starts where these bytes do, or that none does. -/
def classEnd (ahead : List UInt8) : Option Nat :=
  (ahead.findIdx? (isByte ';')).bind fun semicolon =>
    if semicolon = 1 then none else some (semicolon + 1)

/-- Where the element type that starts at `i` ends, or that none does. -/
def elementEnd (bytes : List UInt8) (i : Nat) : Guarded (Option Nat) :=
  match bytes[i]? with
  | none => .ok none
  | some b =>
    if isByte 'L' b then do
      let ahead ← bytesFrom bytes i
      return (classEnd ahead).map (i + ·)
    else .ok ((BaseType.ofLetter? (Char.ofUInt8 b)).map fun _ => i + 1)

/-- Where the field type that starts at `i` ends, or that none does. -/
def fieldEnd (bytes : List UInt8) (i : Nat) : Guarded (Option Nat) :=
  elementEnd bytes (skipBrackets bytes i)

theorem skipBrackets_eq (bytes : List UInt8) (i : Nat) :
    skipBrackets bytes i = i + ((bytes.drop i).takeWhile (isByte '[')).length := by
  fun_induction skipBrackets bytes i with
  | case1 i h ih =>
    obtain ⟨b, hb, hbracket⟩ := (Option.any_eq_true _ _).1 h
    obtain ⟨hlt, rfl⟩ := List.getElem?_eq_some_iff.1 hb
    rw [ih, List.drop_eq_getElem_cons hlt, List.takeWhile_cons_of_pos hbracket, List.length_cons]
    omega
  | case2 i h =>
    cases hdrop : bytes.drop i with
    | nil => rfl
    | cons b rest =>
      have hb : bytes[i]? = some b := by rw [← List.head?_drop, hdrop, List.head?_cons]
      rw [hb, Option.any_some] at h
      rw [List.takeWhile_cons_of_neg h]
      rfl

theorem skipBrackets_bounds (bytes : List UInt8) (i : Nat) : i ≤ skipBrackets bytes i := by
  rw [skipBrackets_eq]
  exact Nat.le_add_right _ _

theorem classEnd_bounds {ahead : List UInt8} {n : Nat} (h : classEnd ahead = some n) :
    0 < n ∧ n ≤ ahead.length := by
  obtain ⟨semicolon, hfound, hn⟩ := Option.bind_eq_some_iff.1 h
  obtain ⟨hlt, _⟩ := List.findIdx?_eq_some_iff_getElem.1 hfound
  split at hn
  · exact nomatch hn
  · obtain rfl := Option.some.inj hn
    omega

/-- An element type is not empty and ends within the bytes. -/
theorem elementEnd_bounds (bytes : List UInt8) (i : Nat) : ∃ found,
    elementEnd bytes i = .ok found ∧ ∀ stop ∈ found, i < stop ∧ stop ≤ bytes.length := by
  unfold elementEnd
  cases hb : bytes[i]? with
  | none => exact ⟨none, rfl, fun _ h => nomatch h⟩
  | some b =>
    obtain ⟨hlt, _⟩ := List.getElem?_eq_some_iff.1 hb
    dsimp only
    split
    · rw [bytesFrom, if_pos (Nat.le_of_lt hlt)]
      refine ⟨_, rfl, fun stop hstop => ?_⟩
      obtain ⟨n, hn, rfl⟩ := Option.map_eq_some_iff.1 hstop
      have hbounds := classEnd_bounds hn
      rw [List.length_drop] at hbounds
      omega
    · refine ⟨_, rfl, fun stop hstop => ?_⟩
      obtain ⟨_, _, rfl⟩ := Option.map_eq_some_iff.1 hstop
      omega

/-- A field type is not empty and ends within the bytes. -/
theorem fieldEnd_bounds (bytes : List UInt8) (i : Nat) : ∃ found,
    fieldEnd bytes i = .ok found ∧ ∀ stop ∈ found, i < stop ∧ stop ≤ bytes.length := by
  obtain ⟨found, hfound, hbounds⟩ := elementEnd_bounds bytes (skipBrackets bytes i)
  refine ⟨found, hfound, fun stop hstop => ?_⟩
  exact ⟨Nat.lt_of_le_of_lt (skipBrackets_bounds bytes i) (hbounds stop hstop).1,
    (hbounds stop hstop).2⟩

/-! ## 2. The walk over the parameters -/

/-- Where the walk over the parameters is: the ranges of those behind it, and its place. -/
structure Walk where
  ranges : List (Nat × Nat)
  place : Nat
  deriving DecidableEq, Repr

/-- What one turn of the walk does. -/
inductive Turn where
  /-- It goes on behind a parameter. -/
  | on (walk : Walk)
  /-- It stands at the parenthesis behind the parameters. -/
  | closed (walk : Walk)
  /-- No parameter starts at its place. -/
  | refused
  deriving DecidableEq, Repr

namespace Walk

/-- The walk behind the parenthesis in front of the parameters. -/
def start : Walk := ⟨[], 1⟩

/-- One turn of the walk. -/
def turn (bytes : List UInt8) (w : Walk) : Guarded Turn :=
  match bytes[w.place]? with
  | none => .ok .refused
  | some b =>
    if isByte ')' b then .ok (.closed w)
    else do
      match ← fieldEnd bytes w.place with
      | none => return .refused
      | some stop => return .on ⟨w.ranges ++ [(w.place, stop)], stop⟩

/-- Every turn moves the walk, and not behind the bytes. -/
theorem turn_on {bytes : List UInt8} {w next : Walk} (h : w.turn bytes = .ok (.on next)) :
    w.place < next.place ∧ next.place ≤ bytes.length := by
  obtain ⟨found, hfound, hbounds⟩ := fieldEnd_bounds bytes w.place
  unfold turn at h
  split at h
  · exact nomatch h
  split at h
  · exact nomatch h
  rw [hfound] at h
  cases found with
  | none => exact nomatch h
  | some stop =>
    cases h
    exact hbounds stop rfl

/-- The walk up to the parenthesis behind the parameters, or that there is none. -/
def finish (bytes : List UInt8) (w : Walk) : Guarded (Option Walk) :=
  match _hturn : w.turn bytes with
  | .error bad => .error bad
  | .ok .refused => .ok none
  | .ok (.closed last) => .ok (some last)
  | .ok (.on next) => next.finish bytes
termination_by bytes.length - w.place
decreasing_by
  have := turn_on _hturn
  omega

end Walk

/-! ## 3. What is cut out -/

variable (d : Descriptor)

/-- The walk over the parameters of a method descriptor. -/
def scanParameters : Guarded (Option Walk) :=
  if d.isMethod then Walk.start.finish (standardBytes d.text) else .ok none

/-- The parameter types of a method descriptor, cut out one by one. -/
def scanParameterTypes : Guarded (Outcome (List Descriptor)) := do
  match ← d.scanParameters with
  | none => return .error (.invalidDescriptor d.text)
  | some walk =>
    let texts ← walk.ranges.mapM fun range => slice d.text range.1 range.2
    return .ok (texts.map Descriptor.mk)

/-- The whole text is that of a result type. -/
def isResult (text : String) : Guarded Bool :=
  if text = "V" then .ok true
  else do
    let stop ← fieldEnd (standardBytes text) 0
    return stop == some (standardBytes text).length

/-- The result type of a method descriptor, cut out behind the parenthesis. -/
def scanResultType : Guarded (Outcome Descriptor) := do
  match ← d.scanParameters with
  | none => return .error (.invalidDescriptor d.text)
  | some walk =>
    let result ← slice d.text (walk.place + 1) (standardBytes d.text).length
    if ← isResult result then return .ok ⟨result⟩
    else return .error (.invalidDescriptor d.text)

/-- How many brackets the descriptor starts with. -/
def scanDimensions : Nat := ((standardBytes d.text).takeWhile (isByte '[')).length

/-- The text behind these brackets. -/
def scanElement : Guarded String :=
  slice d.text d.scanDimensions (standardBytes d.text).length

/-- The descriptor without these brackets. -/
def scanElementType : Guarded Descriptor := do
  let element ← d.scanElement
  return ⟨element⟩

/-- The name of an element type in a source file, told from its first byte. -/
def elementName (element : String) : Guarded String := do
  let first ← byteAt (standardBytes element) 0
  match BaseType.ofLetter? (Char.ofUInt8 first) with
  | some base => return base.name
  | none =>
    if isByte 'V' first then return "void"
    else do
      let stop ← minus (standardBytes element).length 1
      let name ← slice element 1 stop
      return ClassView.displayName name

/-- The name in a source file of the type that the whole descriptor is. -/
def scanDisplayName : Guarded (Outcome String) := do
  if ← isResult d.text then
    let element ← d.scanElement
    let name ← elementName element
    return .ok (name ++ bracketPairs d.scanDimensions)
  else return .error (.invalidDescriptor d.text)

/-! ## 4. Ends of types that are read -/

section Ends

variable {cs : List Char} {c : Char}

/-- A letter that stands for a base type is below U+0080. -/
theorem ofLetter?_eq_none_of_wide (h : 0x80 ≤ c.toNat) : BaseType.ofLetter? c = none := by
  rw [Option.eq_none_iff_forall_ne_some]
  intro b hb
  obtain rfl := BaseType.letter_of_ofLetter? hb
  have hnarrow : b.letter.toNat < 0x80 := by cases b <;> decide
  omega

theorem read?_of_ne {rest : List Char} (h : c ≠ 'L') : ElementType.read? (c :: rest) =
    (BaseType.ofLetter? c).map fun b => (.base b, rest) := by
  rw [ElementType.read?.eq_def]
  split
  · contradiction
  · rename_i heq
    exact absurd (List.cons.inj heq).1 h
  · rename_i heq
    obtain ⟨rfl, rfl⟩ := List.cons.inj heq
    rfl

/-- A class is read up to the first semicolon. -/
theorem read?_class {name behind : List Char} (h : ';' ∉ name) :
    ElementType.read? ('L' :: (name ++ ';' :: behind)) =
      if name = [] then none else some (.object name, behind) := by
  by_cases hname : name = []
  · rw [if_pos hname, hname]
    rfl
  · have hwf : (ElementType.object name).WellFormed := ⟨hname, h⟩
    have hread := ElementType.read?_chars_append hwf behind
    rw [if_neg hname, ← hread, ElementType.chars, List.append_assoc]
    rfl

theorem read?_unended (h : ';' ∉ cs) : ElementType.read? ('L' :: cs) = none := by
  rw [Option.eq_none_iff_forall_ne_some]
  intro ⟨e, behind⟩ hread
  obtain ⟨_, hcs⟩ := ElementType.eq_chars_of_read? hread
  cases e with
  | base b => exact absurd (List.cons.inj hcs).1 (by cases b <;> decide)
  | object name =>
    refine h ((List.cons.inj hcs).2 ▸ ?_)
    exact List.mem_append_left _ (List.mem_append_right _ (List.mem_singleton_self _))

/-- The end of a class is found where it is read. -/
theorem classEnd_encoded (cs : List Char) : classEnd (encoded ('L' :: cs)) =
    (ElementType.read? ('L' :: cs)).map fun p => width p.1.chars := by
  unfold classEnd
  by_cases hsemicolon : ';' ∈ cs
  · obtain ⟨name, behind, rfl, hname⟩ := List.eq_append_cons_of_mem hsemicolon
    have hletter : ';' ∉ 'L' :: name :=
      List.not_mem_cons_of_ne_of_not_mem (by decide) hname
    have hwidth : width ('L' :: name) = 1 + width name := width_cons 'L' name
    rw [← List.cons_append, findIdx?_encoded (by decide) hletter, List.cons_append,
      read?_class hname, hwidth]
    by_cases hempty : name = []
    · rw [if_pos hempty, hempty]
      rfl
    · have hpos : width name ≠ 0 := fun h => hempty (width_eq_zero_iff.1 h)
      have hend : width [';'] = 1 := rfl
      rw [if_neg hempty, Option.bind_some, if_neg (by omega), Option.map_some, ElementType.chars,
        width_append, hwidth, hend]
  · have hnone : ';' ∉ 'L' :: cs :=
      List.not_mem_cons_of_ne_of_not_mem (by decide) hsemicolon
    rw [read?_unended hsemicolon, findIdx?_encoded_eq_none (by decide) hnone]
    rfl

/-- **The end of an element type is found where it is read.** -/
theorem elementEnd_encoded (front cs : List Char) :
    elementEnd (encoded (front ++ cs)) (width front) =
      .ok ((ElementType.read? cs).map fun p => width front + width p.1.chars) := by
  unfold elementEnd
  rw [getElem?_encoded, bytesFrom_encoded]
  cases cs with
  | nil => rfl
  | cons c cs =>
    -- a character of one byte is told by that byte, any other one is no letter of a type
    obtain ⟨b, bytes, hbytes, ⟨_, rfl, _⟩ | ⟨hwide, hb⟩⟩ := encoded_cons_eq c cs
    · rw [hbytes, List.head?_cons]
      dsimp only
      split
      · rename_i hclass
        have hletter : Char.ofUInt8 b = 'L' := beq_iff_eq.1 hclass
        rw [← hbytes, hletter]
        show Except.ok ((classEnd (encoded ('L' :: cs))).map _) = _
        rw [classEnd_encoded, Option.map_map]
        rfl
      · rename_i hclass
        rw [read?_of_ne fun h => hclass (beq_iff_eq.2 h), Option.map_map]
        refine congrArg Except.ok (congrArg (Option.map · _) (funext fun base => ?_))
        have hone : width [base.letter] = 1 := by cases base <;> rfl
        exact congrArg (width front + ·) hone.symm
    · have hclass : isByte 'L' b ≠ true := fun h => by
        rw [beq_iff_eq.1 h] at hb
        exact absurd hb (by decide)
      have hother : c ≠ 'L' := by
        rintro rfl
        exact absurd hwide (by decide)
      rw [hbytes, List.head?_cons, read?_of_ne hother, ofLetter?_eq_none_of_wide hwide]
      dsimp only
      rw [if_neg hclass, ofLetter?_eq_none_of_wide hb]
      rfl

/-- The bytes of the brackets in front of a type. -/
theorem length_brackets (cs : List Char) : ((encoded cs).takeWhile (isByte '[')).length =
    width (cs.takeWhile (· == '[')) := by
  rw [takeWhile_encoded (by decide), width]

/-- **The end of a field type is found where it is read.** -/
theorem fieldEnd_encoded (front cs : List Char) :
    fieldEnd (encoded (front ++ cs)) (width front) =
      .ok ((FieldType.read? cs).map fun p => width front + width p.1.chars) := by
  have hplace : skipBrackets (encoded (front ++ cs)) (width front) =
      width (front ++ cs.takeWhile (· == '[')) := by
    rw [skipBrackets_eq, drop_encoded, length_brackets, width_append]
  have hsplit : front ++ cs = front ++ cs.takeWhile (· == '[') ++ cs.dropWhile (· == '[') := by
    rw [List.append_assoc, List.takeWhile_append_dropWhile]
  have hbrackets : List.replicate (cs.takeWhile (· == '[')).length '[' =
      cs.takeWhile (· == '[') := by
    refine (List.eq_replicate_iff.2 ⟨rfl, fun x hx => ?_⟩).symm
    exact beq_iff_eq.1 (List.all_eq_true.1 List.all_takeWhile x hx)
  rw [fieldEnd, hplace, hsplit, elementEnd_encoded, FieldType.read?, Option.map_map]
  refine congrArg Except.ok (congrArg (Option.map · _) (funext fun p => ?_))
  rw [Function.comp_apply, FieldType.chars, hbrackets, width_append, width_append, Nat.add_assoc]

end Ends

/-! ## 5. Where the walk gets to -/

theorem standardBytes_text (d : Descriptor) : standardBytes d.text = encoded d.chars :=
  standardBytes_eq d.text

namespace Walk

/-- What is true of the walk wherever it gets to: its place and the ends of its ranges are between
    characters, and the ranges, none of them empty, stand in a row. -/
structure Sound (bytes : List UInt8) (w : Walk) : Prop where
  place_le : w.place ≤ bytes.length
  place_boundary : isBoundary bytes w.place = true
  start_boundary : ∀ range ∈ w.ranges, isBoundary bytes range.1 = true
  stop_boundary : ∀ range ∈ w.ranges, isBoundary bytes range.2 = true
  nonempty : ∀ range ∈ w.ranges, range.1 < range.2
  behind : ∀ range ∈ w.ranges, range.2 ≤ w.place
  increasing : w.ranges.Pairwise fun range next => range.2 ≤ next.1

/-- The walk has gone over parameters of these types, and these characters are ahead of it. -/
structure Reads (d : Descriptor) (w : Walk) (types : List FieldType) (ahead : List Char) :
    Prop where
  chars_eq : d.chars = '(' :: types.flatMap FieldType.chars ++ ahead
  place_eq : w.place = width ('(' :: types.flatMap FieldType.chars)
  texts_eq : w.ranges.mapM (fun range => slice d.text range.1 range.2) =
    .ok (types.map FieldType.text)
  sound : w.Sound (standardBytes d.text)

/-- The walk behind one more parameter. -/
def pass (w : Walk) (t : FieldType) : Walk :=
  ⟨w.ranges ++ [(w.place, w.place + width t.chars)], w.place + width t.chars⟩

variable {d : Descriptor} {w : Walk} {types : List FieldType} {ahead rest : List Char}
  {t : FieldType}

theorem Reads.getElem? (h : w.Reads d types ahead) :
    (standardBytes d.text)[w.place]? = (encoded ahead).head? := by
  rw [standardBytes_text, h.chars_eq, h.place_eq, getElem?_encoded]

theorem Reads.fieldEnd (h : w.Reads d types ahead) : fieldEnd (standardBytes d.text) w.place =
    .ok ((FieldType.read? ahead).map fun p => w.place + width p.1.chars) := by
  rw [standardBytes_text, h.chars_eq, h.place_eq, fieldEnd_encoded]

theorem width_pos (t : FieldType) : 0 < width t.chars := by
  obtain ⟨c, cs, hchars, _⟩ := t.chars_eq_cons
  rw [Nat.pos_iff_ne_zero]
  intro hzero
  rw [width_eq_zero_iff, hchars] at hzero
  exact nomatch hzero

/-- In front of the parenthesis the walk ends. -/
theorem Reads.turn_of_close (h : w.Reads d types (')' :: rest)) :
    w.turn (standardBytes d.text) = .ok (.closed w) := by
  have hbyte : (encoded (')' :: rest)).head? = some (UInt8.ofNat 0x29) := rfl
  rw [turn, h.getElem?, hbyte]
  rfl

/-- In front of anything else it asks for a parameter. -/
theorem Reads.turn_of_other (h : w.Reads d types ahead) (hother : ∀ rest, ahead ≠ ')' :: rest) :
    w.turn (standardBytes d.text) = .ok (match FieldType.read? ahead with
      | none => .refused
      | some (t, _) => .on (w.pass t)) := by
  rw [turn, h.getElem?, h.fieldEnd]
  cases ahead with
  | nil => rfl
  | cons c cs =>
    obtain ⟨b, bytes, hbytes, hb⟩ := encoded_cons_eq c cs
    -- no byte of a longer character is taken for the parenthesis
    have hclose : isByte ')' b ≠ true := by
      intro hclose
      have hletter : Char.ofUInt8 b = ')' := beq_iff_eq.1 hclose
      rcases hb with ⟨_, hb, _⟩ | ⟨_, hb⟩
      · exact hother cs (by rw [← hb, hletter])
      · rw [hletter] at hb
        exact absurd hb (by decide)
    rw [hbytes, List.head?_cons]
    dsimp only
    rw [if_neg hclose]
    cases FieldType.read? (c :: cs) with
    | none => rfl
    | some p => rfl

/-- A range more that ends between characters, further on. -/
theorem Sound.pass {bytes : List UInt8} (h : w.Sound bytes)
    (hle : w.place + width t.chars ≤ bytes.length)
    (hboundary : isBoundary bytes (w.place + width t.chars) = true) : (w.pass t).Sound bytes := by
  have hranges : ∀ {P : Nat × Nat → Prop}, (∀ range ∈ w.ranges, P range) →
      P (w.place, w.place + width t.chars) → ∀ range ∈ (w.pass t).ranges, P range := by
    intro P hold hnew
    exact List.forall_mem_append.2 ⟨hold, List.forall_mem_singleton.2 hnew⟩
  have hmoves : w.place ≤ w.place + width t.chars := Nat.le_add_right _ _
  exact {
    place_le := hle
    place_boundary := hboundary
    start_boundary := hranges h.start_boundary h.place_boundary
    stop_boundary := hranges h.stop_boundary hboundary
    nonempty := hranges h.nonempty (Nat.lt_add_of_pos_right (width_pos t))
    behind := hranges (fun range hrange => Nat.le_trans (h.behind range hrange) hmoves)
      (Nat.le_refl _)
    increasing := List.pairwise_append.2 ⟨h.increasing, List.pairwise_singleton _ _,
      fun range hrange _ hnew => List.mem_singleton.1 hnew ▸ h.behind range hrange⟩ }

/-- **Behind one more parameter everything is as it was in front of it.** -/
theorem Reads.pass (h : w.Reads d types ahead) (hread : FieldType.read? ahead = some (t, rest)) :
    (w.pass t).Reads d (types ++ [t]) rest := by
  obtain ⟨_, rfl⟩ := FieldType.eq_chars_of_read? hread
  obtain ⟨hchars, hplace, htexts, hsound⟩ := h
  generalize hfront : '(' :: types.flatMap FieldType.chars = front at hchars hplace
  have hnext : '(' :: (types ++ [t]).flatMap FieldType.chars = front ++ t.chars := by
    rw [List.flatMap_append, List.flatMap_singleton, ← hfront, List.cons_append]
  have hsplit : d.chars = front ++ t.chars ++ rest := by rw [hchars, List.append_assoc]
  have hstop : w.place + width t.chars = width (front ++ t.chars) := by rw [hplace, width_append]
  have htext : slice d.text w.place (w.place + width t.chars) = .ok t.text := by
    rw [hstop, hplace]
    exact slice_eq hsplit
  obtain ⟨_, hle, _, hboundary⟩ := places_of_slice htext
  refine ⟨?_, ?_, ?_, hsound.pass hle hboundary⟩
  · rw [hnext, hsplit]
  · rw [hnext, ← hstop]
    rfl
  · rw [List.map_append, List.map_singleton]
    exact Guarded.mapM_concat htexts htext

/-- In front of the parenthesis there is room for it, and what stands behind it can be cut out. -/
theorem Reads.slice_behind {behind : List Char} (h : w.Reads d types (')' :: behind)) :
    slice d.text (w.place + 1) (standardBytes d.text).length = .ok (String.ofList behind) := by
  have hsplit : d.chars = '(' :: types.flatMap FieldType.chars ++ [')'] ++ behind := by
    rw [h.chars_eq, List.append_assoc, List.singleton_append]
  have hplace : w.place + 1 = width ('(' :: types.flatMap FieldType.chars ++ [')']) := by
    rw [h.place_eq, width_append]
    rfl
  rw [hplace]
  exact slice_rest hsplit

theorem start_reads {rest : List Char} (h : d.chars = '(' :: rest) : start.Reads d [] rest := by
  have hbytes : standardBytes d.text = encoded (['('] ++ rest) := by
    rw [standardBytes_text, h, List.singleton_append]
  refine ⟨h, rfl, rfl, ?_⟩
  rw [hbytes]
  exact {
    place_le := by
      rw [encoded_append, List.length_append]
      exact Nat.le_add_right 1 _
    place_boundary := isBoundary_width ['('] rest
    start_boundary := fun _ h => absurd h List.not_mem_nil
    stop_boundary := fun _ h => absurd h List.not_mem_nil
    nonempty := fun _ h => absurd h List.not_mem_nil
    behind := fun _ h => absurd h List.not_mem_nil
    increasing := .nil }

/-- One turn leads from one walk to the other. -/
def Goes (bytes : List UInt8) (w next : Walk) : Prop := w.turn bytes = .ok (.on next)

/-- **What is true in front of a turn is true behind it.** -/
theorem Reads.goes {next : Walk} (h : w.Reads d types ahead)
    (hgoes : Goes (standardBytes d.text) w next) :
    ∃ types ahead, next.Reads d types ahead := by
  unfold Goes at hgoes
  by_cases hclose : ∃ rest, ahead = ')' :: rest
  · obtain ⟨rest, rfl⟩ := hclose
    rw [h.turn_of_close] at hgoes
    exact nomatch hgoes
  · rw [h.turn_of_other (not_exists.1 hclose)] at hgoes
    cases hread : FieldType.read? ahead with
    | none =>
      rw [hread] at hgoes
      exact nomatch hgoes
    | some p =>
      rw [hread] at hgoes
      cases hgoes
      exact ⟨_, _, h.pass hread⟩

/-- It is true wherever the walk gets to. -/
theorem Reads.reaches {last : Walk} (h : w.Reads d types ahead)
    (hreaches : Relation.ReflTransGen (Goes (standardBytes d.text)) w last) :
    ∃ types ahead, last.Reads d types ahead := by
  induction hreaches with
  | refl => exact ⟨types, ahead, h⟩
  | tail _ hgoes ih =>
    obtain ⟨_, _, hmid⟩ := ih
    exact hmid.goes hgoes

/-- No walk goes on for ever. -/
theorem exists_not_goes (bytes : List UInt8) (run : Nat → Walk) :
    ∃ n, ¬ Goes bytes (run n) (run (n + 1)) := by
  by_contra hnone
  have hgoes : ∀ n, Goes bytes (run n) (run (n + 1)) := fun n =>
    not_not.1 (not_exists.1 hnone n)
  -- each turn moves the place, which the length of the bytes bounds
  have hplace : ∀ n, n ≤ (run n).place := by
    intro n
    induction n with
    | zero => exact Nat.zero_le _
    | succ n ih => exact Nat.lt_of_le_of_lt ih (turn_on (hgoes n)).1
  have hfar := hplace (bytes.length + 1)
  have hend := (turn_on (hgoes bytes.length)).2
  omega

theorem finish_eq (bytes : List UInt8) (w : Walk) : w.finish bytes =
    match w.turn bytes with
    | .error bad => .error bad
    | .ok .refused => .ok none
    | .ok (.closed last) => .ok (some last)
    | .ok (.on next) => next.finish bytes := by
  rw [finish]
  split <;> rename_i hturn <;> rw [hturn]

theorem readParameters_of_other {room : Nat} {done : List FieldType}
    (hother : ∀ rest, ahead ≠ ')' :: rest) : readParameters (room + 1) ahead done =
      match FieldType.read? ahead with
      | some (t, rest) => readParameters room rest (t :: done)
      | none => none := by
  rw [readParameters.eq_def]
  dsimp only
  split
  · exact absurd rfl (hother _)
  · rfl

/-- **The walk ends where the parameters do**, or there are none. The induction is on `room`, with
    which the parameters are read. -/
theorem Reads.finish {room : Nat} (h : w.Reads d types ahead) (hroom : ahead.length < room) :
    match readParameters room ahead types.reverse with
    | none => w.finish (standardBytes d.text) = .ok none
    | some (all, behind) => ∃ last, w.finish (standardBytes d.text) = .ok (some last) ∧
        last.Reads d all (')' :: behind) ∧
        Relation.ReflTransGen (Goes (standardBytes d.text)) w last := by
  induction room generalizing w types ahead with
  | zero => exact absurd hroom (Nat.not_lt_zero _)
  | succ room ih =>
    by_cases hclose : ∃ rest, ahead = ')' :: rest
    · obtain ⟨behind, rfl⟩ := hclose
      rw [readParameters, List.reverse_reverse]
      exact ⟨w, by rw [finish_eq, h.turn_of_close], h, .refl⟩
    · have hother := not_exists.1 hclose
      have hturn := h.turn_of_other hother
      rw [readParameters_of_other hother]
      cases hread : FieldType.read? ahead with
      | none =>
        rw [hread] at hturn
        show w.finish (standardBytes d.text) = .ok none
        rw [finish_eq, hturn]
      | some p =>
        obtain ⟨t, rest⟩ := p
        rw [hread] at hturn
        obtain ⟨_, hahead⟩ := FieldType.eq_chars_of_read? hread
        have hrest : rest.length < room := by
          obtain ⟨c, cs, hchars, _⟩ := t.chars_eq_cons
          rw [hahead, hchars, List.length_append, List.length_cons] at hroom
          omega
        have hfinish : w.finish (standardBytes d.text) =
            (w.pass t).finish (standardBytes d.text) := by
          rw [finish_eq, hturn]
        have hrun := ih (h.pass hread) hrest
        rw [List.reverse_append, List.reverse_singleton, List.singleton_append] at hrun
        dsimp only
        cases hparameters : readParameters room rest (t :: types.reverse) with
        | none =>
          rw [hparameters] at hrun
          exact hfinish.trans hrun
        | some q =>
          rw [hparameters] at hrun
          obtain ⟨last, hlast, hreads, hreaches⟩ := hrun
          exact ⟨last, hfinish.trans hlast, hreads, .head hturn hreaches⟩

end Walk

/-! ## 6. Descriptors -/

open Walk (start Goes)

variable {d}

theorem scanParameters_cases (d : Descriptor) :
    match d.parameters? with
    | none => d.scanParameters = .ok none
    | some (types, behind) => ∃ last, d.scanParameters = .ok (some last) ∧
        last.Reads d types (')' :: behind) ∧
        Relation.ReflTransGen (Goes (standardBytes d.text)) start last := by
  have hmethod : d.isMethod = true ↔ ∃ rest, d.chars = '(' :: rest :=
    beq_iff_eq.trans List.head?_eq_some_iff
  by_cases hopen : ∃ rest, d.chars = '(' :: rest
  · obtain ⟨rest, hchars⟩ := hopen
    have hparameters : d.parameters? = readParameters (rest.length + 1) rest [] := by
      rw [parameters?, hchars]
      rfl
    rw [hparameters, scanParameters, if_pos (hmethod.2 ⟨rest, hchars⟩)]
    exact (Walk.start_reads hchars).finish (Nat.lt_succ_self _)
  · have hparameters : d.parameters? = none := by
      unfold parameters?
      split
      · rename_i rest hchars
        exact absurd ⟨rest, hchars⟩ hopen
      · rfl
    rw [hparameters]
    exact if_neg (mt hmethod.1 hopen)

/-- A text is taken for a result type exactly if it is one. -/
theorem isResult_eq (text : String) :
    isResult text = .ok (ResultType.ofChars? text.toList).isSome := by
  have hvoid : text = "V" ↔ text.toList = ['V'] := String.toList_inj.symm
  have hend : fieldEnd (standardBytes text) 0 =
      .ok ((FieldType.read? text.toList).map fun p => width p.1.chars) := by
    have h := fieldEnd_encoded [] text.toList
    simp only [width_nil, Nat.zero_add, List.nil_append] at h
    rw [standardBytes_eq]
    exact h
  unfold isResult ResultType.ofChars?
  by_cases h : text = "V"
  · rw [if_pos h, if_pos (hvoid.1 h)]
    rfl
  · rw [if_neg h, if_neg (mt hvoid.2 h), hend, length_standardBytes]
    refine congrArg Except.ok ?_
    cases hread : FieldType.read? text.toList with
    | none => rfl
    | some p =>
      obtain ⟨t, rest⟩ := p
      obtain ⟨_, hcs⟩ := FieldType.eq_chars_of_read? hread
      rw [hcs, Option.map_some]
      cases rest with
      | nil => rw [List.append_nil, beq_self_eq_true]; rfl
      | cons c rest =>
        have hpos : width (c :: rest) ≠ 0 := fun h => nomatch width_eq_zero_iff.1 h
        have hmore : some (width t.chars) ≠ some (width (t.chars ++ c :: rest)) := by
          rw [width_append, ne_eq, Option.some.injEq]
          omega
        exact beq_false_of_ne hmore

/-- **The parameter types that are cut out are those that are read.** -/
theorem scanParameterTypes_eq (d : Descriptor) : d.scanParameterTypes =
    .ok ((fun types => types.map fun t => ⟨t.text⟩) <$> d.parameterTypes) := by
  have hwalk := d.scanParameters_cases
  unfold scanParameterTypes parameterTypes
  cases hparameters : d.parameters? with
  | none =>
    rw [hparameters] at hwalk
    rw [hwalk]
    rfl
  | some p =>
    rw [hparameters] at hwalk
    obtain ⟨last, hlast, hreads, _⟩ := hwalk
    refine (Guarded.bind_of_ok hlast _).trans ((Guarded.bind_of_ok hreads.texts_eq _).trans ?_)
    show Except.ok (Except.ok ((p.1.map FieldType.text).map Descriptor.mk)) = _
    rw [List.map_map]
    rfl

/-- **So is the result type.** -/
theorem scanResultType_eq (d : Descriptor) : d.scanResultType =
    .ok ((fun r => ⟨r.text⟩) <$> d.resultType) := by
  have hwalk := d.scanParameters_cases
  unfold scanResultType resultType
  cases hparameters : d.parameters? with
  | none =>
    rw [hparameters] at hwalk
    rw [hwalk]
    rfl
  | some p =>
    obtain ⟨types, behind⟩ := p
    rw [hparameters] at hwalk
    obtain ⟨last, hlast, hreads, _⟩ := hwalk
    refine (Guarded.bind_of_ok hlast _).trans ((Guarded.bind_of_ok hreads.slice_behind _).trans
      ((Guarded.bind_of_ok (isResult_eq _) _).trans ?_))
    rw [String.toList_ofList]
    show (if (ResultType.ofChars? behind).isSome = true then _ else _) =
      Except.ok ((fun r => Descriptor.mk r.text) <$> d.meaning (ResultType.ofChars? behind))
    cases hresult : ResultType.ofChars? behind with
    | none => rfl
    | some r =>
      obtain ⟨_, hchars⟩ := ResultType.ofChars?_eq_some_iff.1 hresult
      rw [← hchars]
      rfl

theorem scanDimensions_eq_width (d : Descriptor) :
    d.scanDimensions = width (d.chars.takeWhile (· == '[')) := by
  rw [scanDimensions, standardBytes_text, length_brackets]

theorem scanElement_eq (d : Descriptor) : d.scanElement = .ok d.elementType.text := by
  have hsplit : d.text.toList = d.chars.takeWhile (· == '[') ++ d.chars.dropWhile (· == '[') :=
    List.takeWhile_append_dropWhile.symm
  rw [scanElement, scanDimensions_eq_width]
  exact slice_rest hsplit

/-- **The element type is cut out behind the brackets.** -/
theorem scanElementType_eq (d : Descriptor) : d.scanElementType = .ok d.elementType :=
  Guarded.bind_of_ok d.scanElement_eq _

/-- An element type is named by its first byte and what is between that and its last one. -/
theorem elementName_eq {e : ElementType} (h : e.WellFormed) :
    elementName (String.ofList e.chars) = .ok e.displayName := by
  have hlist : (String.ofList e.chars).toList = e.chars := String.toList_ofList
  cases e with
  | base b =>
    cases b <;> exact Guarded.bind_of_ok (byteAt_zero hlist (by decide)) _
  | object name =>
    have hbounds : (standardBytes (String.ofList (ElementType.object name).chars)).length =
        width ('L' :: name) + 1 := by
      rw [length_standardBytes, hlist, ElementType.chars, width_append]
      rfl
    have hstop : minus (width ('L' :: name) + 1) 1 = .ok (width (['L'] ++ name)) :=
      if_pos (Nat.le_add_left 1 _)
    have hname : slice (String.ofList (ElementType.object name).chars) 1 (width (['L'] ++ name)) =
        .ok (String.ofList name) :=
      slice_eq (hlist.trans (congrArg (· ++ [';']) List.singleton_append.symm))
    refine (Guarded.bind_of_ok (byteAt_zero hlist (by decide)) _).trans ?_
    rw [hbounds]
    exact (Guarded.bind_of_ok hstop _).trans (Guarded.bind_of_ok hname _)

/-- A descriptor that is a result type is named by its element type and its brackets. -/
theorem exists_elementName {r : ResultType} (hwf : r.WellFormed) (hchars : r.chars = d.chars) :
    ∃ name, elementName d.elementType.text = .ok name ∧
      name ++ bracketPairs d.scanDimensions = r.displayName := by
  rw [scanDimensions_eq_width, elementType, ← hchars]
  cases r with
  | void =>
    have hlist : (String.ofList ['V']).toList = ['V'] := String.toList_ofList
    have hname : elementName (String.ofList ['V']) = .ok "void" :=
      Guarded.bind_of_ok (byteAt_zero hlist (by decide)) _
    exact ⟨"void", hname, String.append_empty⟩
  | value t =>
    obtain ⟨hbrackets, helement⟩ := takeWhile_dropWhile_chars t
    rw [ResultType.chars, hbrackets, helement, width_replicate (by decide)]
    exact ⟨_, elementName_eq hwf, t.displayName_eq.symm⟩

/-- **A descriptor is shown as it is read.** -/
theorem scanDisplayName_eq (d : Descriptor) : d.scanDisplayName = .ok d.displayName := by
  refine (Guarded.bind_of_ok (isResult_eq d.text) _).trans ?_
  have hsame : ResultType.ofChars? d.text.toList = ResultType.ofChars? d.chars := rfl
  rw [hsame, displayName]
  cases hresult : ResultType.ofChars? d.chars with
  | none => rfl
  | some r =>
    obtain ⟨hwf, hchars⟩ := ResultType.ofChars?_eq_some_iff.1 hresult
    obtain ⟨name, hname, hshown⟩ := exists_elementName hwf hchars
    refine (Guarded.bind_of_ok d.scanElement_eq _).trans ((Guarded.bind_of_ok hname _).trans ?_)
    exact congrArg (fun shown => Except.ok (Except.ok shown)) hshown

/-- An element type that is named has a first byte, and if that is no letter of a type on its own,
    also a last one behind it. -/
theorem exists_first_of_elementName {element name : String} (h : elementName element = .ok name) :
    ∃ first, byteAt (standardBytes element) 0 = .ok first ∧
      (BaseType.ofLetter? (Char.ofUInt8 first) = none → isByte 'V' first = false →
        1 ≤ (standardBytes element).length - 1) := by
  obtain ⟨first, hfirst, h⟩ := Guarded.exists_of_bind h
  refine ⟨first, hfirst, fun hletter hvoid => ?_⟩
  rw [hletter] at h
  dsimp only at h
  rw [hvoid, if_neg (by decide)] at h
  obtain ⟨stop, hstop, h⟩ := Guarded.exists_of_bind h
  obtain ⟨part, hpart, _⟩ := Guarded.exists_of_bind h
  obtain ⟨hle, _⟩ := places_of_slice hpart
  unfold minus at hstop
  split at hstop
  · cases hstop
    exact hle
  · exact nomatch hstop

/-- **No access to the bytes of a descriptor is refused**, whatever its text is, and what is made
    out of them is what is read of the characters. Types end within the bytes and behind where they
    start; the walk over the parameters gets to places between characters only, one behind the
    other, and comes to an end. -/
theorem scan_never_refused (d : Descriptor) :
    d.scanElementType = .ok d.elementType ∧
    d.scanParameterTypes =
      .ok ((fun types => types.map fun t => ⟨t.text⟩) <$> d.parameterTypes) ∧
    d.scanResultType = .ok ((fun r => ⟨r.text⟩) <$> d.resultType) ∧
    d.scanDisplayName = .ok d.displayName ∧
    (∀ bytes i, ∃ found, fieldEnd bytes i = .ok found ∧
      ∀ stop ∈ found, i < stop ∧ stop ≤ bytes.length) ∧
    (d.isMethod = true → ∀ w, Relation.ReflTransGen (Goes (standardBytes d.text)) start w →
      w.Sound (standardBytes d.text)) ∧
    (∀ run : Nat → Walk, ∃ n, ¬ Goes (standardBytes d.text) (run n) (run (n + 1))) ∧
    (∀ last, d.scanParameters = .ok (some last) →
      Relation.ReflTransGen (Goes (standardBytes d.text)) start last ∧
      last.place + 1 ≤ (standardBytes d.text).length ∧
      isBoundary (standardBytes d.text) (last.place + 1) = true) ∧
    (isResult d.text = .ok true →
      ∃ first, byteAt (standardBytes d.elementType.text) 0 = .ok first ∧
        (BaseType.ofLetter? (Char.ofUInt8 first) = none → isByte 'V' first = false →
          1 ≤ (standardBytes d.elementType.text).length - 1)) := by
  refine ⟨d.scanElementType_eq, d.scanParameterTypes_eq, d.scanResultType_eq, d.scanDisplayName_eq,
    fieldEnd_bounds, fun hmethod w hreaches => ?_, Walk.exists_not_goes _, fun last hlast => ?_,
    fun hresult => ?_⟩
  · obtain ⟨rest, hchars⟩ := List.head?_eq_some_iff.1 (beq_iff_eq.1 hmethod)
    obtain ⟨_, _, hreads⟩ := (Walk.start_reads hchars).reaches hreaches
    exact hreads.sound
  · have hwalk := d.scanParameters_cases
    cases hparameters : d.parameters? with
    | none =>
      rw [hparameters] at hwalk
      exact nomatch hlast.symm.trans hwalk
    | some p =>
      rw [hparameters] at hwalk
      obtain ⟨_, hsome, hreads, hreaches⟩ := hwalk
      cases hlast.symm.trans hsome
      obtain ⟨hle, _, hboundary, _⟩ := places_of_slice hreads.slice_behind
      exact ⟨hreaches, hle, hboundary⟩
  · have hsome := Except.ok.inj ((isResult_eq d.text).symm.trans hresult)
    obtain ⟨r, hr⟩ := Option.isSome_iff_exists.1 hsome
    obtain ⟨hwf, hchars⟩ := ResultType.ofChars?_eq_some_iff.1 hr
    obtain ⟨name, hname, _⟩ := exists_elementName hwf hchars
    exact exists_first_of_elementName hname

/-- An array of a class whose name is not one byte for each character, and texts that end too
    early. -/
theorem scan_never_refused_accented :
    let d : Descriptor := ⟨"([Lé;I)V"⟩
    d.scanParameterTypes = .ok (.ok [⟨"[Lé;"⟩, ⟨"I"⟩]) ∧
    d.scanResultType = .ok (.ok ⟨"V"⟩) ∧
    isBoundary (standardBytes d.text) 4 = false ∧
    (∀ text ∈ ["", "[[", "[Lé", "L;"],
      scanDisplayName ⟨text⟩ = .ok (.error (.invalidDescriptor text))) := by
  intro d
  obtain ⟨_, hparameters, hresult, _⟩ := scan_never_refused d
  have htypes : d.parameterTypes = .ok [⟨1, .object ['é']⟩, ⟨0, .base .int⟩] := by decide
  have hvoid : d.resultType = .ok .void := by decide
  have harray : (FieldType.mk 1 (.object ['é'])).text = "[Lé;" := by decide
  rw [htypes] at hparameters
  rw [hvoid] at hresult
  refine ⟨harray ▸ hparameters, hresult, by decide, ?_⟩
  intro text htext
  obtain ⟨_, _, _, hshown, _⟩ := scan_never_refused ⟨text⟩
  rw [hshown]
  simp only [List.mem_cons, List.not_mem_nil, or_false] at htext
  rcases htext with rfl | rfl | rfl | rfl <;> rfl

end ClassView.Descriptor
