import ClassView.Listing.Basic
import ClassView.Proofs.Outcome
import Mathlib.Data.List.Flatten

/-!
# More and less detail

The options of a listing only decide what is shown. A listing with less detail looks up less, so it
is made wherever one with more detail is, and as long as both are verbose or none is, it is that one
with lines left out. A verbose listing shows both tables, asked for or not.

* `ListingOptions.Within`: the first options ask for no more than the second ones;
* `fieldLines_within`, `methodLines_within`: lines left out of members;
* `textLines_unlines`: the lines of a text that is made of lines;
* **`disassemble_detail`**: less detail is a listing with lines left out.
-/

namespace ClassView

open Outcome

/-! ## 1. More and fewer options -/

/-- The first options ask for no more than the second ones, which show both tables anyway where they
    are verbose. -/
structure ListingOptions.Within (few many : ListingOptions) : Prop where
  skipCode : many.skipCode = true → few.skipCode = true
  verbose : few.verbose = true → many.verbose = true
  lineNumbers : few.lineNumbers = true → many.lineNumbers = true ∨ many.verbose = true
  localVariables : few.localVariables = true → many.localVariables = true ∨ many.verbose = true

variable {few many : ListingOptions}

theorem ListingOptions.Within.showsLineNumbers (h : few.Within many)
    (hfew : few.showsLineNumbers = true) : many.showsLineNumbers = true := by
  rcases Bool.or_eq_true_iff.1 hfew with hverbose | hlines
  · exact Bool.or_eq_true_iff.2 (.inl (h.verbose hverbose))
  · exact Bool.or_eq_true_iff.2 (h.lineNumbers hlines).symm

theorem ListingOptions.Within.showsLocalVariables (h : few.Within many)
    (hfew : few.showsLocalVariables = true) : many.showsLocalVariables = true := by
  rcases Bool.or_eq_true_iff.1 hfew with hverbose | hlocals
  · exact Bool.or_eq_true_iff.2 (.inl (h.verbose hverbose))
  · exact Bool.or_eq_true_iff.2 (h.localVariables hlocals).symm

/-! ## 2. Lines left out -/

section Rows

variable {β : Type} {R : β → β → Prop} {x x' : Outcome (List String)}
  {next next' : List String → Outcome β}

theorem shown_sublist {shown shown' : Bool} {lines : List String}
    (h : shown = true → shown' = true) :
    (if shown then lines else []).Sublist (if shown' then lines else []) := by
  cases shown with
  | false => exact List.nil_sublist _
  | true => rw [h rfl]

/-- Lines that are shown on a condition, with what is behind them. -/
theorem within_if {shown shown' : Bool} (h : shown = true → shown' = true)
    (hlines : Within List.Sublist x x')
    (hnext : ∀ lines lines', lines.Sublist lines' → Within R (next lines) (next' lines')) :
    Within R (if shown then x >>= next else pure [] >>= next)
      (if shown' then x' >>= next' else pure [] >>= next') := by
  cases shown with
  | true =>
    rw [h rfl]
    exact hlines.bind hnext
  | false =>
    have hnone : ∀ y, Within R (pure [] >>= next) (y >>= next') := fun y =>
      .skip fun lines' => hnext [] lines' (List.nil_sublist lines')
    cases shown' with
    | true => exact hnone x'
    | false => exact hnone (pure [])

/-- Lines that are left out on a condition, with what is behind them. -/
theorem within_unless {hidden hidden' : Bool} (h : hidden' = true → hidden = true)
    (hlines : Within List.Sublist x x')
    (hnext : ∀ lines lines', lines.Sublist lines' → Within R (next lines) (next' lines')) :
    Within R (if hidden then pure [] >>= next else x >>= next)
      (if hidden' then pure [] >>= next' else x' >>= next') := by
  have hshown : (!hidden) = true → (!hidden') = true := by
    cases hidden <;> cases hidden' <;> simp_all
  have hif := within_if hshown hlines hnext
  cases hidden <;> cases hidden' <;> exact hif

/-- What is left out of the parts is left out of the whole, whatever is put between them. -/
theorem intercalate_sublist {between : List String} {parts parts' : List (List String)}
    (h : List.Forall₂ List.Sublist parts parts') :
    (between.intercalate parts).Sublist (between.intercalate parts') := by
  induction h with
  | nil => exact List.Sublist.refl _
  | cons hfirst hrest ih =>
    cases hrest with
    | nil =>
      rw [List.intercalate_singleton, List.intercalate_singleton]
      exact hfirst
    | cons hnext hrest =>
      rw [List.intercalate_cons_cons, List.intercalate_cons_cons]
      exact (hfirst.append (List.Sublist.refl _)).append ih

end Rows

/-! ## 3. Members with fewer lines -/

variable {pool : ConstantPool} {c : ClassFile} {m : Method} {code : Code}

theorem fieldLines_within {f : Field} (h : few.Within many) :
    Within List.Sublist (fieldLines few pool f) (fieldLines many pool f) := by
  unfold fieldLines
  refine .same fun descriptor => .same fun type => .same fun name => ?_
  by_cases hfew : few.verbose = true
  · rw [if_pos hfew, if_pos (h.verbose hfew)]
    exact .refl List.Sublist.refl _
  · rw [if_neg hfew]
    by_cases hmany : many.verbose = true
    · rw [if_pos hmany]
      refine .skip fun constant => .pure ?_
      rw [List.append_assoc]
      exact List.sublist_append_left _ _
    · rw [if_neg hmany]
      exact .pure (List.Sublist.refl _)

theorem bodyLines_within (h : few.Within many) :
    Within List.Sublist (bodyLines few pool m code) (bodyLines many pool m code) := by
  unfold bodyLines
  refine within_if h.verbose (.refl List.Sublist.refl _) fun _ _ hsize => ?_
  refine .same fun instructions => .same fun handlers => .pure ?_
  exact (((List.Sublist.refl _).append hsize).append (.refl _)).append (.refl _)

theorem debugLines_within (h : few.Within many) :
    Within List.Sublist (debugLines few pool code) (debugLines many pool code) := by
  unfold debugLines
  refine within_if h.showsLocalVariables (.refl List.Sublist.refl _) fun _ _ hlocals => .pure ?_
  exact (shown_sublist h.showsLineNumbers).append hlocals

theorem methodLines_within (h : few.Within many) :
    Within List.Sublist (methodLines few c m) (methodLines many c m) := by
  unfold methodLines
  refine .same fun declaration => ?_
  refine within_if h.verbose (.refl List.Sublist.refl _) fun _ _ hdetail => ?_
  have hhead := (List.Sublist.refl ["  " ++ declaration]).append hdetail
  cases m.code? with
  | none => exact .pure hhead
  | some code =>
    refine within_unless h.skipCode (bodyLines_within h) fun _ _ hbody => ?_
    refine .bind (debugLines_within h) fun _ _ hdebug => .pure ?_
    exact (hhead.append hbody).append hdebug

/-! ## 4. Listings with fewer lines -/

theorem memberLines_within (h : few.Within many) :
    Within List.Sublist (c.memberLines few) (c.memberLines many) := by
  unfold ClassFile.memberLines
  refine .bind (.mapM fun f _ => fieldLines_within h) fun _ _ hfields => ?_
  refine .bind (.mapM fun m _ => methodLines_within h) fun _ _ hmethods => .pure ?_
  exact intercalate_sublist (List.rel_append hfields hmethods)

/-- The lines up to the brace are the same if both are verbose or none is. -/
theorem openingLines_within (h : few.Within many) :
    Within (fun lines lines' => few.verbose = many.verbose → lines = lines')
      (c.openingLines few) (c.openingLines many) := by
  unfold ClassFile.openingLines
  refine .same fun declaration => ?_
  by_cases hfew : few.verbose = true
  · rw [if_pos hfew, if_pos (h.verbose hfew)]
    exact .refl (fun _ _ => rfl) _
  · rw [if_neg hfew]
    by_cases hmany : many.verbose = true
    · rw [if_pos hmany]
      exact .skip fun header => .skip fun rows => .pure fun heq => absurd (heq.trans hmany) hfew
    · rw [if_neg hmany]
      exact .pure fun _ => rfl

theorem listing_within (h : few.Within many) :
    Within (fun lines lines' => few.verbose = many.verbose → lines.Sublist lines')
      (c.listing few) (c.listing many) := by
  unfold ClassFile.listing
  refine .same fun source => .bind (openingLines_within h) fun _ _ hopening => ?_
  refine .bind (memberLines_within h) fun _ _ hmembers => ?_
  refine within_if h.verbose (.refl List.Sublist.refl _) fun _ _ hclosing => .pure fun heq => ?_
  rw [hopening heq]
  exact (((List.Sublist.refl _).append hmembers).append (.refl _)).append hclosing

/-- A listing depends on its options only through what they show. -/
theorem ClassFile.listing_congr {o o' : ListingOptions} (hskip : o.skipCode = o'.skipCode)
    (hverbose : o.verbose = o'.verbose) (hlines : o.showsLineNumbers = o'.showsLineNumbers)
    (hlocals : o.showsLocalVariables = o'.showsLocalVariables) : c.listing o = c.listing o' := by
  have hfield : fieldLines o c.pool = fieldLines o' c.pool := by
    unfold fieldLines
    rw [hverbose]
  have hmethod : methodLines o c = methodLines o' c := by
    unfold methodLines bodyLines debugLines
    rw [hskip, hverbose, hlines, hlocals]
  unfold ClassFile.listing ClassFile.openingLines ClassFile.memberLines
  rw [hverbose, hfield, hmethod]

/-! ## 5. Texts with fewer lines -/

/-- The lines of a text, the last one being what stands behind the last end of a line. -/
def textLines (text : String) : List (List Char) := text.toList.splitOn '\n'

/-- A line of a listing may hold ends of lines itself, so it may count as several lines. -/
theorem textLines_unlines (lines : List String) :
    textLines (unlines lines) = lines.flatMap textLines ++ [[]] := by
  unfold textLines
  induction lines with
  | nil => rfl
  | cons line lines ih =>
    have hcons : (unlines (line :: lines)).toList =
        line.toList ++ '\n' :: (unlines lines).toList := by
      unfold unlines
      rw [String.toList_join, String.toList_join]
      simp
    rw [hcons, List.splitOn_append_cons_self, ih, List.flatMap_cons, List.append_assoc]

theorem textLines_sublist {lines lines' : List String} (h : lines.Sublist lines') :
    (textLines (unlines lines)).Sublist (textLines (unlines lines')) := by
  rw [textLines_unlines, textLines_unlines]
  exact (h.flatMap textLines).append (.refl _)

theorem disassemble_within (texts : TextReader) (bytes : List UInt8) (h : few.Within many) :
    Within (fun text text' => few.verbose = many.verbose →
        (textLines text).Sublist (textLines text'))
      (disassemble few bytes texts) (disassemble many bytes texts) := by
  unfold disassemble
  refine .same fun c => .bind (listing_within h) fun _ _ hlines => .pure fun heq => ?_
  exact textLines_sublist (hlines heq)

/-- **Options only add and remove detail.** A listing is made wherever one with more detail is, and
    it is that one with lines left out if both are verbose or none is. In a verbose listing it makes
    no difference whether the tables are asked for, neither to the lines nor to the fault. -/
theorem disassemble_detail :
    (∀ few many : ListingOptions, few.Within many →
      (∀ (c : ClassFile) lines, c.listing many = .ok lines → ∃ fewer, c.listing few = .ok fewer ∧
        (few.verbose = many.verbose → fewer.Sublist lines)) ∧
      ∀ texts bytes text, disassemble many bytes texts = .ok text →
        ∃ less, disassemble few bytes texts = .ok less ∧
          (few.verbose = many.verbose → (textLines less).Sublist (textLines text))) ∧
    ∀ (o : ListingOptions) lineNumbers localVariables, o.verbose = true →
      (∀ c : ClassFile, c.listing { o with lineNumbers, localVariables } = c.listing o) ∧
      ∀ texts bytes, disassemble { o with lineNumbers, localVariables } bytes texts =
        disassemble o bytes texts := by
  refine ⟨fun few many h => ⟨fun c => listing_within h,
    fun texts bytes => disassemble_within texts bytes h⟩,
    fun o lineNumbers localVariables hverbose => ?_⟩
  have hshown (asked : Bool) : (o.verbose || asked) = true := Bool.or_eq_true_iff.2 (.inl hverbose)
  have hlisting (c : ClassFile) :
      c.listing { o with lineNumbers, localVariables } = c.listing o :=
    ClassFile.listing_congr rfl rfl ((hshown lineNumbers).trans (hshown o.lineNumbers).symm)
      ((hshown localVariables).trans (hshown o.localVariables).symm)
  refine ⟨hlisting, fun texts bytes => ?_⟩
  unfold disassemble
  simp only [hlisting]

/-- A class with a method that returns at once, and the line that it was made from. -/
def oneLine : List UInt8 :=
  [0xca, 0xfe, 0xba, 0xbe, 0, 0, 0, 52, 0, 6, 1, 0, 1, 65, 7, 0, 1, 1, 0, 4, 67, 111, 100, 101,
    1, 0, 3, 40, 41, 86, 1, 0, 15, 76, 105, 110, 101, 78, 117, 109, 98, 101, 114, 84, 97, 98, 108,
    101, 0, 1, 0, 2, 0, 0, 0, 0, 0, 0, 0, 1, 0, 1, 0, 3, 0, 4, 0, 1,
    0, 3, 0, 0, 0, 25, 0, 0, 0, 1, 0, 0, 0, 1, 0xb1, 0, 0, 0, 1,
    0, 5, 0, 0, 0, 6, 0, 1, 0, 0, 0, 7, 0, 0]

/-- Its table of line numbers is left out of the plain listing, and shown in a verbose one. -/
theorem disassemble_detail_oneLine :
    (∃ text less, disassemble ⟨false, true, false, false⟩ oneLine = .ok text ∧
      disassemble .plain oneLine = .ok less ∧ (textLines less).Sublist (textLines text)) ∧
    disassemble ⟨false, true, true, true⟩ oneLine =
      disassemble ⟨false, false, false, true⟩ oneLine := by
  obtain ⟨hdetail, hverbose⟩ := disassemble_detail
  have hwithin : ListingOptions.plain.Within ⟨false, true, false, false⟩ :=
    ⟨by decide, by decide, by decide, by decide⟩
  refine ⟨?_, (hverbose ⟨false, false, false, true⟩ true true rfl).2 Text.text? oneLine⟩
  obtain ⟨text, htext⟩ : (disassemble ⟨false, true, false, false⟩ oneLine).Succeeds := by
    decide +kernel
  obtain ⟨less, hless, hsublist⟩ := (hdetail _ _ hwithin).2 Text.text? oneLine text htext
  exact ⟨text, less, htext, hless, hsublist rfl⟩

end ClassView
