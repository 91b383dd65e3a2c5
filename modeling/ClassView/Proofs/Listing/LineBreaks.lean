import ClassView.Listing.Basic
import ClassView.Proofs.Listing.Targets
import Mathlib.Algebra.BigOperators.Group.List.Basic
import Mathlib.Algebra.GroupWithZero.Nat

/-!
# Line structure of code

A listing shows one instruction a line, and a switch on a line for each case and three more. Phrases
for indices of the pool hold texts of the class file. String constants, special names and the names
of array classes are written as literals, which hold no end of a line; all other names and
descriptors stand there as they are, with whatever ends of lines they hold.

* `lineBreaks`, `allBreaks`: the ends of lines in texts; `lineBreaks_literal`: none in a literal;
* `MemberRef.bareTexts`, `LoadableConstant.bareTexts`: the texts in a phrase that are not quoted;
* `LoadableConstant.lineBreaks_phrase`: a phrase breaks where they do;
* `Instruction.bareTexts`, `Instruction.lineCount`: the same for an instruction, and its lines;
* **`lineBreaks_code`**: the lines of code, and what can break them.
-/

namespace ClassView

open Outcome

/-! ## 1. Ends of lines in a text -/

/-- How many ends of lines the text holds. -/
def lineBreaks (s : String) : Nat := s.toList.count '\n'

/-- How many ends of lines the texts hold together. -/
def allBreaks (texts : List String) : Nat := (texts.map lineBreaks).sum

theorem lineBreaks_ofList (cs : List Char) : lineBreaks (String.ofList cs) = cs.count '\n' := by
  rw [lineBreaks, String.toList_ofList]

@[simp] theorem lineBreaks_append (s t : String) :
    lineBreaks (s ++ t) = lineBreaks s + lineBreaks t := by
  rw [lineBreaks, String.toList_append, List.count_append]
  rfl

@[simp] theorem allBreaks_nil : allBreaks [] = 0 := rfl

@[simp] theorem allBreaks_cons (s : String) (texts : List String) :
    allBreaks (s :: texts) = lineBreaks s + allBreaks texts := List.sum_cons

@[simp] theorem allBreaks_append (texts more : List String) :
    allBreaks (texts ++ more) = allBreaks texts + allBreaks more := by
  simp [allBreaks]

theorem allBreaks_singleton (s : String) : allBreaks [s] = lineBreaks s := List.sum_singleton

theorem allBreaks_eq_zero_iff {texts : List String} :
    allBreaks texts = 0 ↔ ∀ s ∈ texts, '\n' ∉ s.toList := by
  induction texts with
  | nil => exact iff_of_true rfl (List.forall_mem_nil _)
  | cons s texts ih =>
    rw [allBreaks_cons, Nat.add_eq_zero_iff, ih, List.forall_mem_cons, lineBreaks,
      List.count_eq_zero]

theorem lineBreaks_join (texts : List String) :
    lineBreaks (String.join texts) = allBreaks texts := by
  rw [lineBreaks, String.toList_join, List.count_flatMap]
  rfl

/-- Every line of a text of lines is ended, whatever ends of lines it holds itself. -/
theorem lineBreaks_unlines (lines : List String) :
    lineBreaks (unlines lines) = lines.length + allBreaks lines := by
  unfold unlines
  rw [lineBreaks_join]
  induction lines with
  | nil => rfl
  | cons line lines ih =>
    have hend : lineBreaks "\n" = 1 := rfl
    rw [List.map_cons, allBreaks_cons, ih, lineBreaks_append, hend, List.length_cons,
      allBreaks_cons]
    omega

/-! ## 2. Numbers -/

theorem count_toDigits (base n : Nat) : (Nat.toDigits base n).count '\n' = 0 := by
  have hcore : ∀ fuel n ds, ds.count '\n' = 0 →
      (Nat.toDigitsCore base fuel n ds).count '\n' = 0 := by
    intro fuel
    induction fuel with
    | zero => exact fun n ds h => h
    | succ fuel ih =>
      intro n ds h
      have hcons : ((n % base).digitChar :: ds).count '\n' = 0 := by
        rw [List.count_cons_of_ne (Nat.digitChar_ne '\n' rfl), h]
      simp only [Nat.toDigitsCore]
      split
      · exact hcons
      · exact ih _ _ hcons
  exact hcore _ _ [] rfl

theorem lineBreaks_nat (n : Nat) : lineBreaks (toString n) = 0 := by
  rw [Nat.toString_eq_ofList_toDigits, lineBreaks_ofList, count_toDigits]

theorem lineBreaks_int (n : Int) : lineBreaks (toString n) = 0 := by
  cases n with
  | ofNat n => exact lineBreaks_nat n
  | negSucc n =>
    have hsign : lineBreaks ("-" ++ toString n.succ) = 0 := by
      rw [lineBreaks_append, lineBreaks_nat]
      rfl
    exact hsign

theorem lineBreaks_int32 (n : Int32) : lineBreaks (toString n) = 0 := lineBreaks_int n.toInt

theorem lineBreaks_int16 (n : Int16) : lineBreaks (toString n) = 0 := lineBreaks_int n.toInt

theorem lineBreaks_int64 (n : Int64) : lineBreaks (toString n) = 0 := lineBreaks_int n.toInt

theorem lineBreaks_uint8 (n : UInt8) : lineBreaks (toString n) = 0 := lineBreaks_nat n.toNat

theorem lineBreaks_uint16 (n : UInt16) : lineBreaks (toString n) = 0 :=
  lineBreaks_nat n.toNat

theorem lineBreaks_hexPadded (width n : Nat) : lineBreaks (Text.hexPadded width n) = 0 := by
  unfold Text.hexPadded
  rw [lineBreaks_ofList, List.count_append, count_toDigits, List.count_replicate]
  rfl

/-! ## 3. Columns and literals -/

theorem lineBreaks_spaces (n : Nat) : lineBreaks (Text.spaces n) = 0 := by
  unfold Text.spaces
  rw [lineBreaks_ofList, List.count_replicate]
  rfl

@[simp] theorem lineBreaks_padRight (width : Nat) (s : String) :
    lineBreaks (Text.padRight width s) = lineBreaks s := by
  rw [Text.padRight, lineBreaks_append, lineBreaks_spaces, Nat.add_zero]

@[simp] theorem lineBreaks_padLeft (width : Nat) (s : String) :
    lineBreaks (Text.padLeft width s) = lineBreaks s := by
  rw [Text.padLeft, lineBreaks_append, lineBreaks_spaces, Nat.zero_add]

theorem count_literalCharacter (c : Char) : (Text.literalCharacter c).count '\n' = 0 := by
  unfold Text.literalCharacter
  split
  case h_8 _ _ hbreak _ _ _ _ =>
    split
    · have hdigits : (Text.hexPadded 4 c.toNat).toList.count '\n' = 0 := lineBreaks_hexPadded 4 _
      rw [List.count_cons_of_ne (by decide), List.count_cons_of_ne (by decide), hdigits]
    · exact List.count_eq_zero.2 fun h => hbreak (List.mem_singleton.1 h).symm
  all_goals rfl

/-- **A literal holds no end of a line.** -/
@[simp] theorem lineBreaks_literal (s : String) : lineBreaks (Text.literal s) = 0 := by
  have hescape : lineBreaks (Text.escape s) = 0 := by
    unfold Text.escape
    rw [lineBreaks_ofList, List.count_flatMap]
    refine List.sum_eq_zero fun n hn => ?_
    obtain ⟨c, _, rfl⟩ := List.mem_map.1 hn
    exact count_literalCharacter c
  unfold Text.literal
  rw [lineBreaks_append, lineBreaks_append, hescape]
  rfl

/-! ## 4. Floating-point numbers -/

open Number

theorem count_take_drop {cs : List Char} (h : cs.count '\n' = 0) (n : Nat) :
    (cs.take n).count '\n' = 0 ∧ (cs.drop n).count '\n' = 0 := by
  have hsplit := congrArg (List.count '\n') (List.take_append_drop n cs)
  rw [List.count_append, h] at hsplit
  omega

theorem lineBreaks_zeros (n : Nat) : lineBreaks (zeros n) = 0 := by
  unfold zeros
  rw [lineBreaks_ofList, List.count_replicate]
  rfl

theorem lineBreaks_positional (d : Decimal) : lineBreaks d.positional = 0 := by
  have hdigits : lineBreaks d.digits = 0 := lineBreaks_nat d.coefficient
  obtain ⟨htake, hdrop⟩ := count_take_drop hdigits (d.digits.toList.length - (-d.exponent).toNat)
  unfold Decimal.positional
  dsimp only
  split_ifs
  · rw [lineBreaks_append, lineBreaks_append, hdigits, lineBreaks_zeros]
    rfl
  · simp only [lineBreaks_append, lineBreaks_ofList, htake, hdrop]
    rfl
  · rw [lineBreaks_append, lineBreaks_append, hdigits, lineBreaks_zeros]
    rfl

theorem lineBreaks_scientific (d : Decimal) : lineBreaks d.scientific = 0 := by
  have hdigits : lineBreaks d.digits = 0 := lineBreaks_nat d.coefficient
  have hparts := count_take_drop hdigits 1
  unfold Decimal.scientific
  dsimp only
  split_ifs
  · simp only [lineBreaks_append, lineBreaks_ofList, hparts.1, lineBreaks_int]
    rfl
  · simp only [lineBreaks_append, lineBreaks_ofList, hparts.1, hparts.2, lineBreaks_int]
    rfl

theorem lineBreaks_listingFloats (format : BinaryFormat) (bits : Nat) :
    lineBreaks (listingFloats.text format bits) = 0 := by
  have hsigned : ∀ negative text, lineBreaks text = 0 →
      lineBreaks (FloatLayout.signed negative text) = 0 := by
    intro negative text h
    cases negative with
    | false => exact h
    | true => exact (lineBreaks_append "-" text).trans (by rw [h]; rfl)
  unfold FloatLayout.text
  cases FloatValue.ofBits format bits with
  | notANumber => rfl
  | infinite negative => exact hsigned negative _ rfl
  | finite negative v =>
    refine hsigned negative _ ?_
    unfold FloatLayout.magnitude
    split_ifs
    · rfl
    · exact lineBreaks_positional _
    · exact lineBreaks_scientific _

@[simp] theorem lineBreaks_floatText (bits : UInt32) : lineBreaks (floatText bits) = 0 :=
  lineBreaks_listingFloats _ _

@[simp] theorem lineBreaks_doubleText (bits : UInt64) : lineBreaks (doubleText bits) = 0 :=
  lineBreaks_listingFloats _ _

/-! ## 5. Phrases -/

/-- A name as it stands in a phrase, if it is not quoted there. -/
def bareName (quoted : Char) (name : String) : List String :=
  if name.toList.head? == some quoted then [] else [name]

/-- The texts of a member that are not quoted. -/
def MemberRef.bareTexts (m : MemberRef) : List String :=
  m.owner :: bareName '<' m.name ++ [m.descriptor]

/-- The texts of a dynamic reference, none of which is quoted. -/
def DynamicRef.bareTexts (d : DynamicRef) : List String :=
  [d.nameAndType.name, d.nameAndType.descriptor]

/-- The texts of a constant that are not quoted. -/
def LoadableConstant.bareTexts : LoadableConstant → List String
  | .integer _ | .float _ | .long _ | .double _ | .string _ => []
  | .classRef name => bareName '[' name
  | .methodType descriptor => [descriptor]
  | .methodHandle handle => handle.member.bareTexts
  | .dynamic ref => ref.bareTexts

theorem lineBreaks_memberName (name : String) :
    lineBreaks (memberName name) = allBreaks (bareName '<' name) := by
  unfold memberName bareName
  split
  · exact lineBreaks_literal name
  · rfl

theorem lineBreaks_classPhrase (name : String) :
    lineBreaks (classPhrase name) = allBreaks (bareName '[' name) := by
  have hclass : lineBreaks "Class " = 0 := rfl
  unfold classPhrase bareName
  split
  · rw [lineBreaks_append, hclass, lineBreaks_literal, allBreaks_nil]
  · rw [lineBreaks_append, hclass, allBreaks_cons, allBreaks_nil, Nat.zero_add, Nat.add_zero]

theorem MemberRef.lineBreaks_text (m : MemberRef) : lineBreaks m.text = allBreaks m.bareTexts := by
  have htext : m.text = m.owner ++ "." ++ memberName m.name ++ ":" ++ m.descriptor := rfl
  have hdot : lineBreaks "." = 0 := rfl
  have hcolon : lineBreaks ":" = 0 := rfl
  simp [htext, hdot, hcolon, lineBreaks_memberName, bareTexts]
  omega

theorem MemberRef.lineBreaks_phrase (m : MemberRef) :
    lineBreaks m.phrase = allBreaks m.bareTexts := by
  have hphrase : m.phrase = m.kind.label ++ " " ++ m.text := rfl
  have hlabel : lineBreaks (m.kind.label ++ " ") = 0 := by cases m.kind <;> rfl
  rw [hphrase, lineBreaks_append, hlabel, lineBreaks_text, Nat.zero_add]

theorem MethodHandle.lineBreaks_text (h : MethodHandle) :
    lineBreaks h.text = allBreaks h.member.bareTexts := by
  have htext : h.text = h.kindName ++ " " ++ h.member.text := rfl
  have hkind : lineBreaks (h.kindName ++ " ") = 0 := by
    unfold kindName
    split <;> rfl
  rw [htext, lineBreaks_append, hkind, MemberRef.lineBreaks_text, Nat.zero_add]

theorem DynamicRef.lineBreaks_text (d : DynamicRef) :
    lineBreaks d.text = allBreaks d.bareTexts := by
  have htext : d.text = "#" ++ toString d.bootstrap ++ ":" ++ d.nameAndType.name ++ ":" ++
      d.nameAndType.descriptor := rfl
  have hhash : lineBreaks "#" = 0 := rfl
  have hcolon : lineBreaks ":" = 0 := rfl
  simp [htext, hhash, hcolon, bareTexts, lineBreaks_uint16]

/-- **A phrase breaks where one of its bare texts does, and nowhere else.** -/
theorem LoadableConstant.lineBreaks_phrase (constant : LoadableConstant) :
    lineBreaks constant.phrase = allBreaks constant.bareTexts := by
  have hword : ∀ word text, lineBreaks word = 0 → lineBreaks (word ++ text) = lineBreaks text :=
    fun word text h => by rw [lineBreaks_append, h, Nat.zero_add]
  cases constant with
  | integer v => exact (hword "int " _ rfl).trans (lineBreaks_int32 v)
  | float bits =>
    refine (lineBreaks_append ("float " ++ floatText bits) "f").trans ?_
    rw [hword _ _ rfl, lineBreaks_floatText]
    rfl
  | long v =>
    refine (lineBreaks_append ("long " ++ toString v) "l").trans ?_
    rw [hword _ _ rfl, lineBreaks_int64]
    rfl
  | double bits =>
    refine (lineBreaks_append ("double " ++ doubleText bits) "d").trans ?_
    rw [hword _ _ rfl, lineBreaks_doubleText]
    rfl
  | string text => exact (hword "String " _ rfl).trans (lineBreaks_literal text)
  | classRef name => exact lineBreaks_classPhrase name
  | methodType descriptor => exact hword "MethodType " descriptor rfl
  | methodHandle handle => exact (hword "MethodHandle " _ rfl).trans handle.lineBreaks_text
  | dynamic ref => exact (hword "Dynamic " _ rfl).trans ref.lineBreaks_text

/-! ## 6. Lines of instructions -/

/-- The texts that stand bare in the phrase for an index, by what the index has to be of. -/
def ConstantPool.bareTexts (pool : ConstantPool) (index : UInt16) :
    PoolUse → Outcome (List String)
  | .constant => LoadableConstant.bareTexts <$> pool.constant index
  | .field => MemberRef.bareTexts <$> pool.fieldRef index
  | .method => MemberRef.bareTexts <$> pool.methodRef index
  | .anyMethod => MemberRef.bareTexts <$> pool.invocable index
  | .interfaceMethod => MemberRef.bareTexts <$> pool.interfaceMethodRef index
  | .dynamicCall => DynamicRef.bareTexts <$> pool.invokeDynamic index
  | .classRef => bareName '[' <$> pool.classDisplayName index

namespace Instruction

/-- The texts of the pool that stand bare in the lines of an instruction. -/
def bareTexts (pool : ConstantPool) (i : Instruction) : Outcome (List String) :=
  match i.operand.poolIndex?, i.opcode.poolUse? with
  | some index, some use => pool.bareTexts index use
  | _, _ => pure []

/-- How many lines an instruction is listed on. -/
def lineCount (i : Instruction) : Nat :=
  match i.operand with
  | .tableSwitch _ _ _ offsets => offsets.length + 3
  | .lookupSwitch _ pairs => pairs.length + 3
  | _ => 1

end Instruction

variable {pool : ConstantPool} {i : Instruction} {index : UInt16}

/-- A phrase with just the breaks of the bare texts in it. -/
theorem bareTexts_of_phrase {α : Type} {look : Outcome α} {phrase : α → String}
    {bare : α → List String} {shown : String} (h : phrase <$> look = .ok shown)
    (hbare : ∀ a, lineBreaks (phrase a) = allBreaks (bare a)) :
    ∃ texts, bare <$> look = .ok texts ∧ lineBreaks shown = allBreaks texts := by
  obtain ⟨a, ha, rfl⟩ := map_eq_ok_iff.1 h
  exact ⟨bare a, map_eq_ok_iff.2 ⟨a, ha, rfl⟩, hbare a⟩

/-- The phrase for an index behind an opcode, by the test that the opcode passes. -/
theorem bareTexts_of_indexPhrase {shown : String} (h : indexPhrase pool i index = .ok shown) :
    ∃ use texts, i.opcode.poolUse? = some use ∧ pool.bareTexts index use = .ok texts ∧
      lineBreaks shown = allBreaks texts := by
  obtain ⟨hconstant, hfield, hmethod, hany, hclass⟩ := i.opcode.poolUse?_of_test
  have hmember := MemberRef.lineBreaks_phrase
  unfold indexPhrase at h
  split_ifs at h with hc hf hm ha hu
  · exact ⟨.constant, (bareTexts_of_phrase h LoadableConstant.lineBreaks_phrase).imp
      fun _ htexts => ⟨hconstant hc, htexts⟩⟩
  · exact ⟨.field, (bareTexts_of_phrase h hmember).imp fun _ htexts => ⟨hfield hf, htexts⟩⟩
  · exact ⟨.method, (bareTexts_of_phrase h hmember).imp fun _ htexts => ⟨hmethod hm, htexts⟩⟩
  · exact ⟨.anyMethod, (bareTexts_of_phrase h hmember).imp fun _ htexts => ⟨hany ha, htexts⟩⟩
  · exact ⟨.classRef, (bareTexts_of_phrase h lineBreaks_classPhrase).imp
      fun _ htexts => ⟨hclass hu, htexts⟩⟩

theorem lineBreaks_mnemonic (op : Opcode) : lineBreaks op.mnemonic = 0 := by
  have htable : ∀ name ∈ Opcode.mnemonics.toList, lineBreaks name = 0 := by decide +kernel
  have hfound : ∀ name, op.mnemonic? = some name → lineBreaks name = 0 := by
    intro name h
    unfold Opcode.mnemonic? at h
    split at h
    · cases h
      rfl
    · cases h
      rfl
    · cases h
      rfl
    · exact htable name (Array.mem_toList_iff.2 (Array.mem_of_getElem? h))
  unfold Opcode.mnemonic
  cases hname : op.mnemonic? with
  | none => rfl
  | some name => exact hfound name hname

theorem lineBreaks_elementTypeName {element : UInt8} {name : String}
    (h : elementTypeName? element = some name) : lineBreaks name = 0 := by
  unfold elementTypeName? at h
  split at h <;> cases h <;> rfl

theorem lineBreaks_name (i : Instruction) : lineBreaks i.name = 0 := by
  have hmark : lineBreaks "_w" = 0 := rfl
  unfold Instruction.name Instruction.mnemonic
  split
  · rw [lineBreaks_append, lineBreaks_mnemonic, hmark]
  · exact lineBreaks_mnemonic i.opcode

theorem lineBreaks_pcColumn (i : Instruction) : lineBreaks (pcColumn i) = 0 := by
  have hcolon : lineBreaks ": " = 0 := rfl
  rw [pcColumn, lineBreaks_append, lineBreaks_padLeft, lineBreaks_nat, hcolon]

theorem lineBreaks_bareLine (i : Instruction) : lineBreaks (bareLine i) = 0 := by
  rw [bareLine, lineBreaks_append, lineBreaks_pcColumn, lineBreaks_name]

theorem lineBreaks_operandLine (i : Instruction) (operand : String) :
    lineBreaks (operandLine i operand) = lineBreaks operand := by
  have hspace : lineBreaks " " = 0 := rfl
  simp [operandLine, lineBreaks_pcColumn, lineBreaks_name, hspace]

theorem lineBreaks_phraseLine {operand : String} (i : Instruction) (phrase : String)
    (h : lineBreaks operand = 0) :
    lineBreaks (phraseLine i operand phrase) = lineBreaks phrase := by
  have hslashes : lineBreaks " // " = 0 := rfl
  simp [phraseLine, lineBreaks_operandLine, h, hslashes]

/-- The lines of a switch hold nothing but numbers. -/
theorem allBreaks_switchLines {head : String} (i : Instruction) (cases : List (Int × Int32))
    (default : Int32) (h : lineBreaks head = 0) :
    allBreaks (switchLines i head cases default) = 0 := by
  have hcase : ∀ label offset, lineBreaks label = 0 → lineBreaks (caseLine i label offset) = 0 := by
    intro label offset hlabel
    have hcolon : lineBreaks ": " = 0 := rfl
    rw [caseLine, lineBreaks_append, lineBreaks_append, lineBreaks_padLeft, hlabel, hcolon,
      lineBreaks_int]
  have hhead : lineBreaks (pcColumn i ++ Text.padRight 13 i.name ++ " \x7b // " ++ head) = 0 := by
    have hopen : lineBreaks " \x7b // " = 0 := rfl
    simp [lineBreaks_pcColumn, lineBreaks_name, hopen, h]
  have hclose : lineBreaks (Text.padLeft 11 "\x7d") = 0 := lineBreaks_padLeft 11 "\x7d"
  have hends : allBreaks [caseLine i "default" default, Text.padLeft 11 "\x7d"] = 0 := by
    rw [allBreaks_cons, hcase "default" default rfl, allBreaks_singleton, hclose]
  unfold switchLines
  rw [allBreaks_append, allBreaks_append, allBreaks_singleton, hhead, hends]
  refine Nat.add_eq_zero_iff.2 ⟨Nat.add_eq_zero_iff.2 ⟨rfl, ?_⟩, rfl⟩
  exact allBreaks_eq_zero_iff.2 (List.forall_mem_map.2 fun _ _ =>
    List.count_eq_zero.1 (hcase _ _ (lineBreaks_int _)))

theorem length_switchLines (i : Instruction) (head : String) (cases : List (Int × Int32))
    (default : Int32) : (switchLines i head cases default).length = cases.length + 3 := by
  simp [switchLines]

/-- An instruction without an index of the pool shows words and numbers. -/
theorem allBreaks_instructionLines {lines : List String} (h : i.command.isWellFormed = true)
    (hindex : i.operand.poolIndex? = none) (hlines : instructionLines pool i = .ok lines) :
    lines.length = i.lineCount ∧ allBreaks lines = 0 := by
  have hline : ∀ operand, lineBreaks operand = 0 → allBreaks [operandLine i operand] = 0 :=
    fun operand hoperand => by rw [allBreaks_singleton, lineBreaks_operandLine, hoperand]
  unfold instructionLines at hlines
  unfold Instruction.lineCount
  cases hoperand : i.operand with
  | nothing | reserved =>
    rw [hoperand] at hlines
    cases hlines
    exact ⟨rfl, (allBreaks_singleton _).trans (lineBreaks_bareLine i)⟩
  | slot slot =>
    rw [hoperand] at hlines
    cases hlines
    exact ⟨rfl, hline _ (lineBreaks_nat _)⟩
  | increment slot amount =>
    rw [hoperand] at hlines
    cases hlines
    have hnumbers : lineBreaks (toString slot.index ++ ", " ++ toString amount) = 0 := by
      rw [lineBreaks_append, lineBreaks_append, lineBreaks_nat, lineBreaks_int16]
      rfl
    exact ⟨rfl, hline _ hnumbers⟩
  | branch offset =>
    rw [hoperand] at hlines
    cases hlines
    exact ⟨rfl, hline _ (lineBreaks_int _)⟩
  | literal value =>
    rw [hoperand] at hlines
    cases hlines
    exact ⟨rfl, hline _ (lineBreaks_int _)⟩
  | primitiveArray element =>
    simp only [hoperand] at hlines
    split at hlines
    · rename_i name hname
      cases hlines
      exact ⟨rfl, hline _ (lineBreaks_elementTypeName hname)⟩
    · exact nomatch hlines
  | tableSwitch default low high offsets =>
    rw [hoperand] at hlines
    cases hlines
    have hhead : lineBreaks (toString low ++ " to " ++ toString high) = 0 := by
      rw [lineBreaks_append, lineBreaks_append, lineBreaks_int32, lineBreaks_int32]
      rfl
    obtain ⟨_, _, hsuits⟩ := i.exists_shape h hoperand fun _ => rfl
    obtain ⟨_, _, hcount⟩ := of_decide_eq_true hsuits
    refine ⟨?_, allBreaks_switchLines i _ default hhead⟩
    rw [length_switchLines, (zip_keysBetween hcount).2]
  | lookupSwitch default pairs =>
    rw [hoperand] at hlines
    cases hlines
    refine ⟨?_, allBreaks_switchLines i _ default (lineBreaks_nat pairs.length)⟩
    rw [length_switchLines, List.length_map]
  | index | wideIndex | interfaceCall | dynamicCall | multiArray =>
    rw [hoperand] at hindex
    exact nomatch hindex

/-- An instruction with an index of the pool shows the phrase for it. -/
theorem bareTexts_of_index {lines : List String} (h : i.command.isWellFormed = true)
    (hindex : i.operand.poolIndex? = some index) (hlines : instructionLines pool i = .ok lines) :
    i.lineCount = 1 ∧ lines.length = 1 ∧ ∃ use texts, i.opcode.poolUse? = some use ∧
      pool.bareTexts index use = .ok texts ∧ allBreaks lines = allBreaks texts := by
  obtain ⟨hinterface, hdynamic, harray⟩ := i.opcode.poolUse?_of_shape
  have hline : ∀ operand phrase, lineBreaks operand = 0 →
      allBreaks [phraseLine i operand phrase] = lineBreaks phrase :=
    fun operand phrase hnumbers =>
      (allBreaks_singleton _).trans (lineBreaks_phraseLine i phrase hnumbers)
  have hplace : lineBreaks ("#" ++ toString index) = 0 := by
    rw [lineBreaks_append, lineBreaks_uint16]
    rfl
  have hpair : ∀ count : UInt8,
      lineBreaks ("#" ++ toString index ++ ",  " ++ toString count) = 0 := fun count => by
    rw [lineBreaks_append, lineBreaks_append, hplace, lineBreaks_uint8]
    rfl
  unfold instructionLines at hlines
  unfold Instruction.lineCount
  cases hoperand : i.operand with
  | index place | wideIndex place =>
    rw [hoperand] at hindex hlines
    cases hindex
    obtain ⟨phrase, hphrase, hlines⟩ := bind_eq_ok_iff.1 hlines
    cases hlines
    obtain ⟨use, texts, huse, htexts, hbreaks⟩ := bareTexts_of_indexPhrase hphrase
    exact ⟨rfl, rfl, use, texts, huse, htexts, (hline _ _ hplace).trans hbreaks⟩
  | interfaceCall place count =>
    obtain ⟨shape, hop, hsuits⟩ := i.exists_shape h hoperand fun _ => rfl
    obtain rfl := of_decide_eq_true hsuits
    rw [hoperand] at hindex hlines
    cases hindex
    obtain ⟨m, hm, hlines⟩ := bind_eq_ok_iff.1 hlines
    cases hlines
    refine ⟨rfl, rfl, _, m.bareTexts, hinterface hop, map_eq_ok_iff.2 ⟨m, hm, rfl⟩, ?_⟩
    exact (hline _ _ (hpair count)).trans m.lineBreaks_phrase
  | dynamicCall place =>
    obtain ⟨shape, hop, hsuits⟩ := i.exists_shape h hoperand fun _ => rfl
    obtain rfl := of_decide_eq_true hsuits
    rw [hoperand] at hindex hlines
    cases hindex
    obtain ⟨d, hd, hlines⟩ := bind_eq_ok_iff.1 hlines
    cases hlines
    refine ⟨rfl, rfl, _, d.bareTexts, hdynamic hop, map_eq_ok_iff.2 ⟨d, hd, rfl⟩, ?_⟩
    have hzero : lineBreaks ("#" ++ toString index ++ ",  0") = 0 := by
      rw [lineBreaks_append, hplace]
      rfl
    have hword : lineBreaks "InvokeDynamic " = 0 := rfl
    refine (hline _ _ hzero).trans ?_
    rw [lineBreaks_append, hword, d.lineBreaks_text, Nat.zero_add]
  | multiArray place dimensions =>
    obtain ⟨shape, hop, hsuits⟩ := i.exists_shape h hoperand fun _ => rfl
    obtain rfl := of_decide_eq_true hsuits
    rw [hoperand] at hindex hlines
    cases hindex
    obtain ⟨name, hname, hlines⟩ := bind_eq_ok_iff.1 hlines
    cases hlines
    refine ⟨rfl, rfl, _, bareName '[' name, harray hop, map_eq_ok_iff.2 ⟨name, hname, rfl⟩, ?_⟩
    exact (hline _ _ (hpair dimensions)).trans (lineBreaks_classPhrase name)
  | nothing | reserved | slot | increment | branch | literal | primitiveArray | tableSwitch
  | lookupSwitch =>
    rw [hoperand] at hindex
    exact nomatch hindex

/-- **The lines of a decoded instruction break where its bare texts do, and nowhere else.** -/
theorem bareTexts_of_instructionLines {lines : List String} (h : i.command.isWellFormed = true)
    (hlines : instructionLines pool i = .ok lines) :
    lines.length = i.lineCount ∧ ∃ texts, i.bareTexts pool = .ok texts ∧
      allBreaks lines = allBreaks texts := by
  unfold Instruction.bareTexts
  cases hindex : i.operand.poolIndex? with
  | none =>
    obtain ⟨hcount, hbreaks⟩ := allBreaks_instructionLines h hindex hlines
    exact ⟨hcount, [], rfl, hbreaks⟩
  | some index =>
    obtain ⟨hone, hcount, use, texts, huse, htexts, hbreaks⟩ := bareTexts_of_index h hindex hlines
    rw [huse]
    exact ⟨hcount.trans hone.symm, texts, htexts, hbreaks⟩

/-! ## 7. The code section -/

/-- How many lines the instructions are listed on. -/
def lineCounts (row : List Instruction) : Nat := (row.map Instruction.lineCount).sum

/-- Instruction by instruction, then for all of a code array. The induction is on the row. -/
theorem bareTexts_of_rows {row : List Instruction} {rows : List (List String)}
    (hwf : ∀ i ∈ row, i.command.isWellFormed = true)
    (hrows : row.mapM (instructionLines pool) = .ok rows) :
    rows.flatten.length = lineCounts row ∧ ∃ texts, row.mapM (·.bareTexts pool) = .ok texts ∧
      allBreaks rows.flatten = allBreaks texts.flatten := by
  induction row generalizing rows with
  | nil =>
    cases hrows
    exact ⟨rfl, [], rfl, rfl⟩
  | cons i row ih =>
    obtain ⟨hi, hrest⟩ := List.forall_mem_cons.1 hwf
    rw [List.mapM_cons] at hrows
    obtain ⟨lines, hlines, hrows⟩ := bind_eq_ok_iff.1 hrows
    obtain ⟨more, hmore, hrows⟩ := bind_eq_ok_iff.1 hrows
    cases hrows
    obtain ⟨hcount, texts, htexts, hbreaks⟩ := bareTexts_of_instructionLines hi hlines
    obtain ⟨hcounts, others, hothers, hmoreBreaks⟩ := ih hrest hmore
    refine ⟨?_, texts :: others, ?_, ?_⟩
    · rw [List.flatten_cons, List.length_append, hcount, hcounts]
      exact List.sum_cons.symm
    · rw [List.mapM_cons, htexts, hothers]
      rfl
    · rw [List.flatten_cons, List.flatten_cons, allBreaks_append, allBreaks_append, hbreaks,
        hmoreBreaks]

/-- **Lines of code break at bare texts of the pool alone.** Every decoded instruction is listed on
    one line, a switch on a line for each case and three more, and each line is ended. Ends of lines
    beyond these are those of the texts that are not quoted, so there is none if no such text holds
    one, whatever string constants there are. -/
theorem lineBreaks_code {code : List UInt8} {row : List Instruction} (h : decode code = .ok row)
    (pool : ConstantPool) :
    (∀ i ∈ row, ∀ lines, instructionLines pool i = .ok lines →
      lines.length = i.lineCount ∧ ∃ texts, i.bareTexts pool = .ok texts ∧
        lineBreaks (unlines lines) = i.lineCount + allBreaks texts ∧
        (lineBreaks (unlines lines) = i.lineCount ↔ ∀ s ∈ texts, '\n' ∉ s.toList)) ∧
    ∀ lines, codeLines pool code = .ok lines →
      lines.length = lineCounts row ∧ ∃ texts, row.mapM (·.bareTexts pool) = .ok texts ∧
        lineBreaks (unlines lines) = lineCounts row + allBreaks texts.flatten ∧
        (lineBreaks (unlines lines) = lineCounts row ↔ ∀ s ∈ texts.flatten, '\n' ∉ s.toList) := by
  have hzero : ∀ (texts : List String) n,
      n + allBreaks texts = n ↔ ∀ s ∈ texts, '\n' ∉ s.toList := fun texts n =>
    Nat.add_eq_left.trans allBreaks_eq_zero_iff
  have hwf : ∀ i ∈ row, i.command.isWellFormed = true := fun i hi =>
    Instruction.isWellFormed_of_mem h hi
  refine ⟨fun i hi lines hlines => ?_, fun lines hlines => ?_⟩
  · obtain ⟨hcount, texts, htexts, hbreaks⟩ := bareTexts_of_instructionLines (hwf i hi) hlines
    have hall : lineBreaks (unlines lines) = i.lineCount + allBreaks texts := by
      rw [lineBreaks_unlines, hcount, hbreaks]
    exact ⟨hcount, texts, htexts, hall, hall ▸ hzero texts _⟩
  · obtain ⟨decoded, hdecoded, hlines⟩ := bind_eq_ok_iff.1 hlines
    cases h.symm.trans hdecoded
    obtain ⟨rows, hrows, hlines⟩ := bind_eq_ok_iff.1 hlines
    cases hlines
    obtain ⟨hcount, texts, htexts, hbreaks⟩ := bareTexts_of_rows hwf hrows
    have hall : lineBreaks (unlines rows.flatten) = lineCounts row + allBreaks texts.flatten := by
      rw [lineBreaks_unlines, hcount, hbreaks]
    exact ⟨hcount, texts, htexts, hall, hall ▸ hzero texts.flatten _⟩

/-- A new object, and the end of the method. -/
def newObject : List UInt8 := [187, 0, 2, 177]

/-- A pool with the class of that object, which has the name. -/
def poolNaming (name : String) : ConstantPool := ⟨#[none, some (.utf8 name), some (.classRef 1)]⟩

/-- The name of an array's class is quoted, so the end of a line in it breaks nothing. -/
theorem lineBreaks_code_arrayName :
    decode newObject = .ok [⟨0, ⟨187⟩, false, .index 2, 3⟩, ⟨3, ⟨177⟩, false, .nothing, 1⟩] ∧
    ∃ lines, codeLines (poolNaming "[A\nB") newObject = .ok lines ∧ lines.length = 2 ∧
      lineBreaks (unlines lines) = 2 := by
  have hdecode : decode newObject =
      .ok [⟨0, ⟨187⟩, false, .index 2, 3⟩, ⟨3, ⟨177⟩, false, .nothing, 1⟩] := by
    decide +kernel
  obtain ⟨lines, hlines⟩ : (codeLines (poolNaming "[A\nB") newObject).Succeeds := by
    decide +kernel
  obtain ⟨hcount, texts, htexts, hbreaks, _⟩ := (lineBreaks_code hdecode _).2 lines hlines
  have hnone : texts = [[], []] := by
    have hrow : [⟨0, ⟨187⟩, false, .index 2, 3⟩, ⟨3, ⟨177⟩, false, .nothing, 1⟩].mapM
        (Instruction.bareTexts (poolNaming "[A\nB")) = .ok [[], []] := by decide +kernel
    exact Except.ok.inj (htexts.symm.trans hrow)
  subst hnone
  exact ⟨hdecode, lines, hlines, hcount, hbreaks⟩

/-- Any other name is not, and the end of a line in it breaks the line of its instruction. -/
theorem codeLines_broken_by_name : unlines <$> codeLines (poolNaming "A\nB") newObject =
    .ok "       0: new           #2                  // Class A\nB\n       3: return\n" := by
  decide +kernel

end ClassView
