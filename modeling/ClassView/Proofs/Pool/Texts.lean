import ClassView.Pool.Entry
import ClassView.Proofs.Extent
import ClassView.Proofs.Text.Encodings

/-!
# Texts in the constant pool

A text is stored as its tag, the number of its bytes, and the bytes. They may be in the standard or
in the modified form of UTF-8. Where the reader of texts follows the rules of both forms, what is
read from them is the text itself.

* `Entry.textBytes`: the bytes of a text entry with a given body;
* `Entry.read_of_textBytes`: what is read is what the body is taken for, whatever the rules;
* **`Entry.read_text_exact`**: every text is read back from either form, every body that is read is
  written again as it was, and every other one is refused under the index of its entry.
-/

namespace ClassView.Entry

open Text

variable {texts : TextReader} {index : Nat} {c : Cursor} {body rest : List UInt8}

/-- The bytes of a text entry: its tag, the length of its body, and the body. -/
def textBytes (body : List UInt8) : List UInt8 :=
  Tag.utf8.byte :: (BigEndian.toBytes 2 body.length ++ body)

theorem length_textBytes (body : List UInt8) : (textBytes body).length = 3 + body.length := by
  rw [textBytes, List.length_cons, List.length_append, BigEndian.length_toBytes]
  omega

/-- A text entry that is there as a whole is told by what its body is taken for. -/
theorem read_of_textBytes (hlen : body.length < 65536) (h : c.rest = textBytes body ++ rest) :
    read texts index c = match texts body with
      | some text => .ok (.utf8 text, c.advance (3 + body.length))
      | none => .error (.invalidText index) := by
  have hparts : c.rest = BigEndian.u8 Tag.utf8.byte ++
      (BigEndian.toBytes 2 body.length ++ (body ++ rest)) := by
    rw [h, textBytes, List.cons_append, List.append_assoc]
    rfl
  obtain ⟨first, htag, hfirst⟩ := Cursor.exists_passes hparts
  obtain ⟨mid, hlength, hmid⟩ := Cursor.exists_passes hfirst
  obtain ⟨behind, hbody, _⟩ := Cursor.exists_passes hmid
  have hend : behind = c.advance (3 + body.length) := by
    rw [← length_textBytes]
    exact ((htag.trans hlength).trans hbody).eq_advance
  have hcount : BigEndian.u16 (UInt16.ofNat body.length) = BigEndian.toBytes 2 body.length := by
    rw [BigEndian.u16, UInt16.toNat_ofNat_of_lt' hlen]
  have hu8 := (Reads.u8 c _ _).2 ⟨_, htag, rfl⟩
  have hu16 := (Reads.u16 first _ _).2 ⟨_, hlength, hcount.symm⟩
  have htake := (Reads.take body.length mid _ _).2 ⟨_, hbody, rfl, rfl⟩
  rw [read, Cursor.get_bind_apply, Cursor.bind_of_ok hu8, Tag.ofByte?_byte]
  show readText texts index first = _
  rw [readText, Cursor.bind_of_ok hu16, UInt16.toNat_ofNat_of_lt' hlen, Cursor.bind_of_ok htake,
    hend]
  cases texts body <;> rfl

/-- **Texts are kept exactly** by a reader that follows the rules of both forms. Every text is read
    back from its modified and from its standard form, up to the end of the body and no further. A
    body that is read is its text in the standard form if it is valid there, and else in the
    modified form; one that is in neither form of any text is refused under the index of the
    entry. -/
theorem read_text_exact (texts : TextReader) (h : texts.TakesBothForms) (index : Nat) :
    (∀ (s : String) (body rest : List UInt8) (c : Cursor), (modifiedBytes s).length < 65536 →
      body = modifiedBytes s ∨ body = standardBytes s → c.rest = textBytes body ++ rest →
      read texts index c = .ok (.utf8 s, c.advance (3 + body.length))) ∧
    ∀ (body rest : List UInt8) (c : Cursor), body.length < 65536 →
      c.rest = textBytes body ++ rest →
      (∃ s, read texts index c = .ok (.utf8 s, c.advance (3 + body.length)) ∧
        (IsStandard body ∧ body = standardBytes s ∨ ¬ IsStandard body ∧ body = modifiedBytes s)) ∨
      (read texts index c = .error (.invalidText index) ∧
        ∀ s, body ≠ modifiedBytes s ∧ body ≠ standardBytes s) := by
  constructor
  · intro s body rest c hs hform hahead
    have hlen : body.length < 65536 := by
      obtain rfl | rfl := hform
      · exact hs
      · exact Nat.lt_of_le_of_lt (length_standardBytes_le s) hs
    rw [read_of_textBytes hlen hahead, h.eq_some_iff.2 hform.symm]
  · intro body rest c hlen hahead
    rw [read_of_textBytes hlen hahead]
    cases htext : texts body with
    | some s => exact .inl ⟨s, rfl, h.form htext⟩
    | none =>
      refine .inr ⟨rfl, fun s => ⟨fun hs => ?_, fun hs => ?_⟩⟩
      · exact nomatch htext.symm.trans (h.eq_some_iff.2 (.inr hs))
      · exact nomatch htext.symm.trans (h.eq_some_iff.2 (.inl hs))

/-- `é`, U+0000 and U+1F600 are read from both forms; U+0000 in the modified form and U+1F600 in the
    standard one are in no form together. -/
theorem read_text_exact_mixed :
    let s := "é\x00😀"
    let modified : List UInt8 := [0xc3, 0xa9, 0xc0, 0x80, 0xed, 0xa0, 0xbd, 0xed, 0xb8, 0x80]
    let standard : List UInt8 := [0xc3, 0xa9, 0x00, 0xf0, 0x9f, 0x98, 0x80]
    let mixed : List UInt8 := [0xc0, 0x80, 0xf0, 0x9f, 0x98, 0x80]
    let entry (body : List UInt8) : Cursor := .ofBytes (textBytes body ++ [0x07]) 0
    TextReader.TakesBothForms text? ∧ modified = modifiedBytes s ∧ standard = standardBytes s ∧
    read text? 5 (entry modified) = .ok (.utf8 s, (entry modified).advance 13) ∧
    read text? 5 (entry standard) = .ok (.utf8 s, (entry standard).advance 10) ∧
    read text? 5 (entry mixed) = .error (.invalidText 5) := by
  intro s modified standard mixed entry
  have hrules := text?_takesBothForms
  have hmodified : modified = modifiedBytes s := by decide
  have hstandard : standard = standardBytes s := by decide
  have hlen : (modifiedBytes s).length < 65536 := by
    rw [← hmodified]
    decide
  obtain ⟨hforms, hbodies⟩ := read_text_exact text? hrules 5
  have hmixed : text? mixed = none := by decide
  refine ⟨hrules, hmodified, hstandard,
    hforms s modified [0x07] (entry modified) hlen (.inl hmodified) rfl,
    hforms s standard [0x07] (entry standard) hlen (.inr hstandard) rfl, ?_⟩
  obtain ⟨t, _, hform⟩ | ⟨hrefused, _⟩ := hbodies mixed [0x07] (entry mixed) (by decide) rfl
  · have hsome : text? mixed = some t := hrules.eq_some_iff.2 (hform.imp And.right And.right)
    exact nomatch hmixed.symm.trans hsome
  · exact hrefused

end ClassView.Entry
