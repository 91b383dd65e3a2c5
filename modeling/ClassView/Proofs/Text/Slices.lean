import ClassView.Proofs.Text.Encodings

/-!
# Bytes and slices of a text

A text can be looked at byte by byte, and a part of it cut out between two places that are counted
in bytes. Not every place will do: an access is refused if there is no such place, and a cut if it
goes through a character. A byte below `80` stands for a character of its own wherever it occurs, so
a search for such bytes stops in front of characters only.

* `Guarded`, `byteAt`, `bytesFrom`, `minus`, `slice`: accesses that can be refused;
* `encoded`, `width`: the bytes of a row of characters and how many they are;
* **`isBoundary_iff`**: the places where a cut may be made are those between characters;
* **`slice_eq`**, `places_of_slice`: a part of a text is cut out at such places, and only there;
* **`mem_of_isByte`**, `findIdx?_encoded`, `takeWhile_encoded`: searches for one byte find
  characters.
-/

namespace ClassView.Text

/-! ## 1. Accesses that can be refused -/

/-- An access that is refused. -/
inductive BadAccess where
  /-- There is no byte at this place. -/
  | byteAt (i : Nat)
  /-- The bytes end in front of this place. -/
  | bytesFrom (i : Nat)
  /-- No part of the text lies between these places, or one of them is inside of a character. -/
  | slice (start stop : Nat)
  /-- The difference is below zero. -/
  | minus (m n : Nat)
  deriving DecidableEq, Repr

/-- What is computed with accesses that can be refused. -/
abbrev Guarded : Type → Type := Except BadAccess

theorem Guarded.bind_of_ok {α β : Type} {x : Guarded α} {a : α} (h : x = .ok a)
    (next : α → Guarded β) : (x >>= next) = next a := by
  rw [h]
  rfl

theorem Guarded.exists_of_bind {α β : Type} {x : Guarded α} {next : α → Guarded β} {b : β}
    (h : (x >>= next) = .ok b) : ∃ a, x = .ok a ∧ next a = .ok b := by
  cases x with
  | error bad => exact nomatch h
  | ok a => exact ⟨a, rfl, h⟩

/-- A row of accesses none of which is refused, with one more behind it. -/
theorem Guarded.mapM_concat {α β : Type} {f : α → Guarded β} {xs : List α} {ys : List β} {x : α}
    {y : β} (hxs : xs.mapM f = .ok ys) (hx : f x = .ok y) :
    (xs ++ [x]).mapM f = .ok (ys ++ [y]) := by
  rw [List.mapM_append, hxs, List.mapM_cons, List.mapM_nil, hx]
  rfl

/-- The byte at a place. -/
def byteAt (bytes : List UInt8) (i : Nat) : Guarded UInt8 :=
  match bytes[i]? with
  | some b => .ok b
  | none => .error (.byteAt i)

/-- The bytes from a place on. -/
def bytesFrom (bytes : List UInt8) (i : Nat) : Guarded (List UInt8) :=
  if i ≤ bytes.length then .ok (bytes.drop i) else .error (.bytesFrom i)

/-- The difference of two sizes. -/
def minus (m n : Nat) : Guarded Nat := if n ≤ m then .ok (m - n) else .error (.minus m n)

/-- No character goes through the place: the text ends there, or a byte stands there that does not
    continue a sequence. -/
def isBoundary (bytes : List UInt8) (i : Nat) : Bool :=
  i == 0 || i == bytes.length || (bytes[i]?).any (fun b => !isContinuation b)

/-- The part of a text between two places. -/
def slice (s : String) (start stop : Nat) : Guarded String :=
  let bytes := standardBytes s
  if start ≤ stop ∧ stop ≤ bytes.length ∧ isBoundary bytes start ∧ isBoundary bytes stop then
    match String.fromUTF8? ((bytes.drop start).take (stop - start)).toByteArray with
    | some part => .ok part
    | none => .error (.slice start stop)
  else .error (.slice start stop)

/-! ## 2. The bytes of characters -/

/-- The bytes of a row of characters in standard UTF-8. -/
def encoded (cs : List Char) : List UInt8 := cs.flatMap String.utf8EncodeChar

/-- How many they are. -/
def width (cs : List Char) : Nat := (encoded cs).length

/-- The byte, taken for a character of its own, is this one. -/
def isByte (a : Char) (b : UInt8) : Bool := Char.ofUInt8 b == a

section Bytes

variable {a c : Char} {cs front back : List Char} {b : UInt8} {i : Nat}

@[simp] theorem encoded_nil : encoded [] = [] := rfl

@[simp] theorem encoded_cons (c : Char) (cs : List Char) :
    encoded (c :: cs) = String.utf8EncodeChar c ++ encoded cs := List.flatMap_cons

@[simp] theorem encoded_append (cs ds : List Char) :
    encoded (cs ++ ds) = encoded cs ++ encoded ds := List.flatMap_append

@[simp] theorem width_nil : width [] = 0 := rfl

@[simp] theorem width_append (cs ds : List Char) : width (cs ++ ds) = width cs + width ds := by
  rw [width, encoded_append, List.length_append, width, width]

theorem width_cons (c : Char) (cs : List Char) : width (c :: cs) = width [c] + width cs :=
  width_append [c] cs

theorem drop_encoded (front back : List Char) :
    (encoded (front ++ back)).drop (width front) = encoded back := by
  rw [encoded_append]
  exact List.drop_left

theorem getElem?_encoded (front back : List Char) :
    (encoded (front ++ back))[width front]? = (encoded back).head? := by
  rw [← drop_encoded front back, List.head?_drop]

theorem bytesFrom_encoded (front back : List Char) :
    bytesFrom (encoded (front ++ back)) (width front) = .ok (encoded back) := by
  have hle : width front ≤ (encoded (front ++ back)).length := by
    rw [encoded_append, List.length_append]
    exact Nat.le_add_right _ _
  rw [bytesFrom, if_pos hle, drop_encoded]

/-- A character below U+0080 is one byte. -/
theorem utf8EncodeChar_narrow (h : c.toNat < 0x80) :
    String.utf8EncodeChar c = [UInt8.ofNat c.toNat] := by
  have hle : c.val.toNat ≤ 0x7f := Nat.le_of_lt_succ h
  exact if_pos hle

theorem width_narrow (h : c.toNat < 0x80) : width [c] = 1 := by
  rw [width, encoded_cons, utf8EncodeChar_narrow h]
  rfl

theorem width_replicate (h : a.toNat < 0x80) (n : Nat) : width (List.replicate n a) = n := by
  induction n with
  | zero => rfl
  | succ n ih => rw [List.replicate_succ, width_cons, width_narrow h, ih, Nat.add_comm]

theorem width_eq_zero_iff : width cs = 0 ↔ cs = [] := by
  cases cs with
  | nil => exact ⟨fun _ => rfl, fun _ => rfl⟩
  | cons c cs =>
    have hpos : 0 < (String.utf8EncodeChar c).length :=
      List.length_pos_iff.2 String.utf8EncodeChar_ne_nil
    have hwidth : width (c :: cs) = (String.utf8EncodeChar c).length + width cs := by
      rw [width, encoded_cons, List.length_append, width]
    exact ⟨fun h => by omega, fun h => nomatch h⟩

/-- A text that starts with such a character starts with its byte. -/
theorem byteAt_zero {s : String} (hs : s.toList = c :: cs) (h : c.toNat < 0x80) :
    byteAt (standardBytes s) 0 = .ok (UInt8.ofNat c.toNat) := by
  rw [standardBytes_eq, hs, List.flatMap_cons, utf8EncodeChar_narrow h]
  rfl

/-- Any other one starts with a byte that starts a longer sequence, and the others continue it. -/
theorem utf8EncodeChar_wide (h : 0x80 ≤ c.toNat) : ∃ lead rest,
    String.utf8EncodeChar c = lead :: rest ∧ 0xc0 ≤ lead.toNat ∧
      ∀ b ∈ rest, isContinuation b = true := by
  have hlead : ∀ {n : Nat}, 0xc0 ≤ n → n < 0x100 → 0xc0 ≤ (UInt8.ofNat n).toNat := by
    intro n hle hlt
    rwa [UInt8.toNat_ofNat_of_lt' hlt]
  have hcontinues : ∀ n : Nat, isContinuation (UInt8.ofNat (n % 64 + 0x80)) = true := by
    intro n
    rw [Nat.add_comm]
    exact isContinuation_continuation n
  have hnumber : c.val.toNat = c.toNat := rfl
  unfold String.utf8EncodeChar
  rw [hnumber]
  generalize c.toNat = n at h
  dsimp only
  rw [if_neg (by omega)]
  split
  · refine ⟨_, _, rfl, hlead (by omega) (by omega), ?_⟩
    exact List.forall_mem_singleton.2 (hcontinues _)
  split
  · refine ⟨_, _, rfl, hlead (by omega) (by omega), ?_⟩
    exact List.forall_mem_cons.2 ⟨hcontinues _, List.forall_mem_singleton.2 (hcontinues _)⟩
  · refine ⟨_, _, rfl, hlead (by omega) (by omega), ?_⟩
    exact List.forall_mem_cons.2 ⟨hcontinues _, List.forall_mem_cons.2
      ⟨hcontinues _, List.forall_mem_singleton.2 (hcontinues _)⟩⟩

/-- No character starts with a byte that continues a sequence, and all its other bytes do. -/
theorem utf8EncodeChar_shape (c : Char) : ∃ lead rest, String.utf8EncodeChar c = lead :: rest ∧
    isContinuation lead = false ∧ ∀ b ∈ rest, isContinuation b = true := by
  have hnot : ∀ {b : UInt8}, b.toNat < 0x80 ∨ 0xc0 ≤ b.toNat → isContinuation b = false := by
    intro b hb
    rw [← Bool.not_eq_true, isContinuation_iff]
    omega
  rcases Nat.lt_or_ge c.toNat 0x80 with hnarrow | hwide
  · have hbyte : (UInt8.ofNat c.toNat).toNat = c.toNat :=
      UInt8.toNat_ofNat_of_lt' (Nat.lt_trans hnarrow (by decide))
    exact ⟨_, _, utf8EncodeChar_narrow hnarrow, hnot (.inl (hbyte.symm ▸ hnarrow)),
      fun _ hb => absurd hb List.not_mem_nil⟩
  · obtain ⟨lead, rest, hbytes, hlead, hrest⟩ := utf8EncodeChar_wide hwide
    exact ⟨lead, rest, hbytes, hnot (.inr hlead), hrest⟩

/-! ## 3. Places between characters -/

theorem isBoundary_eq_true_iff {bytes : List UInt8} : isBoundary bytes i = true ↔
    i = 0 ∨ i = bytes.length ∨ ∃ b, bytes[i]? = some b ∧ isContinuation b = false := by
  unfold isBoundary
  simp only [Bool.or_eq_true, beq_iff_eq, or_assoc, Option.any_eq_true, Bool.not_eq_true']

/-- A place behind the first character is one in the text behind it. -/
theorem exists_of_isBoundary_cons (h : isBoundary (encoded (c :: cs)) i = true) (hi : i ≠ 0) :
    ∃ j, i = width [c] + j ∧ isBoundary (encoded cs) j = true := by
  obtain ⟨lead, rest, hbytes, _, hrest⟩ := utf8EncodeChar_shape c
  have hwidth : width [c] = rest.length + 1 := by
    rw [width, encoded_cons, hbytes, encoded_nil, List.append_nil, List.length_cons]
  have hall : encoded (c :: cs) = encoded [c] ++ encoded cs := encoded_append [c] cs
  rcases isBoundary_eq_true_iff.1 h with hzero | hend | ⟨b, hb, hnot⟩
  · exact absurd hzero hi
  · refine ⟨(encoded cs).length, ?_, isBoundary_eq_true_iff.2 (.inr (.inl rfl))⟩
    rw [hend, hall, List.length_append, width]
  · rcases Nat.lt_or_ge i (width [c]) with hlt | hle
    · -- a byte behind the first one of the character continues its sequence
      obtain ⟨k, rfl⟩ := Nat.exists_eq_succ_of_ne_zero hi
      rw [hall, List.getElem?_append_left hlt, encoded_cons, hbytes, encoded_nil, List.append_nil,
        List.getElem?_cons_succ] at hb
      have hcontinues := hrest b (List.mem_of_getElem? hb)
      exact nomatch hcontinues.symm.trans hnot
    · obtain ⟨j, rfl⟩ := Nat.exists_eq_add_of_le hle
      refine ⟨j, rfl, isBoundary_eq_true_iff.2 (.inr (.inr ⟨b, ?_, hnot⟩))⟩
      rwa [hall, List.getElem?_append_right hle, width, Nat.add_sub_cancel_left] at hb

/-- **The places where a cut may be made are those between characters.** -/
theorem isBoundary_iff : isBoundary (encoded cs) i = true ↔
    ∃ front back, cs = front ++ back ∧ i = width front := by
  constructor
  · intro h
    induction cs generalizing i with
    | nil =>
      have hi : i = 0 := by
        rcases isBoundary_eq_true_iff.1 h with hzero | hend | ⟨b, hb, _⟩
        · exact hzero
        · exact hend
        · exact nomatch hb
      exact ⟨[], [], rfl, hi⟩
    | cons c cs ih =>
      by_cases hi : i = 0
      · exact ⟨[], c :: cs, rfl, hi⟩
      · obtain ⟨j, rfl, hj⟩ := exists_of_isBoundary_cons h hi
        obtain ⟨front, back, rfl, rfl⟩ := ih hj
        exact ⟨c :: front, back, rfl, (width_cons c front).symm⟩
  · rintro ⟨front, back, rfl, rfl⟩
    rw [isBoundary_eq_true_iff]
    cases back with
    | nil => exact .inr (.inl (by rw [List.append_nil, width]))
    | cons c back =>
      obtain ⟨lead, rest, hbytes, hlead, _⟩ := utf8EncodeChar_shape c
      refine .inr (.inr ⟨lead, ?_, hlead⟩)
      rw [getElem?_encoded, encoded_cons, hbytes, List.cons_append, List.head?_cons]

theorem isBoundary_width (front back : List Char) :
    isBoundary (encoded (front ++ back)) (width front) = true :=
  isBoundary_iff.2 ⟨front, back, rfl, rfl⟩

/-- **A part of a text is cut out** at the places where it starts and ends. -/
theorem slice_eq {s : String} {front part back : List Char}
    (h : s.toList = front ++ part ++ back) :
    slice s (width front) (width (front ++ part)) = .ok (String.ofList part) := by
  have hbytes : standardBytes s = encoded (front ++ part ++ back) := by
    rw [standardBytes_eq, h, encoded]
  have hstart : isBoundary (standardBytes s) (width front) = true := by
    rw [hbytes, List.append_assoc]
    exact isBoundary_width front (part ++ back)
  have hstop : isBoundary (standardBytes s) (width (front ++ part)) = true := by
    rw [hbytes]
    exact isBoundary_width (front ++ part) back
  have hle : width front ≤ width (front ++ part) := by
    rw [width_append]
    exact Nat.le_add_right _ _
  have hend : width (front ++ part) ≤ (standardBytes s).length := by
    rw [hbytes, encoded_append, List.length_append]
    exact Nat.le_add_right _ _
  have hpart : ((standardBytes s).drop (width front)).take
      (width (front ++ part) - width front) = standardBytes (String.ofList part) := by
    rw [hbytes, List.append_assoc, drop_encoded, width_append, Nat.add_sub_cancel_left,
      encoded_append, width, List.take_left, standardBytes_eq, String.toList_ofList, encoded]
  unfold slice
  rw [if_pos ⟨hle, hend, hstart, hstop⟩, fromUTF8?_eq_some_iff.2 hpart]

/-- Only what lies between two places in a row is cut out, and they are between characters. -/
theorem places_of_slice {s part : String} {start stop : Nat} (h : slice s start stop = .ok part) :
    start ≤ stop ∧ stop ≤ (standardBytes s).length ∧
      isBoundary (standardBytes s) start = true ∧ isBoundary (standardBytes s) stop = true := by
  unfold slice at h
  dsimp only at h
  split at h
  · assumption
  · exact nomatch h

theorem length_standardBytes (s : String) : (standardBytes s).length = width s.toList := by
  rw [standardBytes_eq]
  rfl

/-- What stands from a place on is cut out. -/
theorem slice_rest {s : String} {front back : List Char} (h : s.toList = front ++ back) :
    slice s (width front) (standardBytes s).length = .ok (String.ofList back) := by
  have hall : s.toList = front ++ back ++ [] := by rw [h, List.append_nil]
  rw [length_standardBytes, h]
  exact slice_eq hall

/-! ## 4. Searching for one byte -/

theorem isByte_iff : isByte a b = true ↔ b.toNat = a.toNat := by
  unfold isByte
  rw [beq_iff_eq, ← Char.toNat_inj]
  exact Iff.rfl

/-- A byte below `80` stands for a character wherever it occurs. -/
theorem mem_of_isByte (ha : a.toNat < 0x80) (hb : b ∈ encoded cs) (h : isByte a b = true) :
    a ∈ cs := by
  rw [isByte_iff] at h
  obtain ⟨c, hc, hmem⟩ := List.mem_flatMap.1 hb
  rcases Nat.lt_or_ge c.toNat 0x80 with hnarrow | hwide
  · rw [utf8EncodeChar_narrow hnarrow, List.mem_singleton, eq_ofNat_iff (by omega), h] at hmem
    rwa [Char.toNat_inj.1 hmem]
  · obtain ⟨lead, rest, hbytes, hlead, hrest⟩ := utf8EncodeChar_wide hwide
    rw [hbytes, List.mem_cons] at hmem
    rcases hmem with rfl | hmem
    · omega
    · have := (isContinuation_iff.1 (hrest b hmem)).1
      omega

theorem isByte_eq_false (ha : a.toNat < 0x80) (h : a ∉ cs) (hb : b ∈ encoded cs) :
    isByte a b = false := by
  rw [← Bool.not_eq_true]
  exact fun hbyte => h (mem_of_isByte ha hb hbyte)

/-- The first byte of a text, and what it says of the first character. -/
theorem encoded_cons_eq (c : Char) (cs : List Char) : ∃ b bytes, encoded (c :: cs) = b :: bytes ∧
    (c.toNat < 0x80 ∧ Char.ofUInt8 b = c ∧ bytes = encoded cs ∨
      0x80 ≤ c.toNat ∧ 0x80 ≤ (Char.ofUInt8 b).toNat) := by
  rcases Nat.lt_or_ge c.toNat 0x80 with hnarrow | hwide
  · refine ⟨UInt8.ofNat c.toNat, encoded cs, ?_, .inl ⟨hnarrow, ?_, rfl⟩⟩
    · rw [encoded_cons, utf8EncodeChar_narrow hnarrow, List.singleton_append]
    · rw [← Char.toNat_inj]
      exact UInt8.toNat_ofNat_of_lt' (Nat.lt_trans hnarrow (by decide))
  · obtain ⟨lead, rest, hbytes, hlead, _⟩ := utf8EncodeChar_wide hwide
    have hbyte : 0xc0 ≤ (Char.ofUInt8 lead).toNat := hlead
    exact ⟨lead, rest ++ encoded cs, by rw [encoded_cons, hbytes, List.cons_append],
      .inr ⟨hwide, Nat.le_trans (by decide) hbyte⟩⟩

/-- A search for a byte that does not occur. -/
theorem findIdx?_encoded_eq_none (ha : a.toNat < 0x80) (h : a ∉ cs) :
    (encoded cs).findIdx? (isByte a) = none :=
  List.findIdx?_eq_none_iff.2 fun _ hb => isByte_eq_false ha h hb

/-- A search for a byte ends at the first of its characters. -/
theorem findIdx?_encoded (ha : a.toNat < 0x80) (h : a ∉ front) :
    (encoded (front ++ a :: back)).findIdx? (isByte a) = some (width front) := by
  obtain ⟨b, bytes, hbytes, ⟨_, hb, _⟩ | ⟨hwide, _⟩⟩ := encoded_cons_eq a back
  · have hfound : isByte a b = true := beq_iff_eq.2 hb
    rw [encoded_append, hbytes, List.findIdx?_append, findIdx?_encoded_eq_none ha h,
      List.findIdx?_cons, hfound]
    simp [width]
  · omega

/-- The bytes in front that are those of one character. -/
theorem takeWhile_encoded (ha : a.toNat < 0x80) (cs : List Char) :
    (encoded cs).takeWhile (isByte a) = encoded (cs.takeWhile (· == a)) := by
  induction cs with
  | nil => rfl
  | cons c cs ih =>
    obtain ⟨b, bytes, hbytes, ⟨_, rfl, rfl⟩ | ⟨hwide, hb⟩⟩ := encoded_cons_eq c cs
    · have hone : String.utf8EncodeChar (Char.ofUInt8 b) = [b] := List.append_cancel_right hbytes
      have htest : isByte a b = (Char.ofUInt8 b == a) := rfl
      rw [hbytes, List.takeWhile_cons, List.takeWhile_cons, htest]
      cases Char.ofUInt8 b == a with
      | false => rfl
      | true => rw [if_pos rfl, if_pos rfl, encoded_cons, hone, ih, List.singleton_append]
    · have hbyte : isByte a b = false := beq_false_of_ne (by rintro rfl; omega)
      have hchar : (c == a) = false := beq_false_of_ne (by rintro rfl; omega)
      rw [hbytes, List.takeWhile_cons, List.takeWhile_cons, hbyte, hchar]
      rfl

end Bytes

end ClassView.Text
