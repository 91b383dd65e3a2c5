/-!
# Numbers as bytes, most significant first

A class file stores every number big-endian. `ofBytes` is the value of a byte string read that
way, `toBytes` the string of a given width with a given value, and `capacity` the number of values
that a width has.

* `ofBytes_append`: how the value of a string comes from its parts;
* `ofBytes_lt`: a string stands for a number below the capacity of its length;
* **`ofBytes_toBytes`**, **`toBytes_ofBytes`**: reading and writing undo each other.
-/

namespace ClassView.BigEndian

/-! ## 1. Reading and writing -/

/-- The number a byte string stands for, most significant byte first. -/
def ofBytes (bytes : List UInt8) : Nat :=
  bytes.foldl (fun n b => n * 256 + b.toNat) 0

/-- The lowest `width` bytes of a number, most significant first. -/
def toBytes : (width : Nat) → Nat → List UInt8
  | 0, _ => []
  | width + 1, n => toBytes width (n / 256) ++ [UInt8.ofNat (n % 256)]

/-- How many numbers fit into `width` bytes. -/
def capacity : (width : Nat) → Nat
  | 0 => 1
  | width + 1 => 256 * capacity width

/-! ## 2. Values of strings -/

@[simp] theorem ofBytes_nil : ofBytes [] = 0 := rfl

@[simp] theorem ofBytes_singleton (b : UInt8) : ofBytes [b] = b.toNat := by
  simp [ofBytes]

theorem ofBytes_concat (bytes : List UInt8) (b : UInt8) :
    ofBytes (bytes ++ [b]) = ofBytes bytes * 256 + b.toNat := by
  simp [ofBytes]

/-- The value of a string is the value of its front, moved up by the width of its back, plus the
    value of its back. -/
theorem ofBytes_append (front back : List UInt8) :
    ofBytes (front ++ back) = ofBytes front * capacity back.length + ofBytes back := by
  induction back generalizing front with
  | nil => rw [List.append_nil]; exact (Nat.mul_one _).symm
  | cons b back ih =>
    have hcut : front ++ b :: back = (front ++ [b]) ++ back := by
      rw [List.append_assoc, List.singleton_append]
    have hone : ofBytes (b :: back) = b.toNat * capacity back.length + ofBytes back := by
      rw [← List.singleton_append, ih [b], ofBytes_singleton]
    have hcap : capacity (b :: back).length = 256 * capacity back.length := rfl
    rw [hcut, ih, ofBytes_concat, hone, hcap, Nat.add_mul, Nat.mul_assoc, Nat.add_assoc]

/-- A string stands for a number below the capacity of its length. -/
theorem ofBytes_lt (bytes : List UInt8) : ofBytes bytes < capacity bytes.length := by
  induction bytes with
  | nil => exact Nat.one_pos
  | cons b bytes ih =>
    have hb : b.toNat + 1 ≤ 256 := b.toNat_lt
    have hcap : capacity (b :: bytes).length = 256 * capacity bytes.length := rfl
    rw [← List.singleton_append, ofBytes_append, ofBytes_singleton, List.singleton_append, hcap]
    calc b.toNat * capacity bytes.length + ofBytes bytes
        < b.toNat * capacity bytes.length + capacity bytes.length := Nat.add_lt_add_left ih _
      _ = (b.toNat + 1) * capacity bytes.length := (Nat.succ_mul _ _).symm
      _ ≤ 256 * capacity bytes.length := Nat.mul_le_mul_right _ hb

/-! ## 3. The two directions -/

@[simp] theorem length_toBytes : ∀ (width n : Nat), (toBytes width n).length = width
  | 0, _ => rfl
  | width + 1, n => by
      rw [toBytes, List.length_append, length_toBytes width]
      rfl

/-- **Reading undoes writing** for every number that fits the width. -/
theorem ofBytes_toBytes : ∀ (width n : Nat), n < capacity width → ofBytes (toBytes width n) = n
  | 0, n, h => (Nat.lt_one_iff.1 h).symm
  | width + 1, n, h => by
      have hd : n / 256 < capacity width := Nat.div_lt_of_lt_mul h
      have hm : (UInt8.ofNat (n % 256)).toNat = n % 256 := by simp
      rw [toBytes, ofBytes_concat, ofBytes_toBytes width _ hd, hm]
      omega

/-- **Writing undoes reading** at the width that was read. -/
theorem toBytes_ofBytes (bytes : List UInt8) : toBytes bytes.length (ofBytes bytes) = bytes := by
  obtain ⟨n, hn⟩ : ∃ n, bytes.length = n := ⟨_, rfl⟩
  induction n generalizing bytes with
  | zero => rw [List.eq_nil_of_length_eq_zero hn]; rfl
  | succ n ih =>
    obtain ⟨front, b, rfl⟩ : ∃ front b, bytes = front ++ [b] :=
      ⟨bytes.dropLast, bytes.getLast (List.ne_nil_of_length_eq_add_one hn),
        (List.dropLast_concat_getLast _).symm⟩
    have hlen : front.length = n := by
      rw [List.length_append] at hn
      exact Nat.succ.inj hn
    have hb : b.toNat < 256 := b.toNat_lt
    have hdiv : (ofBytes front * 256 + b.toNat) / 256 = ofBytes front := by omega
    have hmod : (ofBytes front * 256 + b.toNat) % 256 = b.toNat := by omega
    have hwidth : (front ++ [b]).length = front.length + 1 := by
      rw [List.length_append]; rfl
    rw [hwidth, ofBytes_concat, toBytes, hdiv, hmod, ih front hlen, UInt8.ofNat_toNat]

end ClassView.BigEndian
