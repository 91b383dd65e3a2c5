import ClassView.Number.Binary

/-!
# The shortest decimal that reads back

A value of a binary format stands for every real number that rounds to it: the interval that
reaches half way to its two neighbours, ends included exactly if the significand is even. Among
the decimals `coefficient * 10 ^ exponent` in that interval, `Magnitude.shortest` finds the one
with the fewest digits, and of several with that many digits the nearest to the value; of two that
are equally near it takes the larger.

It looks at one decimal grid after the other, from the grid of the value's leading digit down to
one that the value itself lies on. A grid that meets the interval meets it next to the value, so
only the two neighbours of the value on the grid are tried.
-/

namespace ClassView.Number

/-- The decimal number `coefficient * 10 ^ exponent`. -/
structure Decimal where
  coefficient : Nat
  exponent : Int
  deriving DecidableEq, Repr

namespace Decimal

/-- The digits of the coefficient. -/
def digits (d : Decimal) : String := toString d.coefficient

/-- Drops zeros at the end of the coefficient, at most `count` of them. -/
def dropZeros : (count : Nat) → Decimal → Decimal
  | 0, d => d
  | count + 1, d =>
    if d.coefficient ≠ 0 ∧ d.coefficient % 10 = 0 then
      dropZeros count ⟨d.coefficient / 10, d.exponent + 1⟩
    else d

/-- The same number with a coefficient that does not end in zero. -/
def normal (d : Decimal) : Decimal := dropZeros d.digits.length d

end Decimal

namespace Magnitude

/-! ## 1. The interval of a value -/

/-- The decimal lies in the interval of the reals that round to the value. -/
def covers (v : Magnitude) (d : Decimal) : Bool :=
  let point := 4 * d.coefficient * Nat.pow 10 d.exponent.toNat * v.denominator
  let scale := Nat.pow 10 (-d.exponent).toNat
  let low := (4 * v.numerator - (if v.narrowBelow then 1 else 2) * v.unit) * scale
  let high := (4 * v.numerator + 2 * v.unit) * scale
  if v.significand % 2 = 0 then low ≤ point && point ≤ high else low < point && point < high

/-! ## 2. Neighbours on a grid -/

/-- The value on the grid of step `10 ^ exponent`: how many steps, rounded down. -/
def floorOn (v : Magnitude) (exponent : Int) : Nat :=
  v.numerator * Nat.pow 10 (-exponent).toNat / (v.denominator * Nat.pow 10 exponent.toNat)

/-- The value is nearer to the grid point below it than to the one above. -/
def nearerBelow (v : Magnitude) (exponent : Int) : Bool :=
  let step := v.denominator * Nat.pow 10 exponent.toNat
  2 * (v.numerator * Nat.pow 10 (-exponent).toNat % step) < step

/-- The grid point next to the value that reads back as the value: the nearer if both do. -/
def onGrid? (v : Magnitude) (exponent : Int) : Option Decimal :=
  let below : Decimal := ⟨v.floorOn exponent, exponent⟩
  let above : Decimal := ⟨v.floorOn exponent + 1, exponent⟩
  match v.covers below, v.covers above with
  | true, true => some (if v.nearerBelow exponent then below else above)
  | true, false => some below
  | false, true => some above
  | false, false => none

/-! ## 3. The search -/

/-- The power of ten of the leading digit. -/
def leadingExponent (v : Magnitude) : Int :=
  if v.denominator ≤ v.numerator then
    ((toString (v.numerator / v.denominator)).length : Int) - 1
  else
    -((toString ((v.denominator - 1) / v.numerator)).length : Int)

/-- The first grid with a point that reads back, `finer` grids below `exponent` included; the last
    one is taken to hold the value itself. -/
def search (v : Magnitude) : (finer : Nat) → (exponent : Int) → Decimal
  | 0, exponent => ⟨v.floorOn exponent, exponent⟩
  | finer + 1, exponent =>
    match v.onGrid? exponent with
    | some d => d
    | none => search v finer (exponent - 1)

/-- The shortest decimal that reads back as the value, and the nearest of those. -/
def shortest (v : Magnitude) : Decimal :=
  let finest := min v.exponent 0
  (v.search (v.leadingExponent - finest).toNat v.leadingExponent).normal

end Magnitude

end ClassView.Number
