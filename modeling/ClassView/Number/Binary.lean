/-!
# Floating-point numbers from their bits

A floating-point number is stored as a sign, an exponent and a fraction. `FloatValue.ofBits` takes
the bits apart, for any widths of exponent and fraction, into what they stand for: no number, an
infinity, or a sign and a magnitude `significand * 2 ^ exponent`. The magnitude is kept exactly, as
whole numbers; nothing here rounds.
-/

namespace ClassView.Number

/-! ## 1. Formats -/

/-- How many bits of a format hold the fraction and how many the exponent. -/
structure BinaryFormat where
  fractionBits : Nat
  exponentBits : Nat
  deriving DecidableEq, Repr

/-- The format of four bytes. -/
def single : BinaryFormat := ⟨23, 8⟩

/-- The format of eight bytes. -/
def double : BinaryFormat := ⟨52, 11⟩

/-- The stored exponent of the numbers in `[1, 2)`. -/
def BinaryFormat.bias (f : BinaryFormat) : Nat := Nat.pow 2 (f.exponentBits - 1) - 1

/-! ## 2. Magnitudes -/

/-- The magnitude `significand * 2 ^ exponent`, one of the values of a format. -/
structure Magnitude where
  significand : Nat
  exponent : Int
  /-- The next smaller value is half as far away as the next larger one. -/
  narrowBelow : Bool
  deriving DecidableEq, Repr

namespace Magnitude

/-- The distance to the next larger value, as a multiple of `1 / denominator`. -/
def unit (v : Magnitude) : Nat := Nat.pow 2 v.exponent.toNat

/-- The denominator of the magnitude as a fraction. -/
def denominator (v : Magnitude) : Nat := Nat.pow 2 (-v.exponent).toNat

/-- The numerator of the magnitude as a fraction. -/
def numerator (v : Magnitude) : Nat := v.significand * v.unit

/-- The magnitude is zero. -/
def isZero (v : Magnitude) : Bool := v.significand == 0

/-- The magnitude lies in `[num / den, bound)`. -/
def within (v : Magnitude) (num den bound : Nat) : Bool :=
  num * v.denominator ≤ v.numerator * den && v.numerator < bound * v.denominator

end Magnitude

/-! ## 3. Values -/

/-- What the bits of a floating-point number stand for. -/
inductive FloatValue where
  | notANumber
  | infinite (negative : Bool)
  | finite (negative : Bool) (magnitude : Magnitude)
  deriving DecidableEq, Repr

/-- Takes the bits of a number apart. An exponent of all ones marks the infinities and what is no
    number; an exponent of zero marks the values below the smallest normal one, whose significand
    has no leading one beside the fraction. -/
def FloatValue.ofBits (f : BinaryFormat) (bits : Nat) : FloatValue :=
  let leading := Nat.pow 2 f.fractionBits
  let exponents := Nat.pow 2 f.exponentBits
  let fraction := bits % leading
  let stored := bits / leading % exponents
  let negative := bits / (leading * exponents) % 2 == 1
  let lowest : Int := 1 - f.bias - f.fractionBits
  if stored = exponents - 1 then
    if fraction = 0 then .infinite negative else .notANumber
  else if stored = 0 then
    .finite negative ⟨fraction, lowest, false⟩
  else
    .finite negative
      ⟨leading + fraction, lowest + (stored - 1 : Nat), fraction == 0 && 1 < stored⟩

/-- The bits stand for no number. -/
def isNotANumber (f : BinaryFormat) (bits : Nat) : Bool :=
  FloatValue.ofBits f bits == .notANumber

end ClassView.Number
