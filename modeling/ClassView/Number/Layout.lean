import ClassView.Number.Shortest

/-!
# Layouts of floating-point numbers

A number is written with its shortest digits, either positionally (`1234.5`, always with a
fraction) or with one digit before the point and a power of ten (`1.2345E20`). A `FloatLayout` says
which magnitudes are written positionally, and the words for what has no digits. The listing and
the data notation each have a layout of their own.
-/

namespace ClassView.Number

/-! ## 1. Digits in place -/

/-- `n` zeros. -/
def zeros (n : Nat) : String := String.ofList (List.replicate n '0')

/-- A decimal written positionally, with at least one digit on each side of the point. -/
def Decimal.positional (d : Decimal) : String :=
  let digits := d.digits.toList
  let places := (-d.exponent).toNat
  if places = 0 then
    d.digits ++ zeros d.exponent.toNat ++ ".0"
  else if places < digits.length then
    String.ofList (digits.take (digits.length - places)) ++ "." ++
      String.ofList (digits.drop (digits.length - places))
  else
    "0." ++ zeros (places - digits.length) ++ d.digits

/-- A decimal written with a power of ten: one digit, a point, at least one digit, the power. -/
def Decimal.scientific (d : Decimal) : String :=
  let digits := d.digits.toList
  let fraction := if digits.length ≤ 1 then "0" else String.ofList (digits.drop 1)
  let power : Int := d.exponent + digits.length - 1
  String.ofList (digits.take 1) ++ "." ++ fraction ++ "E" ++ toString power

/-! ## 2. Layouts -/

/-- What a place that writes floating-point numbers is free to decide. -/
structure FloatLayout where
  /-- The magnitudes other than zero that are written positionally. -/
  isPositional : Magnitude → Bool
  /-- The word for what is no number. -/
  notANumber : String
  /-- The word for infinity. -/
  infinity : String

namespace FloatLayout

/-- The text of a magnitude. -/
def magnitude (layout : FloatLayout) (v : Magnitude) : String :=
  if v.isZero then "0.0"
  else if layout.isPositional v then v.shortest.positional
  else v.shortest.scientific

/-- The sign in front of a text. -/
def signed (negative : Bool) (text : String) : String :=
  if negative then "-" ++ text else text

/-- The text of the number with these bits. -/
def text (layout : FloatLayout) (format : BinaryFormat) (bits : Nat) : String :=
  match FloatValue.ofBits format bits with
  | .notANumber => layout.notANumber
  | .infinite negative => signed negative layout.infinity
  | .finite negative v => signed negative (layout.magnitude v)

end FloatLayout

end ClassView.Number
