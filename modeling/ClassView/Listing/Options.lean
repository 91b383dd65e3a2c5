/-!
# What a listing shows

A listing always shows the declaration of the class and of its members. Four independent options
leave out the code or add detail; they can be given as the bits of one number.
-/

namespace ClassView

/-- What a listing shows beside declarations and code. -/
structure ListingOptions where
  /-- Method bodies are left out. -/
  skipCode : Bool
  /-- Tables of line numbers are shown. -/
  lineNumbers : Bool
  /-- Tables of local variables are shown. -/
  localVariables : Bool
  /-- The header, the constant pool and all detail are shown, both tables included. -/
  verbose : Bool
  deriving DecidableEq, Repr

namespace ListingOptions

/-- Declarations and code, nothing more. -/
def plain : ListingOptions := ⟨false, false, false, false⟩

/-- The options whose bits are set; higher bits mean nothing. -/
def ofBits (bits : Nat) : ListingOptions :=
  ⟨bits.testBit 0, bits.testBit 1, bits.testBit 2, bits.testBit 3⟩

/-- Tables of line numbers are shown, asked for or not. -/
def showsLineNumbers (o : ListingOptions) : Bool := o.verbose || o.lineNumbers

/-- Tables of local variables are shown, asked for or not. -/
def showsLocalVariables (o : ListingOptions) : Bool := o.verbose || o.localVariables

end ListingOptions

end ClassView
