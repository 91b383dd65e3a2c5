import ClassView.Descriptor.FieldType

/-!
# Descriptors

A descriptor is the text that gives the type of a field or a method. For a field it is a field
type; for a method it is the types of the parameters between parentheses and then the type of the
result, where `V` stands for no result. A descriptor comes from a class file and can be any text:
what it says is worked out on demand, and `DecodeError.invalidDescriptor` with the whole text is
the answer where it says nothing.
-/

namespace ClassView

/-! ## 1. Results -/

/-- What a method answers: nothing, or a value of a type. -/
inductive ResultType where
  | void
  | value (type : FieldType)
  deriving DecidableEq, Repr

namespace ResultType

/-- The characters the result type is written with. -/
def chars : ResultType → List Char
  | .void => ['V']
  | .value t => t.chars

/-- The text the result type is written as. -/
def text (r : ResultType) : String := String.ofList r.chars

/-- The name of the result type in a source file. -/
def displayName : ResultType → String
  | .void => "void"
  | .value t => t.displayName

/-- The result type that a whole text is. -/
def ofChars? (cs : List Char) : Option ResultType :=
  if cs = ['V'] then some .void
  else match FieldType.read? cs with
    | some (t, []) => some (.value t)
    | _ => none

end ResultType

/-! ## 2. Parameters -/

/-- Reads field types up to a closing parenthesis, behind those already read, which are kept last
    first; answers them and what stands behind the parenthesis. A type takes at least one
    character, so `room` need be no more than the length of the text. -/
def readParameters : (room : Nat) → List Char → List FieldType →
    Option (List FieldType × List Char)
  | 0, _, _ => none
  | room + 1, cs, done =>
    match cs with
    | ')' :: behind => some (done.reverse, behind)
    | cs =>
      match FieldType.read? cs with
      | some (t, rest) => readParameters room rest (t :: done)
      | none => none

/-! ## 3. Descriptors -/

/-- A text that stands where the type of a field or method is expected. -/
structure Descriptor where
  text : String
  deriving DecidableEq, Repr

namespace Descriptor

variable (d : Descriptor)

/-- The characters of the descriptor. -/
def chars : List Char := d.text.toList

/-- The descriptor has the look of a method's. -/
def isMethod : Bool := d.chars.head? == some '('

/-- How many `[` the descriptor starts with. -/
def dimensions : Nat := (d.chars.takeWhile (· == '[')).length

/-- The descriptor without the `[` it starts with. -/
def elementType : Descriptor := ⟨String.ofList (d.chars.dropWhile (· == '['))⟩

/-- The local variables that a value takes, told from the first character alone. -/
def slots : Nat :=
  match d.chars.head? with
  | some 'J' | some 'D' => 2
  | some 'V' => 0
  | _ => 1

/-- What a part of the descriptor means, where it means anything. -/
def meaning {α : Type} (part : Option α) : Outcome α :=
  match part with
  | some a => .ok a
  | none => .error (.invalidDescriptor d.text)

/-- The parameter types of a method descriptor and what stands behind them. -/
def parameters? : Option (List FieldType × List Char) :=
  match d.chars with
  | '(' :: rest => readParameters (rest.length + 1) rest []
  | _ => none

/-- The parameter types of a method descriptor. -/
def parameterTypes : Outcome (List FieldType) := d.meaning (d.parameters?.map (·.1))

/-- The result type of a method descriptor. -/
def resultType : Outcome ResultType :=
  d.meaning (d.parameters?.bind (fun (_, behind) => ResultType.ofChars? behind))

/-- The local variables that the arguments of a call take, the receiver among them unless there is
    none. -/
def argumentSlots (isStatic : Bool) : Outcome Nat := do
  let types ← d.parameterTypes
  return types.foldl (fun n t => n + t.slots) (if isStatic then 0 else 1)

/-- The name in a source file of the type that the whole descriptor is. -/
def displayName : Outcome String :=
  d.meaning ((ResultType.ofChars? d.chars).map ResultType.displayName)

end Descriptor

end ClassView
