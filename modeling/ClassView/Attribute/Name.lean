/-!
# Names of the recognised attributes

A class file hangs named attributes on the class, its members and their code. Nine names are
recognised and their bodies are read; every other attribute is kept as raw bytes. This file fixes
the nine names and the way back from a text (`ofText?`): a text is recognised exactly when it is
the text of one of them (`ofText?_eq_some_iff`).
-/

namespace ClassView

/-- An attribute whose body is read and not only carried along. -/
inductive AttributeName where
  | code | constantValue | exceptions | sourceFile | signature
  | lineNumberTable | localVariableTable | deprecated | synthetic
  deriving DecidableEq, Repr

namespace AttributeName

/-- The name as the class file spells it. -/
def text : AttributeName → String
  | .code => "Code"
  | .constantValue => "ConstantValue"
  | .exceptions => "Exceptions"
  | .sourceFile => "SourceFile"
  | .signature => "Signature"
  | .lineNumberTable => "LineNumberTable"
  | .localVariableTable => "LocalVariableTable"
  | .deprecated => "Deprecated"
  | .synthetic => "Synthetic"

/-- All recognised names. -/
def all : List AttributeName :=
  [.code, .constantValue, .exceptions, .sourceFile, .signature,
   .lineNumberTable, .localVariableTable, .deprecated, .synthetic]

/-- The recognised name a text spells, if it spells one. -/
def ofText? (s : String) : Option AttributeName :=
  all.find? (fun n => n.text == s)

/-- **A text is recognised exactly when it is the text of that name.** -/
theorem ofText?_eq_some_iff {s : String} {n : AttributeName} : ofText? s = some n ↔ n.text = s := by
  constructor
  · intro h
    have := List.find?_some h
    simpa using this
  · rintro rfl
    cases n <;> rfl

/-- A text that is none of the names is not recognised. -/
theorem ofText?_eq_none {s : String} (h : ∀ n, s ≠ text n) : ofText? s = none := by
  cases hs : ofText? s with
  | none => rfl
  | some n => exact absurd (ofText?_eq_some_iff.1 hs).symm (h n)

end AttributeName

end ClassView
