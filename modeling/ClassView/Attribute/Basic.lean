import ClassView.Attribute.Name

/-!
# Attributes

The class, its members and their code each carry a list of attributes. A recognised attribute holds
what its body says; any other one holds the index of its name and the bytes of its body. Code
carries attributes itself, so attributes nest.

Of several attributes of one kind the first counts, except for the tables of line numbers and local
variables, whose rows all count, in order.
-/

namespace ClassView

/-! ## 1. Rows of tables -/

/-- A stretch of code whose exceptions are handled at `handler`; a catch type of zero catches
    everything. The stretch ends before `stop`. -/
structure ExceptionHandler where
  start : UInt16
  stop : UInt16
  handler : UInt16
  catchType : UInt16
  deriving DecidableEq, Repr

/-- The line of the source file that the code from `start` on was made from. -/
structure LineNumber where
  start : UInt16
  line : UInt16
  deriving DecidableEq, Repr

/-- The name and type that a slot has over a stretch of code. -/
structure LocalVariable where
  start : UInt16
  length : UInt16
  name : UInt16
  descriptor : UInt16
  slot : UInt16
  deriving DecidableEq, Repr

/-! ## 2. Attributes -/

/-- The body of a method, over a type of attributes that it carries itself. -/
structure CodeOf (α : Type) where
  maxStack : UInt16
  maxLocals : UInt16
  bytes : List UInt8
  handlers : List ExceptionHandler
  attributes : List α
  deriving Repr

/-- An attribute; the indices are of pool entries. -/
inductive Attribute where
  | code (code : CodeOf Attribute)
  | constantValue (constant : UInt16)
  | exceptions (classes : List UInt16)
  | sourceFile (text : UInt16)
  | signature (text : UInt16)
  | lineNumberTable (rows : List LineNumber)
  | localVariableTable (rows : List LocalVariable)
  | deprecated
  | synthetic
  | unknown (name : UInt16) (body : List UInt8)
  deriving Repr

/-- The body of a method. -/
abbrev Code : Type := CodeOf Attribute

/-! ## 3. What a list of attributes says -/

namespace Attribute

/-- The first body of code. -/
def code? (attributes : List Attribute) : Option Code :=
  attributes.findSome? fun
    | .code body => some body
    | _ => none

/-- The first constant value. -/
def constantValue? (attributes : List Attribute) : Option UInt16 :=
  attributes.findSome? fun
    | .constantValue index => some index
    | _ => none

/-- The first list of declared exceptions. -/
def exceptions? (attributes : List Attribute) : Option (List UInt16) :=
  attributes.findSome? fun
    | .exceptions indices => some indices
    | _ => none

/-- The first name of a source file. -/
def sourceFile? (attributes : List Attribute) : Option UInt16 :=
  attributes.findSome? fun
    | .sourceFile index => some index
    | _ => none

/-- The first signature. -/
def signature? (attributes : List Attribute) : Option UInt16 :=
  attributes.findSome? fun
    | .signature index => some index
    | _ => none

/-- There is a mark of deprecation. -/
def isDeprecated (attributes : List Attribute) : Bool :=
  attributes.any fun
    | .deprecated => true
    | _ => false

/-- The rows of all tables of line numbers. -/
def lineNumbers (attributes : List Attribute) : List LineNumber :=
  attributes.flatMap fun
    | .lineNumberTable rows => rows
    | _ => []

/-- The rows of all tables of local variables. -/
def localVariables (attributes : List Attribute) : List LocalVariable :=
  attributes.flatMap fun
    | .localVariableTable rows => rows
    | _ => []

end Attribute

/-- The line numbers of a body of code. -/
def CodeOf.lineNumbers (code : Code) : List LineNumber := Attribute.lineNumbers code.attributes

/-- The local variables of a body of code. -/
def CodeOf.localVariables (code : Code) : List LocalVariable :=
  Attribute.localVariables code.attributes

end ClassView
