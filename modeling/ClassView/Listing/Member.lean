import ClassView.ClassFile.Basic
import ClassView.Descriptor.Basic
import ClassView.Listing.Code
import ClassView.Listing.Options

/-!
# Lines for members

A field or method is listed as its declaration would stand in a source file: keywords, type, name
and, for a method, parameters and declared exceptions. A verbose listing adds the descriptor, the
flags and a field's constant; a method's body follows its declaration.

A method that initialises a class has no type, a constructor bears the name of its class, and where
a method takes any number of arguments the last parameter shows it.
-/

namespace ClassView

/-! ## 1. Words -/

/-- Keywords in front of what they qualify. -/
def withKeywords (keywords : List String) (rest : String) : String :=
  " ".intercalate (keywords ++ [rest])

/-- Flags as a number and by name. -/
def flagsText {kind : AccessKind} (access : Access kind) : String :=
  "(0x" ++ Text.hexPadded 4 access.bits.toNat ++ ") " ++ ", ".intercalate access.flagNames

/-- The lines of a member's descriptor and flags. -/
def detailLines {kind : AccessKind} (descriptor : String) (access : Access kind) : List String :=
  ["    descriptor: " ++ descriptor, "    flags: " ++ flagsText access]

/-! ## 2. Fields -/

/-- The lines of a field's constant. -/
def constantValueLines (pool : ConstantPool) (f : Field) : Outcome (List String) :=
  match f.constantValue? with
  | some index => do return ["    ConstantValue: " ++ (← pool.constant index).phrase]
  | none => pure []

/-- The lines of a field. -/
def fieldLines (o : ListingOptions) (pool : ConstantPool) (f : Field) :
    Outcome (List String) := do
  let descriptor ← f.descriptorIn pool
  let type ← (Descriptor.mk descriptor).displayName
  let name ← f.nameIn pool
  let declaration := ["  " ++ withKeywords f.access.keywords s!"{type} {name};"]
  if o.verbose then
    return declaration ++ detailLines descriptor f.access ++ (← constantValueLines pool f)
  else return declaration

/-! ## 3. Declarations of methods -/

/-- A parameter that takes any number of arguments: dots in place of the brackets its name ends in,
    if it ends in brackets. -/
def anyNumber (name : String) : String :=
  if ['[', ']'].isSuffixOf name.toList then
    String.ofList (name.toList.take (name.length - 2)) ++ "..."
  else name

/-- The display names of parameters, the last one marked if it takes any number of arguments. -/
def parameterNames (types : List FieldType) (varargs : Bool) : List String :=
  let names := types.map FieldType.displayName
  match varargs, names.getLast? with
  | true, some last => names.dropLast ++ [anyNumber last]
  | _, _ => names

/-- What stands before the parameters: the name of the class for a constructor, else the type of
    the result and the name of the method. -/
def methodHead (c : ClassFile) (name : String) (descriptor : Descriptor) : Outcome String :=
  if name = "<init>" then c.name
  else do return s!"{(← descriptor.resultType).displayName} {name}"

/-- The clause that declares exceptions, empty if there are none. -/
def throwsClause (pool : ConstantPool) (m : Method) : Outcome String := do
  let thrown ← (m.exceptions?.getD []).mapM pool.classDisplayName
  return if thrown.isEmpty then "" else " throws " ++ ", ".intercalate thrown

/-- The declaration of a method. -/
def methodDeclaration (c : ClassFile) (m : Method) : Outcome String := do
  let name ← m.nameIn c.pool
  if name = "<clinit>" then return "static \x7b\x7d;"
  let descriptor := Descriptor.mk (← m.descriptorIn c.pool)
  let parameters := parameterNames (← descriptor.parameterTypes) m.access.isVarargs
  let head ← methodHead c name descriptor
  let declared := head ++ "(" ++ ", ".intercalate parameters ++ ")"
  return withKeywords m.access.keywords declared ++ (← throwsClause c.pool m) ++ ";"

/-! ## 4. Bodies of methods -/

/-- The line of the space a method needs. -/
def sizeLine (pool : ConstantPool) (m : Method) (code : Code) : Outcome String := do
  let descriptor := Descriptor.mk (← m.descriptorIn pool)
  let arguments ← descriptor.argumentSlots m.access.isStatic
  return s!"      stack={code.maxStack}, locals={code.maxLocals}, args_size={arguments}"

/-- The lines of the code of a method: instructions and handlers. -/
def bodyLines (o : ListingOptions) (pool : ConstantPool) (m : Method) (code : Code) :
    Outcome (List String) := do
  let size ← if o.verbose then List.singleton <$> sizeLine pool m code else pure []
  let instructions ← codeLines pool code.bytes
  let handlers ← exceptionTableLines pool code.handlers
  return ["    Code:"] ++ size ++ instructions ++ handlers

/-- The lines of the tables that tie code to its source. -/
def debugLines (o : ListingOptions) (pool : ConstantPool) (code : Code) :
    Outcome (List String) := do
  let lines := if o.showsLineNumbers then lineNumberLines code.lineNumbers else []
  let locals ←
    if o.showsLocalVariables then localVariableLines pool code.localVariables else pure []
  return lines ++ locals

/-- The lines of a method's descriptor and flags. -/
def methodDetail (pool : ConstantPool) (m : Method) : Outcome (List String) := do
  return detailLines (← m.descriptorIn pool) m.access

/-- The lines of a method. -/
def methodLines (o : ListingOptions) (c : ClassFile) (m : Method) : Outcome (List String) := do
  let declaration ← methodDeclaration c m
  let detail ← if o.verbose then methodDetail c.pool m else pure []
  let head := ["  " ++ declaration] ++ detail
  match m.code? with
  | none => return head
  | some code =>
    let body ← if o.skipCode then pure [] else bodyLines o c.pool m code
    return head ++ body ++ (← debugLines o c.pool code)

end ClassView
