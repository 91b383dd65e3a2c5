import ClassView.Attribute.Basic
import ClassView.Instruction.Decoder
import ClassView.Listing.Phrase

/-!
# Lines for code

The body of a method is listed one instruction a line, with the pc, the name, the operands and, if
the operands hold a pool index, what that stands for. A switch takes a line for its head, one for
each case, one for the default and one for the closing brace. Targets are shown as places in the
code. Behind the instructions come the exception table and, if asked for, the tables of line
numbers and local variables.
-/

namespace ClassView

/-! ## 1. Operands -/

/-- What a pool index behind an opcode stands for. Only the opcodes that are followed by such an
    index and by nothing else have an answer. -/
def indexPhrase (pool : ConstantPool) (i : Instruction) (index : UInt16) : Outcome String :=
  if i.opcode.loadsConstant then LoadableConstant.phrase <$> pool.constant index
  else if i.opcode.usesField then MemberRef.phrase <$> pool.fieldRef index
  else if i.opcode.callsMethod then MemberRef.phrase <$> pool.methodRef index
  else if i.opcode.callsAnyMethod then MemberRef.phrase <$> pool.invocable index
  else if i.opcode.usesClass then classPhrase <$> pool.classDisplayName index
  else throw (.unknownOpcode i.opcode.byte i.pc)

/-! ## 2. Lines of an instruction -/

/-- The start of every line of an instruction: its pc. -/
def pcColumn (i : Instruction) : String := Text.padLeft 8 (toString i.pc) ++ ": "

/-- The line of an instruction without operands. -/
def bareLine (i : Instruction) : String := pcColumn i ++ i.name

/-- The line of an instruction whose operands speak for themselves. -/
def operandLine (i : Instruction) (operand : String) : String :=
  pcColumn i ++ Text.padRight 13 i.name ++ " " ++ operand

/-- The line of an instruction whose operands need a phrase. -/
def phraseLine (i : Instruction) (operand phrase : String) : String :=
  operandLine i (Text.padRight 19 operand) ++ " // " ++ phrase

/-- The line of one case of a switch. -/
def caseLine (i : Instruction) (label : String) (offset : Int32) : String :=
  Text.padLeft 22 label ++ ": " ++ toString (i.target offset.toInt)

/-- The lines of a switch: its head, its cases, its default and its end. -/
def switchLines (i : Instruction) (head : String) (cases : List (Int × Int32))
    (default : Int32) : List String :=
  [pcColumn i ++ Text.padRight 13 i.name ++ " \x7b // " ++ head] ++
    cases.map (fun (key, offset) => caseLine i (toString key) offset) ++
    [caseLine i "default" default, Text.padLeft 11 "\x7d"]

/-- The keys from the lowest to the highest. -/
def keysBetween (low high : Int32) : List Int :=
  (List.range (high.toInt - low.toInt + 1).toNat).map fun (k : Nat) => low.toInt + (k : Int)

/-- The cases of a table switch: its keys, side by side with its offsets. -/
def tableCases (low high : Int32) (offsets : List Int32) : List (Int × Int32) :=
  (keysBetween low high).zip offsets

/-- The lines of one instruction. -/
def instructionLines (pool : ConstantPool) (i : Instruction) : Outcome (List String) :=
  match i.operand with
  | .nothing | .reserved => pure [bareLine i]
  | .slot slot => pure [operandLine i (toString slot.index)]
  | .increment slot amount => pure [operandLine i s!"{slot.index}, {amount}"]
  | .branch offset => pure [operandLine i (toString (i.target offset.value))]
  | .literal value => pure [operandLine i (toString value.value)]
  | .primitiveArray element =>
    match elementTypeName? element with
    | some name => pure [operandLine i name]
    | none => throw (.malformedAttribute .code)
  | .index index | .wideIndex index => do
    return [phraseLine i s!"#{index}" (← indexPhrase pool i index)]
  | .interfaceCall index count => do
    return [phraseLine i s!"#{index},  {count}" (← pool.interfaceMethodRef index).phrase]
  | .dynamicCall index => do
    return [phraseLine i s!"#{index},  0" ("InvokeDynamic " ++ (← pool.invokeDynamic index).text)]
  | .multiArray index dimensions => do
    return [phraseLine i s!"#{index},  {dimensions}"
      (classPhrase (← pool.classDisplayName index))]
  | .tableSwitch default low high offsets =>
    pure (switchLines i s!"{low} to {high}" (tableCases low high offsets) default)
  | .lookupSwitch default pairs =>
    pure (switchLines i (toString pairs.length)
      (pairs.map (fun (key, offset) => (key.toInt, offset))) default)

/-- The lines of a code array. -/
def codeLines (pool : ConstantPool) (bytes : List UInt8) : Outcome (List String) := do
  let instructions ← decode bytes
  return (← instructions.mapM (instructionLines pool)).flatten

/-! ## 3. Tables -/

/-- The line of a handler. -/
def handlerLine (pool : ConstantPool) (h : ExceptionHandler) : Outcome String := do
  let caught ←
    if h.catchType = 0 then pure "any" else classPhrase <$> pool.classDisplayName h.catchType
  return Text.padLeft 11 (toString h.start) ++ " " ++ Text.padLeft 5 (toString h.stop) ++ " " ++
    Text.padLeft 5 (toString h.handler) ++ "   " ++ caught

/-- The lines of a table, with a heading unless the table is empty. -/
def tableLines (heading rows : List String) : List String :=
  if rows.isEmpty then [] else heading ++ rows

/-- The lines of an exception table. -/
def exceptionTableLines (pool : ConstantPool) (handlers : List ExceptionHandler) :
    Outcome (List String) := do
  let rows ← handlers.mapM (handlerLine pool)
  return tableLines ["    Exception table:", "       from    to  target type"] rows

/-- The lines of a table of line numbers. -/
def lineNumberLines (rows : List LineNumber) : List String :=
  tableLines ["    LineNumberTable:"] (rows.map (fun r => s!"      line {r.line}: {r.start}"))

/-- The line of a local variable. -/
def localVariableLine (pool : ConstantPool) (v : LocalVariable) : Outcome String := do
  let name ← pool.text v.name
  let descriptor ← pool.text v.descriptor
  return Text.padLeft 11 (toString v.start) ++ Text.padLeft 8 (toString v.length) ++
    Text.padLeft 6 (toString v.slot) ++ "  " ++ Text.padLeft 4 name ++ "   " ++ descriptor

/-- The lines of a table of local variables. -/
def localVariableLines (pool : ConstantPool) (rows : List LocalVariable) :
    Outcome (List String) := do
  let lines ← rows.mapM (localVariableLine pool)
  return tableLines
    ["    LocalVariableTable:", "      Start  Length  Slot  Name   Signature"] lines

end ClassView
