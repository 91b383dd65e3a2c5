import ClassView.DecodeError
import ClassView.Text.Quoted

/-!
# The wording of faults

One sentence per reason, without a full stop, for people. Numbers that name a byte of the file are
decimal; the magic number and opcodes are hexadecimal, as the format's own documents write them.
-/

namespace ClassView.DecodeError

/-- In a message an apostrophe stands for itself. -/
def quoting : Text.Quoting := ⟨false⟩

/-- The sentence that reports a fault. -/
def message : DecodeError → String
  | .truncatedInput offset => s!"unexpected end of input at offset {offset}"
  | .badMagic found => "invalid magic 0x" ++ Text.hexPadded 8 found.toNat
  | .indexOutOfRange index => s!"constant pool index {index} out of range"
  | .tagMismatch index expected actual =>
    s!"constant pool entry #{index} is {actual.name}, expected {expected.name}"
  | .unknownTag tag offset => s!"unrecognized constant pool tag {tag} at offset {offset}"
  | .unknownOpcode opcode pc =>
    "unknown opcode 0x" ++ Text.hexPadded 2 opcode.toNat ++ s!" at pc {pc}"
  | .malformedAttribute name => s!"malformed {name.text} attribute"
  | .invalidText index => s!"invalid modified utf-8 in constant pool entry #{index}"
  | .invalidDescriptor text => "invalid descriptor " ++ quoting.quote text
  | .trailingBytes offset count => s!"{count} unexpected trailing bytes at offset {offset}"

end ClassView.DecodeError
