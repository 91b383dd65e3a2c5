import ClassView.CommandLine

/-!
# The program

Reads the file that the command line names, prints the report on it, and ends with its exit code.
What is printed is decided in `ClassView.CommandLine`; here the file is read and the report is
written.
-/

namespace ClassView

/-- The sentence of an operating system's fault: its words, beginning with a capital, and its
    number, which may be given as the number below zero. -/
def systemFault (code : UInt32) (details : String) : String :=
  let number := if code < 0x80000000 then code.toNat else 0x100000000 - code.toNat
  s!"{details.capitalize} (os error {number})"

/-- Why a file could not be read. -/
def readFailure : IO.Error → String
  | .noFileOrDirectory _ code details => systemFault code details
  | .permissionDenied _ code details => systemFault code details
  | .inappropriateType _ code details => systemFault code details
  | .resourceExhausted _ code details => systemFault code details
  | .invalidArgument _ code details => systemFault code details
  | .otherError code details => systemFault code details
  | e => toString e

/-- The bytes of a file, or why they could not be read. -/
def fileBytes (path : String) : IO (Except String (List UInt8)) := do
  try
    return .ok (← IO.FS.readBinFile path).toList
  catch e =>
    return .error (readFailure e)

end ClassView

/-- Runs the program. -/
def main (arguments : List String) : IO UInt32 := do
  let path := (ClassView.CommandLine.ofArguments? arguments).bind (·.path)
  let contents ← match path with
    | some path => ClassView.fileBytes path
    | none => pure (.error "")
  let report := ClassView.CommandLine.run arguments (fun _ => contents)
  IO.print report.output
  IO.eprint report.errors
  return report.exitCode
