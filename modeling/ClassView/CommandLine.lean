import ClassView.DecodeError.Message
import ClassView.Listing.Basic
import ClassView.Resolved.Datum

/-!
# The command line

The program takes options and the path of a class file, in any order, and prints the listing of
the class or, if asked, the resolved class as data. This file says what an argument means
(`CommandLine.ofArguments?`) and what the program answers, given a way to look at files
(`CommandLine.run`); nothing here reads or prints.

Single-letter options can be joined behind one dash, an option's value can follow its name or an
equals sign, and behind `--` every argument is a path. An argument that asks for the version
settles the matter: what follows it is not looked at.
-/

namespace ClassView

/-! ## 1. What is asked for -/

/-- What one run of the program is asked for. -/
structure CommandLine where
  /-- The path of the class file, if one is given. -/
  path : Option String
  options : ListingOptions
  /-- The resolved class is printed in place of the listing. -/
  asData : Bool
  /-- Only the version of the program is printed. -/
  showsVersion : Bool
  deriving DecidableEq, Repr

namespace CommandLine

/-- Nothing is asked for yet. -/
def empty : CommandLine := ⟨none, .plain, false, false⟩

/-- The levels of messages that can be asked for, from none to all. -/
def logLevels : List String := ["off", "error", "warn", "info", "debug", "trace"]

/-! ## 2. Arguments -/

/-- A level of messages changes nothing of what is printed, but it has to be one. -/
def withLogLevel? (c : CommandLine) (level : String) : Option CommandLine :=
  if logLevels.contains level.toLower then some c else none

/-- A path; there is only one. -/
def withPath? (c : CommandLine) (path : String) : Option CommandLine :=
  if c.path.isSome then none else some { c with path := some path }

/-- An option of a single letter. -/
def withLetter? (c : CommandLine) (letter : Char) : Option CommandLine :=
  if c.showsVersion then some c
  else match letter with
    | 'l' => some { c with options := { c.options with lineNumbers := true } }
    | 'v' => some { c with options := { c.options with verbose := true } }
    | 'V' => some { c with showsVersion := true }
    | _ => none

/-- An option of a whole word, without a value. -/
def withWord? (c : CommandLine) (word : String) : Option CommandLine :=
  match word with
  | "--line-numbers" => some { c with options := { c.options with lineNumbers := true } }
  | "--locals" => some { c with options := { c.options with localVariables := true } }
  | "--verbose" => some { c with options := { c.options with verbose := true } }
  | "--no-code" => some { c with options := { c.options with skipCode := true } }
  | "--ast" => some { c with asData := true }
  | "--version" => some { c with showsVersion := true }
  | _ => none

/-- The level named behind the equals sign of the option for it. -/
def logLevelValue? (argument : String) : Option String :=
  let name := "--log-level=".toList
  if name.isPrefixOf argument.toList then
    some (String.ofList (argument.toList.drop name.length))
  else none

/-- One argument that starts with a dash. -/
def withOption? (c : CommandLine) (argument : String) : Option CommandLine :=
  match logLevelValue? argument with
  | some level => c.withLogLevel? level
  | none =>
    match argument.toList with
    | '-' :: '-' :: _ => c.withWord? argument
    | '-' :: letters => letters.foldlM withLetter? c
    | _ => none

/-- The argument is an option and not a path: it starts with a dash and is more than that. -/
def isOption (argument : String) : Bool :=
  match argument.toList with
  | '-' :: _ :: _ => true
  | _ => false

/-- Takes the arguments in order; none if there is one that cannot be understood. -/
def withArguments? (c : CommandLine) : List String → Option CommandLine
  | [] => some c
  | "--" :: paths => paths.foldlM withPath? c
  | "--log-level" :: level :: rest => do (← c.withLogLevel? level).withArguments? rest
  | argument :: rest => do
    let c ← if isOption argument then c.withOption? argument else c.withPath? argument
    if c.showsVersion then return c
    c.withArguments? rest

/-- What a list of arguments asks for. -/
def ofArguments? (arguments : List String) : Option CommandLine := empty.withArguments? arguments

/-! ## 3. Answers -/

/-- What a run of the program prints, where it prints it, and how it ends. -/
structure Report where
  exitCode : UInt32
  output : String
  errors : String
  deriving DecidableEq, Repr

/-- The report of a run that went well. -/
def success (text : String) : Report := ⟨0, text ++ "\n", ""⟩

/-- The report of a run that failed at something for a reason. -/
def failure (action path cause : String) : Report :=
  ⟨1, "", s!"Error: failed to {action} {path}\n\nCaused by:\n    {cause}\n"⟩

/-- The report of arguments that cannot be understood. -/
def misuse : Report := ⟨2, "", "Usage: classdis [OPTIONS] <CLASS_FILE>\n"⟩

/-- The name and version of the program. -/
def versionText : String := "classdis 0.1.0"

/-- The report on the bytes of the class file at a path. -/
def report (c : CommandLine) (path : String) (bytes : List UInt8) : Report :=
  if c.asData then
    match ResolvedClass.parse bytes Text.text? with
    | .ok resolved => success (resolved.toDatum.indented 0)
    | .error e => failure "decode" path e.message
  else
    match disassemble c.options bytes Text.text? with
    | .ok text => success text
    | .error e => failure "disassemble" path e.message

/-- The report of a run; `file` answers the bytes at a path, or why there are none. -/
def run (arguments : List String) (file : String → Except String (List UInt8)) : Report :=
  match ofArguments? arguments with
  | none => misuse
  | some c =>
    if c.showsVersion then success versionText
    else match c.path with
      | none => misuse
      | some path =>
        match file path with
        | .ok bytes => c.report path bytes
        | .error why => failure "read" path why

end CommandLine

end ClassView
