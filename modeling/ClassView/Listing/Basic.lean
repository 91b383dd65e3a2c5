import ClassView.ClassFile.Reader
import ClassView.Listing.Member

/-!
# Listings

The listing of a class file: the declaration of the class, and between braces its fields and then
its methods, with an empty line between any two members. A verbose listing puts the header and the
constant pool in front of the braces and names the source file once more behind them. A listing is
made whole or not at all: any reference it has to follow and cannot is the answer in its place.
-/

namespace ClassView

namespace ClassFile

variable (c : ClassFile)

/-! ## 1. The declaration of the class -/

/-- The classes a declaration names behind a word, nothing if there are none. -/
def relation (word : String) (names : List String) : String :=
  if names.isEmpty then "" else " " ++ word ++ " " ++ ", ".intercalate names

/-- The declaration of the class, up to the brace. An interface extends its interfaces; a class
    that extends the root of all classes does not say so. -/
def declaration : Outcome String := do
  let isInterface := c.access.isInterface
  let name ← c.name
  let interfaces ← c.interfaceNames
  let head := withKeywords c.access.keywords (if isInterface then "interface" else "class")
  if isInterface then return head ++ " " ++ name ++ relation "extends" interfaces
  let superName ← c.superName
  let extended := superName.toList.filter (· != "java.lang.Object")
  return head ++ " " ++ name ++ relation "extends" extended ++ relation "implements" interfaces

/-! ## 2. The header of a verbose listing -/

/-- The lines of versions, flags, names and counts. -/
def headerLines : Outcome (List String) := do
  let column (s : String) := Text.padRight 40 s ++ "// "
  let thisLine := column s!"  this_class: #{c.thisClass}" ++ (← c.name)
  let superLine := s!"  super_class: #{c.superClass}"
  let superLine := match ← c.superName with
    | some name => column superLine ++ name
    | none => superLine
  return [
    s!"  minor version: {c.minorVersion}",
    s!"  major version: {c.majorVersion}",
    "  flags: " ++ flagsText c.access,
    thisLine,
    superLine,
    s!"  interfaces: {c.interfaces.length}, fields: {c.fields.length}, " ++
      s!"methods: {c.methods.length}, attributes: {c.attributes.length}"]

/-- The lines up to the opening brace. -/
def openingLines (o : ListingOptions) : Outcome (List String) := do
  let declaration ← c.declaration
  if o.verbose then
    return [declaration] ++ (← c.headerLines) ++ ["Constant pool:"] ++ (← poolLines c.pool) ++
      ["\x7b"]
  else return [declaration ++ " \x7b"]

/-! ## 3. The listing -/

/-- A line about the source file, if the class tells one. -/
def sourceLines (before : String) : Outcome (List String) := do
  return (← c.sourceFile).toList.map (fun source => before ++ Text.literal source)

/-- The lines of all members, with an empty line between any two. -/
def memberLines (o : ListingOptions) : Outcome (List String) := do
  let fields ← c.fields.mapM (fieldLines o c.pool)
  let methods ← c.methods.mapM (methodLines o c)
  return [""].intercalate (fields ++ methods)

/-- The lines of the listing. -/
def listing (o : ListingOptions) : Outcome (List String) := do
  let source ← c.sourceLines "Compiled from "
  let opening ← c.openingLines o
  let members ← c.memberLines o
  let closing ← if o.verbose then c.sourceLines "SourceFile: " else pure []
  return source ++ opening ++ members ++ ["\x7d"] ++ closing

end ClassFile

/-! ## 4. From bytes to text -/

/-- Lines as a text: every line is ended. -/
def unlines (lines : List String) : String := String.join (lines.map (· ++ "\n"))

/-- The listing of the class file that a byte string is. -/
def disassemble (o : ListingOptions) (bytes : List UInt8) (texts : TextReader := Text.text?) :
    Outcome String := do
  let c ← ClassFile.parse bytes texts
  return unlines (← c.listing o)

theorem disassemble_of_parse {o : ListingOptions} {bytes : List UInt8} {texts : TextReader}
    {c : ClassFile} (h : ClassFile.parse bytes texts = .ok c) :
    disassemble o bytes texts = unlines <$> c.listing o := by
  unfold disassemble
  rw [h]
  exact (map_eq_pure_bind unlines (c.listing o)).symm

end ClassView
