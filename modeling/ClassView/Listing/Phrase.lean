import ClassView.Number.Layout
import ClassView.Pool.Resolve
import ClassView.Text.Column
import ClassView.Text.Literal

/-!
# Phrases for pool entries

Where a listing shows a pool index, it also says what the index stands for. This file fixes these
phrases: for classes, members, handles, dynamic references and constants. A name that does not
look like an identifier is quoted, so that it reads as one word: a class name that is an array
descriptor, and the names of constructors and initialisers.
-/

namespace ClassView

/-! ## 1. Numbers -/

/-- In a listing, magnitudes from a thousandth up to ten million are written positionally. -/
def listingFloats : Number.FloatLayout where
  isPositional := fun v => v.within 1 1000 10000000
  notANumber := "NaN"
  infinity := "Infinity"

/-- The text of a floating-point number of four bytes. -/
def floatText (bits : UInt32) : String := listingFloats.text Number.single bits.toNat

/-- The text of a floating-point number of eight bytes. -/
def doubleText (bits : UInt64) : String := listingFloats.text Number.double bits.toNat

/-! ## 2. Names -/

/-- A member name, quoted if it is a special one. -/
def memberName (name : String) : String :=
  if name.toList.head? == some '<' then Text.literal name else name

/-- The phrase for a class: its display name, quoted if it is an array's. -/
def classPhrase (name : String) : String :=
  if name.toList.head? == some '[' then "Class " ++ Text.literal name else "Class " ++ name

/-- A member without its kind: owner, name and descriptor. -/
def MemberRef.text (m : MemberRef) : String :=
  s!"{m.owner}.{memberName m.name}:{m.descriptor}"

/-- The phrase for a member. -/
def MemberRef.phrase (m : MemberRef) : String := s!"{m.kind.label} {m.text}"

/-- A method handle: how it uses its member, and the member. -/
def MethodHandle.text (h : MethodHandle) : String := s!"{h.kindName} {h.member.text}"

/-- A dynamic reference: its bootstrap method, name and descriptor. -/
def DynamicRef.text (d : DynamicRef) : String :=
  s!"#{d.bootstrap}:{d.nameAndType.name}:{d.nameAndType.descriptor}"

/-! ## 3. Constants -/

/-- The phrase for a constant that is loaded. -/
def LoadableConstant.phrase : LoadableConstant → String
  | .integer v => s!"int {v}"
  | .float bits => s!"float {floatText bits}f"
  | .long v => s!"long {v}l"
  | .double bits => s!"double {doubleText bits}d"
  | .string text => "String " ++ Text.literal text
  | .classRef name => classPhrase name
  | .methodType descriptor => "MethodType " ++ descriptor
  | .methodHandle handle => "MethodHandle " ++ handle.text
  | .dynamic ref => "Dynamic " ++ ref.text

/-! ## 4. Rows of the pool -/

/-- What a row of the pool listing shows of an entry: its fields as they are stored, and what they
    stand for. -/
structure EntryRow where
  fields : String
  meaning : Option String
  deriving DecidableEq, Repr

/-- The row of the entry at an index. -/
def entryRow (pool : ConstantPool) (index : UInt16) : Entry → Outcome EntryRow
  | .utf8 text => pure ⟨Text.escape text, none⟩
  | .integer v => pure ⟨toString v, none⟩
  | .float bits => pure ⟨floatText bits ++ "f", none⟩
  | .long v => pure ⟨toString v ++ "l", none⟩
  | .double bits => pure ⟨doubleText bits ++ "d", none⟩
  | .classRef name => do return ⟨s!"#{name}", some (← pool.classDisplayName index)⟩
  | .string text => do return ⟨s!"#{text}", some (Text.escape (← pool.string index))⟩
  | .member _ owner nameAndType => do
    return ⟨s!"#{owner}.#{nameAndType}", some (← pool.member index).text⟩
  | .nameAndType name descriptor => do
    let both ← pool.nameAndType index
    return ⟨s!"#{name}:#{descriptor}", some (memberName both.name ++ ":" ++ both.descriptor)⟩
  | .methodHandle kind member => do
    return ⟨s!"{kind}:#{member}", some (← pool.methodHandle index).text⟩
  | .methodType descriptor => do return ⟨s!"#{descriptor}", some (← pool.methodType index)⟩
  | .dynamic bootstrap nameAndType => do
    return ⟨s!"#{bootstrap}:#{nameAndType}", some (← pool.dynamic index).text⟩
  | .invokeDynamic bootstrap nameAndType => do
    return ⟨s!"#{bootstrap}:#{nameAndType}", some (← pool.invokeDynamic index).text⟩
  | .moduleRef name => do return ⟨s!"#{name}", some (← pool.moduleName index)⟩
  | .packageRef name => do return ⟨s!"#{name}", some (← pool.packageName index)⟩

/-- The line of the entry at an index. -/
def entryLine (pool : ConstantPool) (index : UInt16) (entry : Entry) : Outcome String := do
  let row ← entryRow pool index entry
  let head := Text.padLeft 5 s!"#{index}" ++ " = " ++ Text.padRight 18 entry.tag.name ++ " "
  match row.meaning with
  | some meaning => return head ++ Text.padRight 14 row.fields ++ " // " ++ meaning
  | none => return head ++ row.fields

/-- The lines of all entries, in the order of their indices. -/
def poolLines (pool : ConstantPool) : Outcome (List String) :=
  pool.entries.mapM (fun (index, entry) => entryLine pool index entry)

end ClassView
