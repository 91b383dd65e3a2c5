/-!
# Access flags

A class, a field and a method each carry a word of flags. The three kinds share some bits and use
others for themselves. A `FlagTable` says, for one kind, which bits have a name and which of them
are written as a keyword of a declaration; both lists go from the lowest bit up, which is the order
in which they are printed. Bits without a name are dropped when the word is read (`Access.ofBits`).
-/

namespace ClassView

/-! ## 1. What flags can stand on -/

/-- What a word of access flags belongs to. -/
inductive AccessKind where
  | ofClass | ofField | ofMethod
  deriving DecidableEq, Repr

/-- A bit and the word it is printed as. -/
structure Flag where
  bit : UInt16
  word : String
  deriving DecidableEq, Repr

namespace AccessKind

/-- The named bits, from the lowest up. -/
def flags : AccessKind → List Flag
  | .ofClass =>
    [⟨0x1, "ACC_PUBLIC"⟩, ⟨0x10, "ACC_FINAL"⟩, ⟨0x20, "ACC_SUPER"⟩, ⟨0x200, "ACC_INTERFACE"⟩,
     ⟨0x400, "ACC_ABSTRACT"⟩, ⟨0x1000, "ACC_SYNTHETIC"⟩, ⟨0x2000, "ACC_ANNOTATION"⟩,
     ⟨0x4000, "ACC_ENUM"⟩, ⟨0x8000, "ACC_MODULE"⟩]
  | .ofField =>
    [⟨0x1, "ACC_PUBLIC"⟩, ⟨0x2, "ACC_PRIVATE"⟩, ⟨0x4, "ACC_PROTECTED"⟩, ⟨0x8, "ACC_STATIC"⟩,
     ⟨0x10, "ACC_FINAL"⟩, ⟨0x40, "ACC_VOLATILE"⟩, ⟨0x80, "ACC_TRANSIENT"⟩,
     ⟨0x1000, "ACC_SYNTHETIC"⟩, ⟨0x4000, "ACC_ENUM"⟩]
  | .ofMethod =>
    [⟨0x1, "ACC_PUBLIC"⟩, ⟨0x2, "ACC_PRIVATE"⟩, ⟨0x4, "ACC_PROTECTED"⟩, ⟨0x8, "ACC_STATIC"⟩,
     ⟨0x10, "ACC_FINAL"⟩, ⟨0x20, "ACC_SYNCHRONIZED"⟩, ⟨0x40, "ACC_BRIDGE"⟩, ⟨0x80, "ACC_VARARGS"⟩,
     ⟨0x100, "ACC_NATIVE"⟩, ⟨0x400, "ACC_ABSTRACT"⟩, ⟨0x800, "ACC_STRICT"⟩,
     ⟨0x1000, "ACC_SYNTHETIC"⟩]

/-- The bits that a declaration writes as a keyword, from the lowest up. -/
def keywords : AccessKind → List Flag
  | .ofClass => [⟨0x1, "public"⟩, ⟨0x10, "final"⟩, ⟨0x400, "abstract"⟩]
  | .ofField =>
    [⟨0x1, "public"⟩, ⟨0x2, "private"⟩, ⟨0x4, "protected"⟩, ⟨0x8, "static"⟩, ⟨0x10, "final"⟩,
     ⟨0x40, "volatile"⟩, ⟨0x80, "transient"⟩]
  | .ofMethod =>
    [⟨0x1, "public"⟩, ⟨0x2, "private"⟩, ⟨0x4, "protected"⟩, ⟨0x8, "static"⟩, ⟨0x10, "final"⟩,
     ⟨0x20, "synchronized"⟩, ⟨0x100, "native"⟩, ⟨0x400, "abstract"⟩, ⟨0x800, "strictfp"⟩]

/-- All named bits together. -/
def mask (kind : AccessKind) : UInt16 :=
  kind.flags.foldl (fun m f => m ||| f.bit) 0

end AccessKind

/-! ## 2. Words of flags -/

/-- A word of access flags of one kind. -/
structure Access (kind : AccessKind) where
  bits : UInt16
  deriving DecidableEq, Repr

namespace Access

variable {kind : AccessKind}

/-- A word with the bits that have no name dropped. -/
def ofBits (kind : AccessKind) (bits : UInt16) : Access kind := ⟨bits &&& kind.mask⟩

/-- A bit is set. -/
def has (a : Access kind) (bit : UInt16) : Bool := a.bits &&& bit != 0

/-- The words of a table whose bits are set, in the table's order. -/
def select (bits : UInt16) (table : List Flag) : List String :=
  (table.filter (fun f => bits &&& f.bit != 0)).map (·.word)

/-- The names of the flags that are set. -/
def flagNames (a : Access kind) : List String := select a.bits kind.flags

/-- The flag that makes a class an interface. -/
def isInterface (a : Access .ofClass) : Bool := a.has 0x200

/-- The flag of a member that belongs to the class and not to its instances. -/
def isStatic (a : Access .ofMethod) : Bool := a.has 0x8

/-- The flag of a method whose last parameter takes any number of arguments. -/
def isVarargs (a : Access .ofMethod) : Bool := a.has 0x80

/-- The bits that show as keywords: an interface is abstract without saying so. -/
def keywordBits (kind : AccessKind) (bits : UInt16) : UInt16 :=
  if kind = .ofClass ∧ bits &&& 0x200 ≠ 0 then bits &&& ~~~0x400 else bits

/-- The keywords of a declaration with these flags. -/
def keywords (a : Access kind) : List String :=
  select (keywordBits kind a.bits) kind.keywords

/-- Dropping nameless bits twice is dropping them once. -/
theorem ofBits_ofBits (kind : AccessKind) (bits : UInt16) :
    ofBits kind (ofBits kind bits).bits = ofBits kind bits := by
  simp [ofBits, UInt16.and_assoc]

end Access

end ClassView
