import ClassView.Bytes.Cursor

/-!
# Serving one request after another

A session with a cursor: requests are served in order, each from where the last successful one
left off. `Request.serve` answers one request and says where the cursor stands afterwards, which
is where it stood if the request failed; `Request.serveAll` serves a list of them.
-/

namespace ClassView

/-- How many bytes a number takes. -/
inductive Width where
  | one | two | four | eight
  deriving DecidableEq, Repr

/-- The number of bytes of a width. -/
def Width.bytes : Width → Nat
  | .one => 1
  | .two => 2
  | .four => 4
  | .eight => 8

/-- What can be asked of a cursor. -/
inductive Request where
  /-- An unsigned number. -/
  | unsigned (width : Width)
  /-- A number in two's complement. -/
  | signed (width : Width)
  /-- The bits of a floating-point number of four bytes. -/
  | float
  /-- The bits of a floating-point number of eight bytes. -/
  | double
  /-- The next `count` bytes. -/
  | bytes (count : Nat)
  /-- To pass over the next `count` bytes. -/
  | skip (count : Nat)
  deriving DecidableEq, Repr

/-- What a cursor answers. -/
inductive Answer where
  | unsigned (value : Nat)
  | signed (value : Int)
  | float (bits : UInt32)
  | double (bits : UInt64)
  | bytes (value : List UInt8)
  | done
  deriving DecidableEq, Repr

namespace Request

/-- How many bytes a request needs. -/
def size : Request → Nat
  | .unsigned w => w.bytes
  | .signed w => w.bytes
  | .float => 4
  | .double => 8
  | .bytes n => n
  | .skip n => n

/-- The reader a request stands for. -/
def read : Request → Read Answer
  | .unsigned .one => (fun n => .unsigned n.toNat) <$> Cursor.u8
  | .unsigned .two => (fun n => .unsigned n.toNat) <$> Cursor.u16
  | .unsigned .four => (fun n => .unsigned n.toNat) <$> Cursor.u32
  | .unsigned .eight => (fun n => .unsigned n.toNat) <$> Cursor.u64
  | .signed .one => (fun n => .signed n.toInt) <$> Cursor.i8
  | .signed .two => (fun n => .signed n.toInt) <$> Cursor.i16
  | .signed .four => (fun n => .signed n.toInt) <$> Cursor.i32
  | .signed .eight => (fun n => .signed n.toInt) <$> Cursor.i64
  | .float => .float <$> Cursor.u32
  | .double => .double <$> Cursor.u64
  | .bytes n => .bytes <$> Cursor.take n
  | .skip n => (fun _ => .done) <$> Cursor.skip n

/-- One request served: its outcome and where the cursor stands afterwards. -/
structure Served where
  outcome : Outcome Answer
  cursor : Cursor

/-- Serves one request; the cursor moves only if the request succeeds. -/
def serve (c : Cursor) (request : Request) : Served :=
  match request.read c with
  | .ok (answer, c') => ⟨.ok answer, c'⟩
  | .error e => ⟨.error e, c⟩

/-- Serves requests in order, each from where the one before left the cursor. -/
def serveAll (c : Cursor) : List Request → List Served
  | [] => []
  | request :: requests =>
    let served := serve c request
    served :: serveAll served.cursor requests

end Request

end ClassView
