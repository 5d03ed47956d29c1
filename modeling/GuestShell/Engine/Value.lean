/-!
# Values at the border of a guest

A guest and its host exchange words of two widths.  Either width can be read as the other: the wide
one is cut, the narrow one is extended by its sign.  An address is a narrow word read without sign.
-/

namespace GuestShell

/-- The widths of words. -/
inductive ValueKind where
  | i32
  | i64
  deriving DecidableEq, Repr

/-- A word that crosses the border. -/
inductive Value where
  | i32 (v : Int32)
  | i64 (v : Int64)
  deriving DecidableEq

namespace Value

/-- The width of a word. -/
def kind : Value → ValueKind
  | i32 _ => .i32
  | i64 _ => .i64

/-- The low 32 bits. -/
def narrow : Value → Int32
  | i32 v => v
  | i64 v => v.toInt32

/-- The word with 64 bits. -/
def wide : Value → Int64
  | i32 v => v.toInt64
  | i64 v => v

/-- The address that the word stands for. -/
def address (v : Value) : Nat :=
  v.narrow.toUInt32.toNat

/-- Addresses have 32 bits. -/
theorem address_lt (v : Value) : v.address < UInt32.size :=
  v.narrow.toUInt32.toNat_lt

/-- A word of a given width. -/
def ofWide (k : ValueKind) (v : Int64) : Value :=
  match k with
  | .i32 => i32 v.toInt32
  | .i64 => i64 v

@[simp] theorem kind_ofWide (k : ValueKind) (v : Int64) : (ofWide k v).kind = k := by
  cases k <;> rfl

end Value

/-- A function that a host offers, or a guest asks for: the library it belongs to, its name, the
widths of its parameters and of its result, if it has one. -/
structure Signature where
  library : String
  name : String
  params : List ValueKind
  result : Option ValueKind
  deriving DecidableEq

end GuestShell
