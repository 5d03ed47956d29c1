import GuestShell.Json.Value

/-!
# Records in JSON

A record is written as an object with its fields under their names, or as an array of its fields in
order.  Reading one is strict about what it knows and blind to the rest:

* in an object, members with unknown names are skipped, and a known name may occur once;
* in an array, fields that are missing at the end are as bad as fields that are missing, unless they
  have a default, and there may be no more items than fields.

`Fields` is what both forms have in common: for each field name, the value given for it, if any.
`ofJson?` finds it, and the readers below it take one field each.
-/

namespace GuestShell.Json

/-- The fields given for a record, and whether they came by name or by position. -/
structure Fields where
  given : List (String × Json)
  byName : Bool

namespace Fields

/-- How often a name occurs. -/
def occurrences (name : String) (members : List (String × Json)) : Nat :=
  (members.filter fun m => m.1 == name).length

/-- The fields of a record with the given field names. -/
def ofJson? (names : List String) : Json → Option Fields
  | .obj members =>
    if names.all fun n => occurrences n members ≤ 1 then
      some ⟨members.filter fun m => names.contains m.1, true⟩
    else none
  | .arr items =>
    if items.length ≤ names.length then some ⟨names.zip items, false⟩ else none
  | _ => none

/-- The value given for a field. -/
def find? (f : Fields) (name : String) : Option Json :=
  (f.given.find? fun m => m.1 == name).map (·.2)

/-- A field that has to be there. -/
def required {α : Type} (f : Fields) (name : String) (read : Json → Option α) : Option α :=
  f.find? name >>= read

/-- A field that has a default. -/
def withDefault {α : Type} (f : Fields) (name : String) (default : α) (read : Json → Option α) :
    Option α :=
  match f.find? name with
  | none => some default
  | some j => read j

end Fields

/-! ## Single values -/

/-- A text. -/
def text? : Json → Option String
  | .str s => some s
  | _ => none

/-- A truth value. -/
def bool? : Json → Option Bool
  | .bool b => some b
  | _ => none

/-- A number of the given range, ends included. -/
def intIn? (low high : Int) : Json → Option Int
  | .int n => if low ≤ n ∧ n ≤ high then some n else none
  | _ => none

/-- A natural number below the given bound. -/
def natBelow? (bound : Nat) (j : Json) : Option Nat :=
  (intIn? 0 (bound - 1) j).map Int.toNat

/-- A value or `null` in its place. -/
def orNull? {α : Type} (read : Json → Option α) : Json → Option (Option α)
  | .null => some none
  | j => (read j).map some

/-- An array of values. -/
def listOf? {α : Type} (read : Json → Option α) : Json → Option (List α)
  | .arr items => items.mapM read
  | _ => none

/-- A field that may be missing or `null`, where fields come by name; by position it has to be
there. -/
def Fields.optional {α : Type} (f : Fields) (name : String) (read : Json → Option α) :
    Option (Option α) :=
  match f.find? name with
  | none => if f.byName then some none else none
  | some j => orNull? read j

/-- One of several words.  A word may also be written as the only member of an object, with `null`
for its value. -/
def wordIn? {α : Type} (words : List (String × α)) : Json → Option α
  | .str s => (words.find? fun w => w.1 == s).map (·.2)
  | .obj [(s, .null)] => (words.find? fun w => w.1 == s).map (·.2)
  | _ => none

/-- A byte string, as an array of numbers below 256. -/
def bytes? (j : Json) : Option (List UInt8) :=
  listOf? (fun j => (natBelow? 256 j).map UInt8.ofNat) j

/-- The array form of a byte string. -/
def ofBytes (bytes : List UInt8) : Json :=
  .arr (bytes.map fun b => .int b.toNat)

end GuestShell.Json
