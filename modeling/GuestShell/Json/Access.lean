import GuestShell.Json.Value

/-!
# Looking into JSON values

`member?` finds a member of an object.  The other functions always have an answer: what is missing,
or is something else than it should be, counts as empty.
-/

namespace GuestShell.Json

/-- The first member of an object under a name. -/
def member? (j : Json) (name : String) : Option Json :=
  match j with
  | .obj members => (members.find? fun m => m.1 == name).map (·.2)
  | _ => none

/-- The member of an object under a name. -/
def member (j : Json) (name : String) : Json := (j.member? name).getD .null

/-- The items of an array. -/
def items : Json → List Json
  | .arr items => items
  | _ => []

/-- The item of an array at an index. -/
def item (j : Json) (k : Nat) : Json := j.items.getD k .null

/-- The members of an object. -/
def members : Json → List (String × Json)
  | .obj members => members
  | _ => []

/-- Whether the value is `null`. -/
def isNull : Json → Bool
  | .null => true
  | _ => false

/-- Whether an object has a member that is not `null`. -/
def has (j : Json) (name : String) : Bool := !(j.member name).isNull

/-- The text of a string. -/
def asText : Json → String
  | .str s => s
  | _ => ""

/-- The number. -/
def asInt : Json → Int
  | .int n => n
  | _ => 0

/-- The number; one below 0 counts as 0. -/
def asNat (j : Json) : Nat := j.asInt.toNat

/-- The truth value. -/
def asBool : Json → Bool
  | .bool b => b
  | _ => false

/-- The texts of an array. -/
def asTexts (j : Json) : List String := j.items.map asText

/-! ## Members at once -/

/-- The text under a name. -/
def textAt (j : Json) (name : String) : String := (j.member name).asText

/-- The number under a name. -/
def intAt (j : Json) (name : String) : Int := (j.member name).asInt

/-- The number under a name. -/
def natAt (j : Json) (name : String) : Nat := (j.member name).asNat

/-- The truth value under a name. -/
def boolAt (j : Json) (name : String) : Bool := (j.member name).asBool

/-- The texts under a name. -/
def textsAt (j : Json) (name : String) : List String := (j.member name).asTexts

/-- The items under a name. -/
def itemsAt (j : Json) (name : String) : List Json := (j.member name).items

end GuestShell.Json
