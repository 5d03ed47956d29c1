/-!
# JSON values

The values that a JSON text can spell, as far as this program tells them apart.

* Members of an object keep their order, and a name may occur twice: what a reader makes of a
  repeated name is the reader's decision (`Json.Record`).
* A number is an integer that fits 64 bits, signed or unsigned, or else `real`: no field of any
  record here holds a fraction, so the digits of one are not kept.
* `flawed` is a value that is complete as a text but stands for nothing: a string whose escapes or
  bytes are no characters, a number beyond every range, an object with such a string for a name.  A
  reader that skips a value skips a flawed one as well; one that wants the value refuses it.
-/

namespace GuestShell

/-- A JSON value. -/
inductive Json where
  | null
  | bool (b : Bool)
  | int (n : Int)
  | real
  | str (s : String)
  | arr (items : List Json)
  | obj (members : List (String × Json))
  | flawed
  deriving Inhabited

namespace Json

/-- Whether the value and all values inside it stand for something. -/
def isSound : Json → Bool
  | .flawed => false
  | .arr items => soundItems items
  | .obj members => soundMembers members
  | _ => true
where
  soundItems : List Json → Bool
    | [] => true
    | j :: js => isSound j && soundItems js
  soundMembers : List (String × Json) → Bool
    | [] => true
    | (_, j) :: js => isSound j && soundMembers js

/-- How deep arrays and objects are nested. -/
def depth : Json → Nat
  | .arr items => depthItems items + 1
  | .obj members => depthMembers members + 1
  | _ => 0
where
  depthItems : List Json → Nat
    | [] => 0
    | j :: js => max (depth j) (depthItems js)
  depthMembers : List (String × Json) → Nat
    | [] => 0
    | (_, j) :: js => max (depth j) (depthMembers js)

/-- The deepest nesting that a value kept as a whole may have. -/
def maxDepth : Nat := 127

/-- A value that may be kept as a whole, to be looked into later. -/
def isKeepable (j : Json) : Bool :=
  j.isSound && j.depth ≤ maxDepth

end Json

end GuestShell
