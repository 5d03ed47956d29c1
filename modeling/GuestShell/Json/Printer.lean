import GuestShell.Bytes
import GuestShell.Json.Value

/-!
# Writing JSON

The compact form: no blanks, members in their order.  In a string the quote, the backslash and the
control characters below U+0020 are escaped, the five common controls by a letter and the others by
four hexadecimal digits in lower case; every other character stands for itself.
-/

namespace GuestShell.Json

/-- One character inside a string. -/
def escapeChar (c : Char) : List Char :=
  if c = '"' then ['\\', '"']
  else if c = '\\' then ['\\', '\\']
  else if c = '\x08' then ['\\', 'b']
  else if c = '\t' then ['\\', 't']
  else if c = '\n' then ['\\', 'n']
  else if c = '\x0c' then ['\\', 'f']
  else if c = '\r' then ['\\', 'r']
  else if c.toNat < 0x20 then
    ['\\', 'u', '0', '0', Bytes.hexDigit (c.toNat / 16), Bytes.hexDigit (c.toNat % 16)]
  else [c]

/-- A string with its quotes. -/
def quote (s : String) : List Char :=
  '"' :: s.toList.flatMap escapeChar ++ ['"']

/-- The characters of the compact form. -/
def chars : Json → List Char
  | .null => "null".toList
  | .bool true => "true".toList
  | .bool false => "false".toList
  | .int n => (toString n).toList
  | .real => ['0', '.', '0']
  | .str s => quote s
  | .arr items => '[' :: itemChars true items ++ [']']
  | .obj members => '\x7b' :: memberChars true members ++ ['\x7d']
  | .flawed => "null".toList
where
  /-- The items of an array, a comma before all but the first. -/
  itemChars : Bool → List Json → List Char
    | _, [] => []
    | first, j :: js => (if first then [] else [',']) ++ chars j ++ itemChars false js
  /-- The members of an object, a comma before all but the first. -/
  memberChars : Bool → List (String × Json) → List Char
    | _, [] => []
    | first, (k, j) :: js =>
      (if first then [] else [',']) ++ quote k ++ [':'] ++ chars j ++ memberChars false js

/-- The compact form. -/
def print (j : Json) : String :=
  String.ofList (chars j)

end GuestShell.Json
