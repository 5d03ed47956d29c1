import GuestShell.Bytes
import GuestShell.Json.Value

/-!
# Reading JSON

The reader is strict: the whole text is one value with nothing but blanks around it, strings hold
no raw control characters, numbers have no leading zeros, and there are no comments or trailing
commas.

It reads *units*, the characters of a byte string with `none` for bytes that are no characters
(`Text.units`).  Outside strings only characters will do.  Inside a string a flaw, like an unpaired
surrogate escape, makes the string `flawed` and not the text unreadable: whether that matters
depends on whether somebody wants the string.

Each function returns what it read and the rest of the text.  The value reader goes down by fuel;
a text of `n` units needs no more than `n + 1`, which is what `ofUnits?` gives it.
-/

namespace GuestShell.Json

/-- Characters, with `none` for bytes that are no characters. -/
abbrev Units := List (Option Char)

/-! ## Leaves -/

/-- The blanks between the parts of a text. -/
def isBlank (c : Char) : Bool :=
  c = ' ' || c = '\n' || c = '\t' || c = '\r'

/-- The text after its leading blanks. -/
def skipBlanks : Units → Units
  | [] => []
  | some c :: rest => if isBlank c then skipBlanks rest else some c :: rest
  | none :: rest => none :: rest

/-- The text after a given word. -/
def expect? : List Char → Units → Option Units
  | [], rest => some rest
  | _ :: _, [] => none
  | c :: word, u :: rest => if u = some c then expect? word rest else none

/-- The leading decimal digits and the rest. -/
def digits : Units → List Char × Units
  | [] => ([], [])
  | some c :: rest =>
    if '0' ≤ c ∧ c ≤ '9' then
      let (ds, rest) := digits rest
      (c :: ds, rest)
    else ([], some c :: rest)
  | none :: rest => ([], none :: rest)

/-- The number that decimal digits spell. -/
def decimal (ds : List Char) : Nat :=
  ds.foldl (fun n d => n * 10 + (d.toNat - 48)) 0

/-! ## Numbers

A number that is no integer of 64 bits is read as a significand of 64 bits and a power of ten; both
are rounded to the precision of a 64-bit float, and it is their product that must not be too large.
-/

/-- Appends decimal digits to a number as long as 64 bits hold it; gives the digits left over. -/
def appendDigits : Nat → List Char → Nat × List Char
  | n, [] => (n, [])
  | n, d :: ds =>
    if n * 10 + decimal [d] < UInt64.size then appendDigits (n * 10 + decimal [d]) ds else (n, d :: ds)

/-- The significand and the power of ten of a number with the given digits before and after the point
and the given exponent.  Digits left over before the point count as zeros, those after it not at
all. -/
def scaled (whole fraction : List Char) (exponent : Int) : Nat × Int :=
  let (n, left) := appendDigits 0 whole
  let (n, unread) := appendDigits n fraction
  (n, exponent + left.length - (fraction.length - unread.length : Nat))

/-- The number of bits in the significand of a 64-bit float. -/
def floatPrecision : Nat := 53

/-- The nearest number that a float's significand holds; of two, the one with the even
significand. -/
def roundToFloat (n : Nat) : Nat :=
  let unit := 1 <<< (n.log2 + 1 - floatPrecision)
  let low := n / unit
  let above := 2 * (n % unit)
  (if unit < above ∨ (above = unit ∧ low % 2 = 1) then low + 1 else low) * unit

/-- The least number that rounds to infinity as a 64-bit float. -/
def floatLimit : Nat := 1 <<< 1024 - 1 <<< 970

/-- The greatest power of ten that is a 64-bit float. -/
def maxFloatExponent : Nat := 308

/-- Whether a significand times a power of ten is too large for a 64-bit float. -/
def isBeyondFloat : Nat × Int → Bool
  | (_, .negSucc _) => false
  | (significand, .ofNat e) =>
    significand != 0 &&
      (decide (maxFloatExponent < e) ||
        decide (floatLimit ≤ roundToFloat significand * roundToFloat (Nat.pow 10 e)))

/-- The value of a number that is read as a float. -/
def realValue (whole fraction : List Char) (exponent : Int) : Json :=
  if isBeyondFloat (scaled whole fraction exponent) then .flawed else .real

/-- The value of a number with the given sign, digits before and after the point, and exponent. -/
def numberValue (negative : Bool) (whole : List Char) (rest : Option (List Char × Int)) : Json :=
  match rest with
  | none =>
    let n := decimal whole
    if negative then
      if n = 0 then .real
      else if n ≤ 1 <<< 63 then .int (-n)
      else realValue whole [] 0
    else if n < UInt64.size then .int n
    else realValue whole [] 0
  | some (fraction, exponent) => realValue whole fraction exponent

/-- The exponent part after its letter: a sign, if any, and at least one digit. -/
def exponent? (rest : Units) : Option (Int × Units) :=
  let (negative, rest) :=
    match rest with
    | some '+' :: rest => (false, rest)
    | some '-' :: rest => (true, rest)
    | rest => (false, rest)
  match digits rest with
  | ([], _) => none
  | (ds, rest) => some ((if negative then -(decimal ds : Int) else decimal ds), rest)

/-- A number without its sign. -/
def unsigned? (negative : Bool) (text : Units) : Option (Json × Units) :=
  match digits text with
  | ([], _) => none
  | ('0' :: _ :: _, _) => none
  | (whole, rest) =>
    match rest with
    | some '.' :: rest =>
      match digits rest with
      | ([], _) => none
      | (fraction, rest) =>
        match rest with
        | some 'e' :: rest | some 'E' :: rest => do
          let (e, rest) ← exponent? rest
          return (numberValue negative whole (some (fraction, e)), rest)
        | rest => some (numberValue negative whole (some (fraction, 0)), rest)
    | some 'e' :: rest | some 'E' :: rest => do
      let (e, rest) ← exponent? rest
      return (numberValue negative whole (some ([], e)), rest)
    | rest => some (numberValue negative whole none, rest)

/-- A number. -/
def number? : Units → Option (Json × Units)
  | some '-' :: rest => unsigned? true rest
  | rest => unsigned? false rest

/-! ## Strings -/

/-- Four hexadecimal digits and the rest. -/
def hex4? : Units → Option (Nat × Units)
  | some a :: some b :: some c :: some d :: rest => do
    let a ← Bytes.hexValue? a
    let b ← Bytes.hexValue? b
    let c ← Bytes.hexValue? c
    let d ← Bytes.hexValue? d
    return (((a * 16 + b) * 16 + c) * 16 + d, rest)
  | _ => none

/-- One part of a string: a character or flaw, or the closing quote. -/
inductive Part where
  | char (c : Option Char)
  | close

/-- The part of a string after `\u`: a character, two escapes that make up one, or a flaw. -/
def unicodeEscape? (text : Units) : Option (Option Char × Units) := do
  let (high, rest) ← hex4? text
  if 0xdc00 ≤ high ∧ high ≤ 0xdfff then return (none, rest)
  else if 0xd800 ≤ high ∧ high ≤ 0xdbff then
    match rest with
    | some '\\' :: some 'u' :: rest' =>
      let (low, rest') ← hex4? rest'
      if 0xdc00 ≤ low ∧ low ≤ 0xdfff then
        return (some (Char.ofNat (0x10000 + (high - 0xd800) * 0x400 + (low - 0xdc00))), rest')
      else return (none, rest)
    | rest => return (none, rest)
  else return (some (Char.ofNat high), rest)

/-- The next part of a string. -/
def part? : Units → Option (Part × Units)
  | [] => none
  | none :: rest => some (.char none, rest)
  | some '"' :: rest => some (.close, rest)
  | some '\\' :: rest =>
    match rest with
    | some 'u' :: rest => (unicodeEscape? rest).map fun (c, rest) => (.char c, rest)
    | some 'b' :: rest => some (.char (some '\x08'), rest)
    | some 'f' :: rest => some (.char (some '\x0c'), rest)
    | some 'n' :: rest => some (.char (some '\n'), rest)
    | some 'r' :: rest => some (.char (some '\r'), rest)
    | some 't' :: rest => some (.char (some '\t'), rest)
    | some '"' :: rest => some (.char (some '"'), rest)
    | some '\\' :: rest => some (.char (some '\\'), rest)
    | some '/' :: rest => some (.char (some '/'), rest)
    | _ => none
  | some c :: rest => if c.toNat < 0x20 then none else some (.char (some c), rest)

/-- The characters of a string up to its closing quote; `sound` tells whether all parts so far were
characters.  The characters read so far come last first. -/
def stringTail? : Nat → Bool → List Char → Units → Option (Option String × Units)
  | 0, _, _, _ => none
  | fuel + 1, sound, read, text =>
    match part? text with
    | none => none
    | some (.close, rest) =>
      some (if sound then some (String.ofList read.reverse) else none, rest)
    | some (.char (some c), rest) => stringTail? fuel sound (c :: read) rest
    | some (.char none, rest) => stringTail? fuel false read rest

/-- The string after its opening quote, `none` inside for a flawed one. -/
def string? (text : Units) : Option (Option String × Units) :=
  stringTail? (text.length + 1) true [] text

/-! ## Values -/

mutual

/-- A value after any blanks. -/
def value? : Nat → Units → Option (Json × Units)
  | 0, _ => none
  | fuel + 1, text =>
    match skipBlanks text with
    | some 'n' :: rest => (expect? ['u', 'l', 'l'] rest).map fun rest => (.null, rest)
    | some 't' :: rest => (expect? ['r', 'u', 'e'] rest).map fun rest => (.bool true, rest)
    | some 'f' :: rest => (expect? ['a', 'l', 's', 'e'] rest).map fun rest => (.bool false, rest)
    | some '"' :: rest => (string? rest).map fun (s, rest) => ((s.map Json.str).getD .flawed, rest)
    | some '[' :: rest =>
      match skipBlanks rest with
      | some ']' :: rest => some (.arr [], rest)
      | _ => (items? fuel [] rest).map fun (js, rest) => (.arr js, rest)
    | some '\x7b' :: rest =>
      match skipBlanks rest with
      | some '\x7d' :: rest => some (.obj [], rest)
      | _ => members? fuel true [] rest
    | rest => number? rest

/-- The items of an array up to its bracket; those read so far come last first. -/
def items? : Nat → List Json → Units → Option (List Json × Units)
  | 0, _, _ => none
  | fuel + 1, read, text => do
    let (j, rest) ← value? fuel text
    match skipBlanks rest with
    | some ',' :: rest => items? fuel (j :: read) rest
    | some ']' :: rest => return ((j :: read).reverse, rest)
    | _ => none

/-- The members of an object up to its brace; those read so far come last first. -/
def members? : Nat → Bool → List (String × Json) → Units → Option (Json × Units)
  | 0, _, _, _ => none
  | fuel + 1, sound, read, text =>
    match skipBlanks text with
    | some '"' :: rest => do
      let (name, rest) ← string? rest
      match skipBlanks rest with
      | some ':' :: rest =>
        let (j, rest) ← value? fuel rest
        let read := (name.getD "", j) :: read
        let sound := sound && name.isSome
        match skipBlanks rest with
        | some ',' :: rest => members? fuel sound read rest
        | some '\x7d' :: rest => return (if sound then .obj read.reverse else .flawed, rest)
        | _ => none
      | _ => none
    | _ => none

end

/-- The value that a whole text spells. -/
def ofUnits? (text : Units) : Option Json :=
  match value? (text.length + 1) text with
  | some (j, rest) => if (skipBlanks rest).isEmpty then some j else none
  | none => none

/-- The value that a text spells. -/
def ofString? (s : String) : Option Json :=
  ofUnits? (s.toList.map some)

/-- The value that a byte string spells. -/
def ofBytes? (bytes : Bytes) : Option Json :=
  ofUnits? (Text.units bytes)

end GuestShell.Json
