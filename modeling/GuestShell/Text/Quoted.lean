import GuestShell.Text.Hidden

/-!
# Text in quotation marks

The written form of a text in diagnostic output: double quotes around it, a backslash before a
quote or a backslash, short escapes for the common controls, and the code point in braces for
every other character that would not show or would join the character before it.

Which characters show is data of the character database, kept in `Text.Hidden`.
-/

namespace GuestShell.Text

/-- Whether a number lies in one of the ranges, ends included. -/
def inRanges (ranges : List (Nat × Nat)) (n : Nat) : Bool :=
  ranges.any fun r => r.1 ≤ n && n ≤ r.2

/-- Whether a character shows on its own. -/
def shows (c : Char) : Bool :=
  c = ' ' ||
    !(inRanges joiningRanges c.toNat ||
      inRanges (if c.toNat < 0x10000 then hiddenBasicRanges else hiddenHighRanges) c.toNat)

/-! ## Quoting -/

/-- The digits of a number in base 16, without leading zeros. -/
def hexDigits (n : Nat) : List Char :=
  Nat.toDigits 16 n

/-- The code point in braces. -/
def escapeCode (c : Char) : List Char :=
  ['\\', 'u', '\x7b'] ++ hexDigits c.toNat ++ ['\x7d']

/-- One character inside double quotes. -/
def quoteChar (c : Char) : List Char :=
  if c = '\x00' then ['\\', '0']
  else if c = '\t' then ['\\', 't']
  else if c = '\n' then ['\\', 'n']
  else if c = '\r' then ['\\', 'r']
  else if c = '"' then ['\\', '"']
  else if c = '\\' then ['\\', '\\']
  else if shows c then [c]
  else escapeCode c

/-- A text in double quotes. -/
def quoted (s : String) : String :=
  String.ofList ('"' :: s.toList.flatMap quoteChar ++ ['"'])

end GuestShell.Text
