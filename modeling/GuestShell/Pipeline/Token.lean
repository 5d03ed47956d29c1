import GuestShell.Text.Blank

/-!
# Tokens of a line

Words stand between blanks and operators.  Inside a word, single quotes keep everything, double
quotes keep everything but a backslash, which gives the character after it, and a backslash outside
quotes does the same.  A word is *bare* when no character of it was quoted or escaped.

`scan` reads one word in a single pass and counts the characters it took; `tokens` reads a line up
to its end or its first unsupported operator.
-/

namespace GuestShell

/-- Whether a character ends a bare word and begins an operator. -/
def isOperatorChar (c : Char) : Bool :=
  c == '|' || c == '&' || c == ';' || c == '<' || c == '>'

/-- A word of a line. -/
structure Word where
  text : String
  bare : Bool
  /-- The quote that the end of the line left open. -/
  unclosed : Option Char
  deriving DecidableEq, Repr

/-- A token of a line. -/
inductive Token where
  | word (w : Word)
  | pipe
  | operator (symbol : String)
  deriving DecidableEq, Repr

/-! ## Words -/

/-- Where in a word the next character stands. -/
inductive WordPlace where
  | plain
  /-- After a backslash outside quotes. -/
  | escaped
  | quoted (quote : Char)
  /-- After a backslash between double quotes. -/
  | quotedEscape

/-- A word as it is read: its text, whether it is bare, an open quote, and how many characters of
the line it takes. -/
structure Scan where
  text : List Char
  bare : Bool
  unclosed : Option Char
  size : Nat

namespace Scan

/-- A character in front that belongs to the text. -/
def keep (c : Char) (s : Scan) : Scan := { s with text := c :: s.text, size := s.size + 1 }

/-- A character in front that does not belong to the text. -/
def skip (s : Scan) : Scan := { s with size := s.size + 1 }

/-- A quote or backslash in front. -/
def quoting (s : Scan) : Scan := { s with bare := false, size := s.size + 1 }

end Scan

/-- Reads the rest of a word. -/
def scan : WordPlace → List Char → Scan
  | .plain, [] | .escaped, [] => ⟨[], true, none, 0⟩
  | .quoted q, [] => ⟨[], true, some q, 0⟩
  | .quotedEscape, [] => ⟨[], true, some '"', 0⟩
  | .plain, c :: cs =>
    if Text.isBlank c || isOperatorChar c then ⟨[], true, none, 0⟩
    else if c = '"' ∨ c = '\'' then (scan (.quoted c) cs).quoting
    else if c = '\\' then (scan .escaped cs).quoting
    else (scan .plain cs).keep c
  | .escaped, c :: cs => (scan .plain cs).keep c
  | .quoted q, c :: cs =>
    if c = q then (scan .plain cs).skip
    else if c = '\\' ∧ q = '"' then (scan .quotedEscape cs).skip
    else (scan (.quoted q) cs).keep c
  | .quotedEscape, c :: cs => (scan (.quoted '"') cs).keep c

/-! ## Tokens -/

/-- An operator that may be written twice, after its first character. -/
def doubled (c : Char) (single double : Token) : List Char → Token × Nat
  | d :: _ => if d = c then (double, 2) else (single, 1)
  | [] => (single, 1)

/-- The word at the start of a line. -/
def wordAt (cs : List Char) : Token × Nat :=
  let s := scan .plain cs
  (.word ⟨String.ofList s.text, s.bare, s.unclosed⟩, s.size)

/-- The token that begins with the character `c`, which is not blank, and its length. -/
def tokenAt (c : Char) (cs : List Char) : Token × Nat :=
  if c = '|' then doubled '|' .pipe (.operator "||") cs
  else if c = '&' then doubled '&' (.operator "&") (.operator "&&") cs
  else if c = ';' then (.operator ";", 1)
  else if c = '<' then (.operator "<", 1)
  else if c = '>' then doubled '>' (.operator ">") (.operator ">>") cs
  else if c = '2' then
    match cs with
    | '>' :: '>' :: _ => (.operator "2>>", 3)
    | '>' :: _ => (.operator "2>", 2)
    | _ => wordAt (c :: cs)
  else wordAt (c :: cs)

/-- The tokens after the first `skip` characters, up to the first operator. -/
def tokensAfter : Nat → List Char → List Token
  | _, [] => []
  | skip + 1, _ :: cs => tokensAfter skip cs
  | 0, c :: cs =>
    if Text.isBlank c then tokensAfter 0 cs
    else
      match tokenAt c cs with
      | (.operator symbol, _) => [.operator symbol]
      | (t, size) => t :: tokensAfter (size - 1) cs

/-- The tokens of a line, up to its first unsupported operator, which is the last of them. -/
def tokens (line : String) : List Token :=
  tokensAfter 0 line.toList

end GuestShell
