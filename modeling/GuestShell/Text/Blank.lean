/-!
# Blank characters, and text cut at characters

* `isBlank`: the 25 characters with the Unicode property White_Space.  The class of core knows
  only six of them.
* `isControl`: the general category Cc, the two ranges U+0000–U+001F and U+007F–U+009F.
* `trim`, `words`, `splitOn`: text without its outer blanks, its blank-separated words, and its
  pieces between separators.  `splitOn` never loses a character but the separators and never gives
  an empty list (`splitOn_ne_nil`).

Everything here is stated on lists of characters; the functions on `String` are their images.
-/

namespace GuestShell.Text

/-! ## Character classes -/

/-- The characters with the property White_Space. -/
def isBlank (c : Char) : Bool :=
  let n := c.toNat
  (0x09 ≤ n && n ≤ 0x0d) || n == 0x20 || n == 0x85 || n == 0xa0 || n == 0x1680 ||
    (0x2000 ≤ n && n ≤ 0x200a) || n == 0x2028 || n == 0x2029 || n == 0x202f || n == 0x205f ||
    n == 0x3000

/-- The control characters, general category Cc. -/
def isControl (c : Char) : Bool :=
  let n := c.toNat
  n ≤ 0x1f || (0x7f ≤ n && n ≤ 0x9f)

/-- What core calls whitespace is blank. -/
theorem isBlank_of_isWhitespace {c : Char} (h : c.isWhitespace = true) : isBlank c = true := by
  simp only [Char.isWhitespace, Bool.or_eq_true, decide_eq_true_eq] at h
  rcases h with ((rfl | rfl) | rfl) | rfl <;> decide

/-! ## Trimming -/

/-- The characters left when the blanks at both ends are dropped. -/
def trimChars (cs : List Char) : List Char :=
  ((cs.dropWhile isBlank).reverse.dropWhile isBlank).reverse

/-- The text without the blanks at its ends. -/
def trim (s : String) : String :=
  String.ofList (trimChars s.toList)

/-- Whether nothing but blanks is there. -/
def isBlankText (s : String) : Bool :=
  s.toList.all isBlank

/-- The text without the given characters at its end. -/
def trimEnd (p : Char → Bool) (s : String) : String :=
  String.ofList (s.toList.reverse.dropWhile p).reverse

/-- The text without the given characters at its start. -/
def trimStart (p : Char → Bool) (s : String) : String :=
  String.ofList (s.toList.dropWhile p)

/-! ## Splitting -/

/-- The pieces between the characters that satisfy `p`; one more than there are such characters. -/
def splitOn (p : Char → Bool) : List Char → List (List Char)
  | [] => [[]]
  | c :: cs =>
    if p c then [] :: splitOn p cs
    else
      match splitOn p cs with
      | [] => [[c]]
      | piece :: pieces => (c :: piece) :: pieces

theorem splitOn_ne_nil (p : Char → Bool) (cs : List Char) : splitOn p cs ≠ [] := by
  cases cs with
  | nil => simp [splitOn]
  | cons c cs =>
    rw [splitOn]
    split
    · simp
    · split <;> simp

/-- The piece after the last separator. -/
def lastPiece (p : Char → Bool) (cs : List Char) : List Char :=
  (cs.reverse.takeWhile fun c => !p c).reverse

/-- The words of the text: its longest runs without blanks. -/
def words (cs : List Char) : List (List Char) :=
  (splitOn isBlank cs).filter fun w => !w.isEmpty

/-! ## Beginnings, endings and replacement -/

/-- The text before a given ending, if it has that ending. -/
def dropEnding? (ending s : String) : Option String :=
  let cs := s.toList
  let es := ending.toList
  if es.isSuffixOf cs then some (String.ofList (cs.take (cs.length - es.length))) else none

/-- Whether the text begins with the given one. -/
def startsWith (s start : String) : Bool :=
  start.toList.isPrefixOf s.toList

/-- Whether the text ends with the given one. -/
def endsWith (s ending : String) : Bool :=
  ending.toList.isSuffixOf s.toList

/-- Every line feed becomes a carriage return and a line feed, as a terminal wants its lines. -/
def crlf (s : String) : String :=
  String.ofList (s.toList.flatMap fun c => if c = '\n' then ['\r', '\n'] else [c])

/-- The pieces, joined by a separator. -/
def joined (separator : String) (pieces : List String) : String :=
  separator.intercalate pieces

end GuestShell.Text
