/-!
# The input window

A line travels from one side of a session to the other in an array of words that both can see: one
code point a word, and a 0 after the last.  A first word of -1 stands for the end of input.

A line is cut to what fits.  The words after its end keep what an earlier line left there; no reader
gets to see them.
-/

namespace GuestShell

/-- An array of words. -/
structure Window where
  words : List Int32
  deriving DecidableEq

namespace Window

/-- How many words the window of a session has. -/
def standardSize : Nat := 1000

/-- The most characters of a line that are sent. -/
def maxChars : Nat := standardSize - 1

/-- The first word where input is at its end. -/
def endOfInput : Int32 := -1

/-- A window of the given size, all words 0. -/
def zeros (size : Nat) : Window := ⟨List.replicate size 0⟩

/-- The word at an index; outside the window there are zeros. -/
def load (w : Window) (k : Nat) : Int32 := w.words.getD k 0

/-- Changes the word at an index; outside the window nothing happens. -/
def store (w : Window) (k : Nat) (word : Int32) : Window := ⟨w.words.set k word⟩

/-! ## Lines -/

/-- The word for a character. -/
def word (c : Char) : Int32 := Int32.ofNat c.toNat

/-- The character that a word stands for. -/
def char? (w : Int32) : Option Char :=
  if h : 0 ≤ w.toInt ∧ w.toInt.toNat.isValidChar then some (.ofNatAux w.toInt.toNat h.2) else none

/-- How many characters of a line fit a window of the given size, next to the 0. -/
def room (size : Nat) : Nat := min (size - 1) maxChars

/-- The words that are stored for a line, or for the end of input, from index 0 on. -/
def message (size : Nat) : Option String → List Int32
  | none => [endOfInput]
  | some line => (line.toList.take (room size)).map word ++ [0]

/-- Puts a line, or the end of input, into the window, one word after another. -/
def encode (w : Window) (line : Option String) : Window :=
  (message w.words.length line).zipIdx.foldl (fun w m => w.store m.2 m.1) w

/-- The line in the window; words that are no code points are skipped. -/
def decode (w : Window) : Option String :=
  if w.words.isEmpty || w.load 0 = endOfInput then none
  else some (.ofList ((w.words.takeWhile (· ≠ 0)).filterMap char?))

end Window

end GuestShell
