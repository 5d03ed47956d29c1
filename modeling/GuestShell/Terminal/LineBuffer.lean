import GuestShell.Text.Utf8

/-!
# Whole lines from chunks

Output comes in chunks that may end anywhere, even inside a character.  The buffer keeps the bytes
after the last line feed and gives out every line as soon as it is complete, its line feed included.
Lines are cut as bytes and decoded afterwards, so a character split over two chunks stays whole.
-/

namespace GuestShell

/-- The byte that ends a line. -/
def lineFeed : UInt8 := 0x0a

/-- Cuts bytes after each line feed: the complete lines and what follows the last of them. -/
def cutLines : Bytes → List Bytes × Bytes
  | [] => ([], [])
  | b :: bs =>
    match cutLines bs with
    | ([], rest) => if b = lineFeed then ([[b]], rest) else ([], b :: rest)
    | (line :: lines, rest) =>
      if b = lineFeed then ([b] :: line :: lines, rest) else ((b :: line) :: lines, rest)

/-- Bytes that wait for the end of their line. -/
structure LineBuffer where
  pending : Bytes
  deriving DecidableEq

namespace LineBuffer

/-- The buffer in which nothing waits. -/
def empty : LineBuffer := ⟨[]⟩

/-- Adds a chunk; gives the texts of the lines it completes. -/
def write (b : LineBuffer) (chunk : Bytes) : List String × LineBuffer :=
  let (lines, rest) := cutLines (b.pending ++ chunk)
  (lines.map Text.decodeLossy, ⟨rest⟩)

/-- Gives the text of an incomplete line, if one waits. -/
def flush (b : LineBuffer) : List String × LineBuffer :=
  if b.pending = [] then ([], b) else ([Text.decodeLossy b.pending], empty)

end LineBuffer

end GuestShell
