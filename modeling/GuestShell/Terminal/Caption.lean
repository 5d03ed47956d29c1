import GuestShell.Text.Blank
import GuestShell.Text.Utf8

/-!
# Captions

When a program asks for input, the text it printed last, after its last line feed, is the caption of
the request: the reader shows it again as its prompt.
-/

namespace GuestShell

/-- The output after the last line feed. -/
structure Caption where
  text : String
  deriving DecidableEq

namespace Caption

/-- Nothing printed yet. -/
def empty : Caption := ⟨""⟩

/-- Takes a chunk of output into account. -/
def feed (c : Caption) (chunk : Bytes) : Caption :=
  let cs := (Text.decodeLossy chunk).toList
  if cs.contains '\n' then ⟨String.ofList (Text.lastPiece (· == '\n') cs)⟩
  else ⟨c.text ++ String.ofList cs⟩

/-- Takes a line of input into account; entering it ends the line on the screen. -/
def feedInput (c : Caption) (line : String) : Caption :=
  let c := c.feed (Text.encode line)
  if Text.endsWith line "\n" then c else empty

end Caption

end GuestShell
