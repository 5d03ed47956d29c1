import GuestShell.Text.Blank

/-!
# The history of lines

The most recent lines, oldest first, and a cursor for going back and forth among them.  The position
after the newest line stands for the line being typed.  Blank lines and repetitions of the newest
line are not kept.
-/

namespace GuestShell

/-- The last lines, at most `size` of them, and a cursor. -/
structure History where
  size : Nat
  entries : List String
  cursor : Nat

namespace History

/-- How many lines a history keeps unless told otherwise. -/
def defaultSize : Nat := 1000

/-- The history without lines. -/
def empty (size : Nat) : History := ⟨size, [], 0⟩

/-- Whether a line would be kept. -/
def accepts (h : History) (line : String) : Bool :=
  !Text.isBlankText line && h.entries.getLast? != some line

/-- Adds a line, dropping the oldest ones past the size, and moves the cursor to the end. -/
def push (h : History) (line : String) : History :=
  if h.accepts line then
    let entries := h.entries ++ [line]
    let entries := entries.drop (entries.length - h.size)
    { h with entries := entries, cursor := entries.length }
  else h

/-- Moves the cursor to the end. -/
def rewind (h : History) : History := { h with cursor := h.entries.length }

/-- The line at the cursor. -/
def current? (h : History) : Option String := h.entries[h.cursor]?

/-- Moves the cursor one line back, staying at the oldest. -/
def back (h : History) : History := { h with cursor := h.cursor - 1 }

/-- Moves the cursor one line forth, staying at the end. -/
def forth (h : History) : History := { h with cursor := min (h.cursor + 1) h.entries.length }

end History

end GuestShell
