import GuestShell.Dict
import GuestShell.Text.Blank
import GuestShell.Text.Utf8

/-!
# Registered commands

Commands that the shell answers itself, under their names.  What a command does is a value of a type
`κ` that the registry does not look into; it keeps the hints that are offered when an argument of
the command is completed.

Completion looks at the last word of a line, the characters after the last blank or pipe.  If its
stage has no word before it, command names are offered, otherwise the hints of the stage's command.
-/

namespace GuestShell

/-- A registered command. -/
structure Command (κ : Type) where
  name : String
  behavior : κ
  hints : List String

/-- Commands under their names. -/
abbrev Registry (κ : Type) := Dict String (Command κ)

/-- What a line can be completed with: the candidates for its last word, which begins `start` bytes
into the line. -/
structure Completion where
  start : Nat
  candidates : List String
  deriving DecidableEq

namespace Registry

variable {κ : Type}

/-- Registers a command, replacing one of the same name. -/
def register (r : Registry κ) (name : String) (behavior : κ) (hints : List String) : Registry κ :=
  r.insert name ⟨name, behavior, hints⟩

/-- The names of all commands, in ascending order. -/
def names (r : Registry κ) : List String := r.keys

/-- Whether a character ends a word for completion. -/
def endsWord (c : Char) : Bool := Text.isBlank c || c == '|'

/-- The names or hints offered after the given beginning of a stage. -/
def offered (r : Registry κ) (stage : List Char) : List String :=
  match Text.words stage with
  | [] => r.names
  | program :: _ =>
    match r.find? (String.ofList program) with
    | some c => c.hints
    | none => []

/-- What the last word of a line can be completed with. -/
def complete (r : Registry κ) (line : String) : Completion :=
  let cs := line.toList
  let word := Text.lastPiece endsWord cs
  let before := cs.take (cs.length - word.length)
  let stage := Text.lastPiece (· == '|') before
  ⟨Text.byteLength (String.ofList before),
    (r.offered stage).filter fun c => Text.startsWith c (String.ofList word)⟩

end Registry

end GuestShell
