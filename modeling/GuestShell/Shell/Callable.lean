/-!
# Callable commands

A command that the shell answers itself gives its output at once, or later as a whole, or later
piece by piece.  What is still to come is a value of a type `ρ` that the shell hands back to those
who have it.
-/

namespace GuestShell

/-- Why a callable command failed, in its own words. -/
structure CommandError where
  message : String
  deriving DecidableEq

/-- What a callable command answers with. -/
inductive CommandOutput (ρ : Type) where
  | text (s : String)
  /-- A text that comes later. -/
  | future (later : ρ)
  /-- Texts that come one after another. -/
  | stream (later : ρ)

namespace CommandOutput

/-- The chunks of a stream put together; the first error takes the place of all. -/
def join : List (Except CommandError String) → Except CommandError String
  | [] => .ok ""
  | .error e :: _ => .error e
  | .ok s :: rest => (join rest).map (s ++ ·)

end CommandOutput

end GuestShell
