import GuestShell.Run.Basic
import GuestShell.Text.Blank

/-!
# Standard input

A program reads its input in chunks of any size.  The bytes come from an input that is known
beforehand, or line by line from whoever types them; every line ends with a line feed, typed or not.

What follows a line depends on the policy.  With `stream` the next read asks for the next line; with
`alternate` one read finds the end of input first, once after every line.  An input known beforehand
is served once, and then there is nothing more.
-/

namespace GuestShell

/-- What a read finds after the last byte of a line. -/
inductive StdinPolicy where
  /-- The next line. -/
  | stream
  /-- The end of input, and then the next line. -/
  | alternate
  deriving DecidableEq, Repr

/-- Where input comes from, and what of it is still to be read. -/
structure Stdin where
  policy : StdinPolicy
  /-- Whether the input was known beforehand. -/
  preset : Bool
  /-- What is left of the current line. -/
  pending : Bytes
  /-- Whether the next read finds the end of input. -/
  endNext : Bool
  deriving DecidableEq

namespace Stdin

/-- The bytes of a line, its line feed included. -/
def terminated (line : String) : Bytes :=
  Text.encode (if Text.endsWith line "\n" then line else line ++ "\n")

/-- Nothing read yet. -/
def start (policy : StdinPolicy) (preset : Option String) : Stdin where
  policy := policy
  preset := preset.isSome
  pending := (preset.map terminated).getD []
  endNext := false

/-- Takes at most `max` bytes of the current line. -/
def take (s : Stdin) (max : Nat) : Bytes × Stdin :=
  let rest := s.pending.drop max
  (s.pending.take max,
    { s with
      pending := rest
      endNext := rest.isEmpty && s.policy == .alternate && !s.preset })

/-- Reads at most `max` bytes; nothing means the end of input. -/
def read (s : Stdin) (max : Nat) : Running (Except HostStop Bytes × Stdin) :=
  if max = 0 then return (.ok [], s)
  else if s.endNext then return (.ok [], { s with endNext := false })
  else if !s.pending.isEmpty then
    let (chunk, s) := s.take max
    return (.ok chunk, s)
  else if s.preset then return (.ok [], s)
  else .ask .readLine fun (line : Option String) => .ask .isInterrupted fun (stopped : Bool) =>
    if stopped then return (.error .interrupted, s)
    else
      match line with
      | none => return (.ok [], s)
      | some line =>
        let (chunk, s) := { s with pending := terminated line }.take max
        return (.ok chunk, s)

end Stdin

end GuestShell
