import GuestShell.Shell.Callable
import GuestShell.Text.Blank

/-!
# What commands do in a rehearsal

A rehearsal runs lines against a script instead of the world.  The callable commands of a rehearsal
are simple: each does one of the things listed here.
-/

namespace GuestShell.Rehearsal

/-- What a callable command does. -/
inductive Behavior where
  /-- Says a text. -/
  | say (text : String)
  /-- Says its arguments. -/
  | echo
  /-- Says its input, or something else if it has none. -/
  | relay (missing : String)
  /-- Shows its arguments and its input. -/
  | display
  /-- Says its input backwards. -/
  | reverse
  | fail (message : String)
  /-- Fails with its arguments. -/
  | failEcho
  | sayLater (text : String)
  | failLater (message : String)
  /-- Says texts one after another. -/
  | sayPieces (pieces : List (Except CommandError String))
  /-- Runs another line while its own line is run. -/
  | nest (line : String)
  /-- Runs its arguments as a line. -/
  | nestEcho
  /-- Interrupts the run in flight. -/
  | interrupt
  /-- Says whether a program is run. -/
  | tellRunning
  /-- Says what the shell is busy with. -/
  | tellState
  /-- Takes a command away. -/
  | unregister (name : String)

namespace Behavior

/-- A truth value as a word. -/
def word (b : Bool) : String := if b then "true" else "false"

/-- What a command answers that needs nothing but its arguments and input. -/
def answer (b : Behavior) (args : List String) (input : Option String) :
    Except CommandError (CommandOutput Behavior) :=
  let joined := Text.joined " " args
  match b with
  | say text => .ok (.text text)
  | echo => .ok (.text joined)
  | relay missing => .ok (.text (input.getD missing))
  | display => .ok (.text ("[" ++ Text.joined "," args ++ "]" ++ input.getD "<none>"))
  | reverse => .ok (.text (String.ofList (input.getD "").toList.reverse))
  | fail message => .error ⟨message⟩
  | failEcho => .error ⟨joined⟩
  | sayPieces pieces => .ok (.stream (sayPieces pieces))
  | nestEcho => .ok (.future (nest joined))
  | b => .ok (.future b)

/-- The text that comes later, of a command that needs nothing else. -/
def later : Behavior → Except CommandError String
  | sayLater text => .ok text
  | failLater message => .error ⟨message⟩
  | nest _ => .ok "nested done"
  | _ => .ok ""

/-- The texts that come one after another. -/
def pieces : Behavior → List (Except CommandError String)
  | sayPieces pieces => pieces
  | _ => []

end Behavior

/-- How deep lines may be run inside lines. -/
def maxNesting : Nat := 3

/-- How often a worker goes on before the side of the terminal has its turn. -/
def maxAhead : Nat := 1000

/-- The side of the terminal is at rest as long as nothing waits for it, and so is at hand when
something is to be heeded; with the first event it falls behind, as showing is slow and working is
not. -/
def hasTurn (waiting ahead : Nat) : Bool := waiting = 0 || maxAhead ≤ ahead

end GuestShell.Rehearsal
