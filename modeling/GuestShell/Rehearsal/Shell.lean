import GuestShell.Catalog.FixedSource
import GuestShell.Rehearsal.Behavior
import GuestShell.Shell.Dispatch

/-!
# Rehearsing a shell

A shell without a terminal, its surroundings scripted: lines for the programs that ask, a source with
fixed answers, a clock that stands still.  What the shell shows and asks is kept in a transcript.
-/

namespace GuestShell.Rehearsal

/-- What can be seen of a shell. -/
inductive ShellIncident where
  | stdout (chunk : Bytes)
  | stderr (chunk : Bytes)
  | read (caption : String)
  | filesChanged (files : List SavedFile)

/-- A shell and its scripted surroundings. -/
structure ShellStage where
  shell : Shell Behavior
  source : FixedSource
  /-- What programs get that ask for a line. -/
  lines : List (Option String)
  clock : Moment
  /-- What was seen, the last incident first. -/
  transcript : List ShellIncident

namespace ShellStage

/-- Something that happens on the stage. -/
abbrev Play (α : Type) := StateM ShellStage α

/-- Adds to the transcript. -/
def see (i : ShellIncident) : Play Unit := modify fun s => { s with transcript := i :: s.transcript }

/-- Asks the source. -/
def fetch (r : SourceRequest) : Play (Except FetchError Bytes) := do
  let (answer, source) := (← get).source.fetch r
  modify fun s => { s with source := source }
  return answer

/-- What the shell is busy with. -/
def state (s : Shell Behavior) : String :=
  Text.joined " " (([s.line.taken, s.session.taken, s.context.interrupts.isActive]).map Behavior.word)

/-- Lets the shell of the stage do something. -/
def act {α : Type} (serve : (r : Shell.Request Behavior Behavior) → Play (Shell.Answer r))
    (t : Dispatching Behavior Behavior α) : Play α :=
  t.interpret (return (← get).shell) (fun s => modify fun stage => { stage with shell := s }) serve

/-- Answers what the shell asks; lines inside lines are run to the given depth. -/
def serve : Nat → (r : Shell.Request Behavior Behavior) → Play (Shell.Answer r)
  | _, .stdout chunk => see (.stdout chunk)
  | _, .stderr chunk => see (.stderr chunk)
  | _, .status text => see (.stdout (Text.encode text))
  | _, .readLine caption => do
    see (.read caption)
    let s ← get
    set { s with lines := s.lines.tail }
    return match s.lines.head?.join with
      | some line => .line line
      | none => .ended
  | _, .prompt _ => return none
  | _, .hasTurn waiting ahead => return hasTurn waiting ahead
  | _, .get url => fetch (.get url)
  | _, .post url body => fetch (.post url body)
  | _, .clock => return (← get).clock
  | _, .note _ => return ()
  | _, .invoke .tellState _ _ => return .ok (.text (state (← get).shell))
  | _, .invoke b args input => return b.answer args input
  | depth + 1, .await (.nest line) => do
    act (serve depth) (Shell.runLine line)
    return (Behavior.nest line).later
  | _, .await b => return b.later
  | _, .chunks b => return b.pieces
  | _, .filesChanged files => see (.filesChanged files)

/-- Lets the shell do something. -/
def perform {α : Type} (t : Dispatching Behavior Behavior α) : Play α := act (serve maxNesting) t

end ShellStage

end GuestShell.Rehearsal
