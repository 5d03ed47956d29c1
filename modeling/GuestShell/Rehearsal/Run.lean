import GuestShell.Run.Capture

/-!
# Rehearsing a run

A run whose surroundings are scripted: lines for the program that asks, an interrupt after some of
them, a clock that stands still.
-/

namespace GuestShell.Rehearsal

/-- What can be seen of a run. -/
inductive RunIncident where
  | stdout (chunk : Bytes)
  | stderr (chunk : Bytes)
  | asked (line : Option String)
  | noted (o : Observation)

/-- The scripted surroundings of a run. -/
structure RunStage where
  lines : List (Option String)
  /-- How often the program has asked for a line. -/
  asked : Nat
  /-- How often it may ask before it is interrupted. -/
  interruptAt : Option Nat
  clock : Moment
  /-- What was seen, the last incident first. -/
  transcript : List RunIncident

namespace RunStage

/-- Adds to the transcript. -/
def see (i : RunIncident) : StateM RunStage Unit :=
  modify fun s => { s with transcript := i :: s.transcript }

/-- Answers what a run asks. -/
def serve : (r : Run.Request) → StateM RunStage (Run.Answer r)
  | .stdout chunk => see (.stdout chunk)
  | .stderr chunk => see (.stderr chunk)
  | .readLine => do
    let s ← get
    let line := s.lines.head?.join
    set { s with lines := s.lines.tail, asked := s.asked + 1 }
    see (.asked line)
    return line
  | .isInterrupted => do
    let s ← get
    return s.interruptAt.any (· ≤ s.asked)
  | .clock => return (← get).clock
  | .epoch => return 0
  | .note o => see (.noted o)

/-- Runs. -/
def perform {α : Type} (r : Running α) (s : RunStage) : α × RunStage :=
  Id.run ((r.interpret serve).run s)

end RunStage

end GuestShell.Rehearsal
