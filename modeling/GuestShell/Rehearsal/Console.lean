import GuestShell.Catalog.FixedSource
import GuestShell.Rehearsal.Behavior
import GuestShell.Terminal.Console

/-!
# Rehearsing a console

A console whose terminal is scripted.  The script says what happens whenever the console reads a
line: somebody types one, interrupts the run, or disposes of the console.  What the console writes
and asks is kept in a transcript.
-/

namespace GuestShell.Rehearsal

/-- What happens when the console reads a line. -/
inductive Cue where
  | line (text : String)
  | ended
  /-- The run in flight is interrupted; without one, input ends. -/
  | interrupt
  /-- The console is disposed of; without a run in flight, a line is typed after that. -/
  | dispose (text : String)

/-- What can be seen of a console. -/
inductive ConsoleIncident where
  | wrote (text : String)
  | read (prompt : String) (inFlight : Bool)
  | prompted (caption : String)
  | interrupted (hit : Bool)
  | hook (h : Hook)

/-- A console and its scripted surroundings. -/
structure ConsoleStage where
  console : Console Behavior
  source : FixedSource
  cues : List Cue
  /-- What is entered at prompts. -/
  replies : List (Option String)
  /-- The run in flight is interrupted when exactly this text is written. -/
  interruptOn : Option String
  clock : Moment
  /-- What was seen, the last incident first. -/
  transcript : List ConsoleIncident

namespace ConsoleStage

/-- Something that happens on the stage. -/
abbrev Play (α : Type) := StateM ConsoleStage α

/-- Adds to the transcript. -/
def see (i : ConsoleIncident) : Play Unit :=
  modify fun s => { s with transcript := i :: s.transcript }

/-- Asks the source. -/
def fetch (r : SourceRequest) : Play (Except FetchError Bytes) := do
  let (answer, source) := (← get).source.fetch r
  modify fun s => { s with source := source }
  return answer

/-- Looks at the console, changing it. -/
def withConsole {α : Type} (f : Console Behavior → α × Console Behavior) : Play α :=
  modifyGet fun s => let (a, c) := f s.console; (a, { s with console := c })

/-- Interrupts the run in flight. -/
def interrupt : Play Bool := withConsole (·.interrupt)

/-- Interrupts the run in flight as the script says. -/
def cuedInterrupt : Play Bool := do
  let hit ← interrupt
  see (.interrupted hit)
  return hit

/-- Whether a run is in flight that can be interrupted. -/
def inFlight : Play Bool := return (← get).console.shell.context.interrupts.isActive

/-- Lets the console of the stage do something. -/
def act {α : Type} (serve : (r : Console.Request Behavior Behavior) → Play (Console.Answer r))
    (t : Operating Behavior Behavior α) : Play α :=
  t.interpret (return (← get).console) (fun c => modify fun s => { s with console := c }) serve

/-- Answers a command that looks at the console. -/
def invoke (b : Behavior) (args : List String) (input : Option String) :
    Play (Except CommandError (CommandOutput Behavior)) := do
  match b with
  | .interrupt => return .ok (.text ("fired " ++ Behavior.word (← interrupt)))
  | .tellRunning => return .ok (.text (Behavior.word (← get).console.isRunning))
  | .unregister name => return .ok (.text (Behavior.word (← withConsole (·.unregister name))))
  | b => return b.answer args input

/-- Answers what the console asks; lines inside lines are run to the given depth. -/
def serve : Nat → (r : Console.Request Behavior Behavior) → Play (Console.Answer r)
  | _, .write text => do
    see (.wrote text)
    if (← get).interruptOn = some text then
      let _ ← cuedInterrupt
  | depth, .read prompt => do
    let running ← inFlight
    see (.read prompt running)
    let s ← get
    set { s with cues := s.cues.tail }
    match s.cues.headD .ended, depth with
    | .line text, _ => return .line text
    | .ended, _ => return .ended
    | .interrupt, _ => return if ← cuedInterrupt then .abandoned else .ended
    | .dispose text, depth + 1 =>
      act (serve depth) Console.dispose
      return if running then .abandoned else .line text
    | .dispose _, 0 => return .abandoned
  | _, .prompt caption => do
    see (.prompted caption)
    let s ← get
    set { s with replies := s.replies.tail }
    return s.replies.head?.join
  | _, .hasTurn waiting ahead => return hasTurn waiting ahead
  | _, .get url => fetch (.get url)
  | _, .post url body => fetch (.post url body)
  | _, .clock => return (← get).clock
  | _, .note _ => return ()
  | _, .invoke b args input => invoke b args input
  | depth + 1, .await (.nest line) => do
    act (serve depth) (Console.runLine line)
    return (Behavior.nest line).later
  | _, .await b => return b.later
  | _, .chunks b => return b.pieces
  | _, .hook h => see (.hook h)

/-- Lets the console do something. -/
def perform {α : Type} (t : Operating Behavior Behavior α) : Play α := act (serve maxNesting) t

/-- Reads and runs all lines of the script. -/
def repl : Play Unit := do perform (Console.repl ((← get).cues.length + 1))

end ConsoleStage

end GuestShell.Rehearsal
