import GuestShell.Run.Basic
import GuestShell.Terminal.Caption

/-!
# Workers

A worker takes a run through its life away from the terminal and reports what happens as a sequence
of events: any number of outputs and questions, a failure if the run fails, and at last the files.

A question for a line goes through a mailbox, and the worker waits for the answer.  A worker that
nobody watches, or that is cancelled, does not ask: its programs find the end of input.
-/

namespace GuestShell

namespace Worker

/-- What a worker reports. -/
inductive Event where
  | stdout (chunk : Bytes)
  | stderr (chunk : Bytes)
  /-- The program waits for a line; the caption is the output line it asks with. -/
  | readLine (caption : String)
  | failed (e : RunError)
  | finished (files : List SavedFile)

/-- What a worker asks its surroundings. -/
inductive Request where
  | send (e : Event)
  /-- Reports a question and waits for its answer at the mailbox. -/
  | exchange (caption : String)
  | isCancelled
  | clock
  | epoch
  | note (o : Observation)

/-- The answers to the requests. -/
abbrev Answer : Request → Type
  | .send _ => Unit
  | .exchange _ => Option String
  | .isCancelled => Bool
  | .clock => Moment
  | .epoch => Nat
  | .note _ => Unit

end Worker

/-- A worker at its work. -/
abbrev Working (α : Type) := Task Worker.Request Worker.Answer α

namespace Worker

/-- Asks a request. -/
def ask (r : Request) : Working (Answer r) := Task.request r

/-- Answers what a run asks, keeping track of the caption. -/
def serve (headless : Bool) : (r : Run.Request) → StateT Caption Working (Run.Answer r)
  | .stdout chunk => do
    modify (·.feed chunk)
    ask (.send (.stdout chunk))
  | .stderr chunk => ask (.send (.stderr chunk))
  | .readLine => do
    if headless then return none
    if ← ask .isCancelled then return none
    let line ← ask (.exchange (← get).text)
    match line with
    | some text => modify (·.feedInput text)
    | none => pure ()
    return line
  | .isInterrupted => ask .isCancelled
  | .clock => ask .clock
  | .epoch => ask .epoch
  | .note o => ask (.note o)

/-- Reports the end of a run. -/
def conclude (r : Report) : Working Unit := do
  match r.error with
  | some e => ask (.send (.failed e))
  | none => pure ()
  ask (.send (.finished r.files))

/-- Takes a run through its life. -/
def work (headless : Bool) (r : Running Report) : Working Unit := do
  let (report, _) ← (r.interpret (serve headless)).run .empty
  conclude report

end Worker

end GuestShell
