import GuestShell.Run.Capture
import GuestShell.Session.Context

/-!
# Runs on a worker

The worker works by itself, and the side of the terminal attends to what it reports: it shows output,
answers questions through the mailbox, and keeps the failure and the files.  What the worker has sent
waits in an inbox until this side has its turn.  Who goes on when both could is not settled here: this
side asks its surroundings before the worker sends something or looks at the epoch (`meanwhile`).  Only
a worker that waits for an answer goes on no further.

In its turn this side attends to the events that are there, in their order; only when none is left it
heeds an interrupt.  An interrupt ends the session.  The worker is left to itself, a new one takes its
place, and what the run has done to its files is lost.
-/

namespace GuestShell.Background

/-- What has come of a run up to now. -/
structure Harvest where
  capture : Capture
  error : Option RunError
  files : List SavedFile

/-- Nothing has come yet. -/
def Harvest.empty : Harvest := ⟨.empty, none, []⟩

/-- What the side of the terminal has before it. -/
structure Desk where
  harvest : Harvest
  /-- Events that nobody has attended to yet, the first one first. -/
  inbox : List Worker.Event
  /-- How often the worker has gone on since the last turn of this side. -/
  ahead : Nat

/-- Nothing has been sent yet. -/
def Desk.empty : Desk := ⟨.empty, [], 0⟩

/-- Why the attending is over. -/
inductive Ending where
  /-- The last event of the run was attended to. -/
  | finished
  | failed (e : SessionError)

/-- Attending to a worker. -/
abbrev Attending (α : Type) := ExceptT Ending (StateT Desk Sitting) α

/-- Asks a request. -/
def ask (r : Session.Request) : Attending (Session.Answer r) :=
  ExceptT.lift (StateT.lift (Session.ask r))

/-- The context. -/
def context : Attending Context := getThe Context

/-- Changes the context. -/
def modifyContext (f : Context → Context) : Attending Unit := modifyThe Context f

/-- The mailbox of the worker. -/
def mailbox : Attending Mailbox := return (← context).worker

/-- Changes the mailbox of the worker. -/
def putMailbox (m : Mailbox) : Attending Unit := modifyContext fun c => { c with worker := m }

/-- Changes what has come of the run. -/
def modifyHarvest (f : Harvest → Harvest) : Attending Unit :=
  modifyThe Desk fun d => { d with harvest := f d.harvest }

/-! ## Events -/

/-- The answer to a question.  The line editor gives a line without its line feed; where nobody
watches, the answer is the end of input. -/
def answer (watched : Bool) (caption : String) : Attending (Option String) := do
  if watched then
    match ← ask (.readLine caption) with
    | .line text => return some (text ++ "\n")
    | .ended => return none
    | .abandoned => throw (.failed .interrupted)
  else return none

/-- Attends to one event.  The last one ends the attending. -/
def attend (watched : Bool) : Worker.Event → Attending Unit
  | .stdout chunk => do
    if watched then ask (.stdout chunk)
    modifyHarvest fun h => { h with capture := h.capture.addStdout chunk }
  | .stderr chunk => do
    if watched then ask (.stderr chunk)
    modifyHarvest fun h => { h with capture := h.capture.addStderr chunk }
  | .readLine caption => do
    let line ← answer watched caption
    putMailbox ((← mailbox).deliver line)
  | .failed e => modifyHarvest fun h => { h with error := some e }
  | .finished files => do
    modifyHarvest fun h => { h with files := files }
    throw .finished

/-- Attends to all events that are there. -/
def attendAll (watched : Bool) : Attending Unit := do
  let events := (← getThe Desk).inbox
  modifyThe Desk fun d => { d with inbox := [], ahead := 0 }
  events.forM (attend watched)

/-- Ends the session if its token was hit. -/
def heed (token : Nat) : Attending Unit := do
  if (← context).interrupts.isHit token then throw (.failed .interrupted)

/-- The turn of this side: what is there comes first, and then an interrupt. -/
def turn (watched : Bool) (token : Nat) : Attending Unit := do
  attendAll watched
  heed token

/-! ## Sessions -/

/-- Before the worker goes on, this side may have its turn. -/
def meanwhile (watched : Bool) (token : Nat) : Attending Unit := do
  let d ← getThe Desk
  if ← ask (.hasTurn d.inbox.length d.ahead) then turn watched token
  else modifyThe Desk fun d => { d with ahead := d.ahead + 1 }

/-- The worker sends an event. -/
def post (watched : Bool) (token : Nat) (e : Worker.Event) : Attending Unit := do
  meanwhile watched token
  modifyThe Desk fun d => { d with inbox := d.inbox ++ [e] }

/-- Answers what a worker asks.  While it waits for a line, this side attends to all it has sent. -/
def serve (watched : Bool) (token : Nat) : (r : Worker.Request) → Attending (Worker.Answer r)
  | .send e => post watched token e
  | .exchange caption =>
    Mailbox.request mailbox putMailbox do
      post watched token (.readLine caption)
      attendAll watched
  | .isCancelled => return (← mailbox).cancelled
  | .clock => ask .clock
  | .epoch => do
    meanwhile watched token
    return (← context).epoch
  | .note o => ask (.note o)

/-- Attends to a worker's work up to its last event. -/
def attendTo (watched : Bool) (token : Nat) (work : Working Unit) : Attending Unit := do
  work.interpret (serve watched token)
  attendAll watched

/-- What a session comes to.  A worker that ends without a last event has broken down. -/
def outcome (h : Harvest) : Except Ending Unit → Except SessionError Harvest
  | .error .finished => .ok h
  | .error (.failed e) => .error e
  | .ok () => .error (.worker "worker stopped unexpectedly")

/-- Opens a session for a worker's work: a token for its time, and a new worker after a session that
did not come to its end. -/
def session (watched : Bool) (work : Working Unit) : Sitting (Except SessionError Harvest) := do
  let token := (← get).interrupts.hit.length
  modify fun c => { c with interrupts := c.interrupts.install }
  let (ending, desk) ← ((attendTo watched token work).run).run .empty
  modify fun c => { c with interrupts := c.interrupts.clear }
  let result := outcome desk.harvest ending
  if let .error _ := result then modify (·.restart)
  return result

/-- Runs attached to the terminal. -/
def run (r : Running Report) : Sitting (Except SessionError Report) := do
  return (← session true (Worker.work false r)).map fun h => ⟨h.files, h.error⟩

/-- Runs without a terminal. -/
def runCaptured (r : Running Report) : Sitting (Except SessionError CapturedRun) := do
  return (← session false (Worker.work true r)).map fun h => ⟨h.capture, ⟨h.files, h.error⟩⟩

end GuestShell.Background
