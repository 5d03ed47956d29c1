import GuestShell.Session.Mailbox
import GuestShell.Session.Worker

/-!
# Rehearsing a worker

A worker whose questions are answered from a script: a line is delivered, or the worker is cancelled.
-/

namespace GuestShell.Rehearsal

/-- How a question is answered. -/
inductive WorkerCue where
  | deliver (line : Option String)
  | cancel

/-- The other side of a worker. -/
structure WorkerStage where
  mailbox : Mailbox
  /-- What the worker's output ends with. -/
  caption : Caption
  cues : List WorkerCue
  clock : Moment
  /-- What was sent, the last event first. -/
  transcript : List Worker.Event

namespace WorkerStage

/-- Adds to the transcript. -/
def see (e : Worker.Event) : StateM WorkerStage Unit :=
  modify fun s => { s with transcript := e :: s.transcript }

/-- Answers a question. -/
def respond (caption : String) : StateM WorkerStage Unit := do
  see (.readLine caption)
  modify fun s =>
    let mailbox := match s.cues.headD (.deliver none) with
      | .deliver line => s.mailbox.deliver line
      | .cancel => { s.mailbox with cancelled := true }
    { s with mailbox := mailbox, cues := s.cues.tail }

/-- Answers what a worker asks. -/
def serve : (r : Worker.Request) → StateM WorkerStage (Worker.Answer r)
  | .send e => see e
  | .exchange caption =>
    Mailbox.request (return (← get).mailbox) (fun m => modify fun s => { s with mailbox := m })
      (respond caption)
  | .isCancelled => return (← get).mailbox.cancelled
  | .clock => return (← get).clock
  | .epoch => return 0
  | .note _ => return ()

/-- Lets the worker answer its program. -/
def perform (headless : Bool) (r : Run.Request) : StateM WorkerStage (Run.Answer r) := do
  let (a, caption) ← ((Worker.serve headless r).run (← get).caption).interpret serve
  modify fun s => { s with caption := caption }
  return a

end WorkerStage

end GuestShell.Rehearsal
