import GuestShell.Config
import GuestShell.Session.Error
import GuestShell.Session.Interrupts
import GuestShell.Session.Mailbox
import GuestShell.Session.Worker

/-!
# Execution contexts

Programs run in one of two places: in the foreground, where input comes from a blocking prompt and
nothing else can happen meanwhile, or on a worker, where input comes from the line editor and a run
can be interrupted.

A context keeps what outlives a run: the epoch of the engine, the mailbox of the worker, and the
tokens of interrupts.
-/

namespace GuestShell

/-- What the place where the terminal lives can do. -/
structure Platform where
  name : String
  /-- Whether there can be workers. -/
  supportsWorkers : Bool

/-- The platform of a process of its own. -/
def Platform.native : Platform := ⟨"native", true⟩

/-- Where programs run. -/
inductive Backend where
  | prompts
  | worker
  deriving DecidableEq

/-- The name under which the welcome text shows a backend. -/
def Backend.name : Backend → String
  | prompts => "Prompts Fallback"
  | worker => "Worker"

/-- The backend that a configuration asks for on a platform. -/
def Backend.ofConfig (c : Config) (p : Platform) : Except SessionError Backend :=
  match c.execution with
  | .foreground => .ok .prompts
  | .auto => .ok (if p.supportsWorkers then .worker else .prompts)
  | .background =>
    if p.supportsWorkers then .ok .worker
    else .error (.worker ("background execution is not available on " ++ p.name))

/-- What outlives a run. -/
structure Context where
  backend : Backend
  /-- How often the engine was interrupted. -/
  epoch : Nat
  /-- The mailbox of the worker; a new worker has a new one. -/
  worker : Mailbox
  interrupts : Interrupts

namespace Context

/-- The context of a backend that has run nothing. -/
def fresh (b : Backend) : Context := ⟨b, 0, .fresh, .start⟩

/-- The context that a configuration asks for on a platform. -/
def ofConfig (c : Config) (p : Platform) : Except SessionError Context :=
  (Backend.ofConfig c p).map fresh

/-- Interrupts the run in flight; says whether there was one. -/
def interrupt (c : Context) : Bool × Context :=
  let (hit, i) := c.interrupts.fire
  (hit, { c with interrupts := i })

/-- Puts a new worker in the place of the present one, which stops as soon as it looks at the epoch
or asks for input. -/
def restart (c : Context) : Context := { c with epoch := c.epoch + 1, worker := .fresh }

/-- Cancels the worker without replacing it, and interrupts its run.  In the foreground nothing runs
that could be stopped. -/
def terminate (c : Context) : Context :=
  match c.backend with
  | .prompts => c
  | .worker =>
    let (_, c) := c.interrupt
    { c with worker := c.worker.terminate }

end Context

/-! ## Requests -/

namespace Session

/-- What comes of asking the line editor. -/
inductive Reading where
  | line (text : String)
  | ended
  /-- The run was interrupted before there was a line. -/
  | abandoned
  deriving DecidableEq

/-- What a session asks its surroundings. -/
inductive Request where
  | stdout (chunk : Bytes)
  | stderr (chunk : Bytes)
  /-- Asks the line editor. -/
  | readLine (caption : String)
  /-- Asks with a blocking prompt; none if it was dismissed. -/
  | prompt (caption : String)
  /-- Whether the side of the terminal has its turn before the worker goes on.  So many events wait
  for it, and so often the worker has gone on since its last turn. -/
  | hasTurn (waiting ahead : Nat)
  | clock
  | note (o : Observation)

/-- The answers to the requests. -/
abbrev Answer : Request → Type
  | .stdout _ => Unit
  | .stderr _ => Unit
  | .readLine _ => Reading
  | .prompt _ => Option String
  | .hasTurn .. => Bool
  | .clock => Moment
  | .note _ => Unit

end Session

/-- A session at work in a context. -/
abbrev Sitting (α : Type) := SharedTask Context Session.Request Session.Answer α

/-- Asks a request. -/
def Session.ask (r : Session.Request) : Sitting (Session.Answer r) := SharedTask.request r

end GuestShell
