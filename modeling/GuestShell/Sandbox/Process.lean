import GuestShell.Sandbox.Stdin

/-!
# Processes

A guest in its sandbox is a process: it has a memory, a file tree, descriptors, an input, arguments
and an environment.  A *system function* is what the host does for it when it calls: an action on the
process that may ask the surroundings, and that may fail.  It fails in two ways.  With an error code,
the guest goes on and learns the code; with a stop, the guest does not go on at all.

A failure does not undo what was done before it, so that a function leaves no trace when it fails is
a fact about the order of its steps.
-/

namespace GuestShell

/-- A guest in its sandbox; `δ` is what its descriptors stand for. -/
structure Process (δ : Type) where
  memory : Memory
  tree : FileTree
  descriptors : Slots δ
  stdin : Stdin
  argv : List String
  /-- The names and values of the environment. -/
  environment : List (String × String)
  /-- The state of the source of random bytes. -/
  random : UInt64

/-- The environment that every guest finds. -/
def defaultEnvironment : List (String × String) :=
  [("HOME", "/"), ("PWD", "/"), ("TERM", "xterm-256color")]

/-- Error codes, and which of them stands for which failure. -/
class ErrorCode (ε : Type) where
  /-- A failure of the file tree. -/
  ofKind : FailureKind → ε
  /-- An access outside the memory. -/
  badAddress : ε

/-- How a system function fails. -/
inductive Failure (ε : Type) where
  | code (e : ε)
  | stop (s : HostStop)

/-- What the host does for a guest. -/
abbrev System (ε δ α : Type) := ExceptT (Failure ε) (StateT (Process δ) (Task Run.Request Run.Answer)) α

namespace System

variable {ε δ α : Type}

/-- Fails with an error code. -/
def fail (e : ε) : System ε δ α := throw (.code e)

/-- Stops the guest. -/
def stop (s : HostStop) : System ε δ α := throw (.stop s)

/-- The process as it is. -/
def process : System ε δ (Process δ) := fun p => return (.ok p, p)

/-- Changes the process. -/
def update (f : Process δ → Process δ) : System ε δ Unit := fun p => return (.ok (), f p)

/-- Asks the surroundings. -/
def ask (r : Run.Request) : System ε δ (Run.Answer r) := fun p =>
  .ask r fun a => return (.ok a, p)

/-- Reads the memory. -/
def reading [ErrorCode ε] (a : Memory → Except EngineError α) : System ε δ α := fun p =>
  match a p.memory with
  | .ok v => return (.ok v, p)
  | .error _ => return (.error (.code ErrorCode.badAddress), p)

/-- Writes to the memory. -/
def writing [ErrorCode ε] (a : Memory → Except EngineError Memory) : System ε δ Unit := fun p =>
  match a p.memory with
  | .ok m => return (.ok (), { p with memory := m })
  | .error _ => return (.error (.code ErrorCode.badAddress), p)

/-- Puts bytes into memory. -/
def write [ErrorCode ε] (address : Nat) (bytes : Bytes) : System ε δ Unit :=
  writing (·.write address bytes)

/-- What a failure of the file tree means to the guest. -/
def failureOf [ErrorCode ε] : FileError → Failure ε
  | .tooLong => .stop .breakdown
  | e => .code (ErrorCode.ofKind e.kind)

/-- Acts on the file tree. -/
def onTree [ErrorCode ε] (a : FileTree.Action α) : System ε δ α := fun p =>
  match a p.tree with
  | .ok v t => return (.ok v, { p with tree := t })
  | .error e t => return (.error (failureOf e), { p with tree := t })

/-- Acts on the file tree at the present moment. -/
def onTreeNow [ErrorCode ε] (a : Moment → FileTree.Action α) : System ε δ α := do
  let now : Moment ← ask .clock
  onTree (a now)

/-- Reads at most `max` bytes of the input. -/
def readInput (max : Nat) : System ε δ Bytes := fun p =>
  (p.stdin.read max).bind fun r =>
    match r.1 with
    | .ok chunk => return (.ok chunk, { p with stdin := r.2 })
    | .error s => return (.error (.stop s), { p with stdin := r.2 })

/-- Puts a new descriptor into the table and gives its number. -/
def addDescriptor (d : δ) : System ε δ Nat := fun p =>
  return (.ok p.descriptors.next, { p with descriptors := p.descriptors.insert d })

/-- Takes a descriptor out of the table. -/
def dropDescriptor (k : Nat) : System ε δ Unit :=
  update fun p => { p with descriptors := p.descriptors.remove k }

end System

end GuestShell
