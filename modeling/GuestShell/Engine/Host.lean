import GuestShell.Engine.Memory
import GuestShell.Engine.Value
import GuestShell.Task

/-!
# What a running guest asks for

A guest runs as a task.  It asks its host for every call of an imported function and for the choice
of its entry point; both see the guest's memory and give it back.  It asks for the epoch wherever an
interrupt may take effect.  What a guest notes down for those who watch it is a request, too.
-/

namespace GuestShell

/-- The function to begin with, and its arguments. -/
structure EntryCall where
  name : String
  args : List Value
  deriving DecidableEq

/-- The units in which a guest may note a time. -/
inductive TimeUnit where
  | seconds
  | nanoseconds
  deriving DecidableEq, Repr

/-- What a guest notes down. -/
inductive Observation where
  /-- The result of a host function. -/
  | returned (call : String) (value : Int64)
  | value (v : Int64)
  | bytes (b : Bytes)
  | time (value : Nat) (unit : TimeUnit)
  deriving DecidableEq

namespace Engine

/-- What a running guest asks. -/
inductive Request where
  /-- The number of interrupts up to now. -/
  | epoch
  /-- A call of a host function, by its place in the host's table. -/
  | call (index : Nat) (args : List Value) (memory : Memory)
  /-- The choice of an entry point among the exports. -/
  | entry (exports : List String) (memory : Memory)
  | note (o : Observation)

/-- The answers to the requests. -/
abbrev Answer : Request → Type
  | .epoch => Nat
  | .call .. => Except HostStop (Option Value) × Memory
  | .entry .. => Except EngineError EntryCall × Memory
  | .note _ => Unit

/-- A guest at work. -/
abbrev Run (α : Type) := Task Request Answer α

end Engine

end GuestShell
