import GuestShell.Engine.Host
import GuestShell.FileTree.Snapshot

/-!
# Runs

A run takes a program through its whole life in a sandbox of its own: it begins with the files it is
given and ends with a report.  In between it asks its surroundings for what a sandbox does not have:
somebody to read its output and to type lines, a clock, and the word that it should stop.

A run is a task over these requests, so the same run can be watched, captured, served by a prompt or
by a distant terminal, and it cannot tell the difference.
-/

namespace GuestShell

/-- What is to be run on: the name and arguments of the program, its files, and its input if that is
known beforehand. -/
structure Invocation where
  program : String
  args : List String
  files : List SavedFile
  input : Option String

/-- The arguments as a program sees them, its own name first. -/
def Invocation.argv (i : Invocation) : List String := i.program :: i.args

/-- Why a run did not succeed. -/
inductive RunError where
  /-- The program exited with a code other than 0. -/
  | exit (code : Int32)
  | interrupted
  | engine (e : EngineError)
  deriving DecidableEq

namespace RunError

/-- The wording of a run error. -/
def message : RunError → String
  | exit code => "command exited with code " ++ toString code.toInt
  | interrupted => "interrupted"
  | engine e => e.message

/-- What an engine error means for the run. -/
def ofEngine : EngineError → RunError
  | .interrupted => interrupted
  | e => engine e

/-- What an outcome means for the run: exit code 0 is success. -/
def ofOutcome? : Except EngineError Int32 → Option RunError
  | .ok code => if code = 0 then none else some (exit code)
  | .error e => some (ofEngine e)

end RunError

/-- What is left of a run: the files of its sandbox, and why it did not succeed. -/
structure Report where
  files : List SavedFile
  error : Option RunError

namespace Run

/-- What a run asks its surroundings. -/
inductive Request where
  | stdout (chunk : Bytes)
  | stderr (chunk : Bytes)
  /-- A line of input; none for the end of input. -/
  | readLine
  /-- Whether the run was stopped while it waited for a line. -/
  | isInterrupted
  | clock
  | epoch
  | note (o : Observation)

/-- The answers to the requests. -/
abbrev Answer : Request → Type
  | .stdout _ => Unit
  | .stderr _ => Unit
  | .readLine => Option String
  | .isInterrupted => Bool
  | .clock => Moment
  | .epoch => Nat
  | .note _ => Unit

end Run

/-- A run, or a part of one. -/
abbrev Running (α : Type) := Task Run.Request Run.Answer α

/-- A moment in nanoseconds, as far as 64 bits reach. -/
def nanoseconds (t : Moment) : Nat := min (t.toNat * 1000000) (UInt64.size - 1)

end GuestShell
