import GuestShell.Guest.Execution
import GuestShell.Sandbox.Glue
import GuestShell.Sandbox.Libc
import GuestShell.Sandbox.Posix

/-!
# Programs that can be run

A runnable is a module with the interface it is run under.  `run` puts its files into a fresh tree,
executes it, and reports what it leaves behind: every file of the tree, whether the run succeeded or
not.
-/

namespace GuestShell

/-- A module, the interface it is run under, and its glue. -/
structure Runnable where
  module_ : CompiledModule
  abi : Abi
  glue : Glue

namespace Runnable

/-- A module with the glue that came with it; the smaller interface has no use for glue. -/
def ofModule (m : CompiledModule) (abi : Abi) (glue : Option Bytes) : Runnable where
  module_ := m
  abi := abi
  glue := match abi with
    | .posix => .empty
    | .libc => .ofAttached glue

/-! ## Serving a guest -/

/-- How the functions of an interface are called. -/
abbrev Caller (δ : Type) :=
  Nat → List Value → Process δ → Running (Except HostStop (Option Value) × Process δ)

/-- How the entry point of an interface is chosen. -/
abbrev Chooser := List String → List String → Memory → Except EngineError EntryCall × Memory

/-- Answers what a guest asks.  The memory comes with each call and goes back with its answer. -/
def serve {δ : Type} (call : Caller δ) (choose : Chooser) :
    (r : Engine.Request) → Process δ → Running (Engine.Answer r × Process δ)
  | .epoch, p => .ask .epoch fun (epoch : Nat) => return (epoch, p)
  | .note o, p => .ask (.note o) fun _ => return ((), p)
  | .entry exports m, p => return (choose exports p.argv m, p)
  | .call index args m, p => (call index args { p with memory := m }).bind fun r =>
    return ((r.1, r.2.memory), { r.2 with memory := .empty })

/-- Executes a module in a sandbox. -/
def execute {δ : Type} (m : CompiledModule) (table : List Signature) (call : Caller δ)
    (choose : Chooser) (hidden : List String) (p : Process δ) : Running Report :=
  ((m.execute table).within (serve call choose) p).bind fun r =>
    return ⟨r.2.tree.snapshot hidden, RunError.ofOutcome? r.1⟩

/-- Runs a program once. -/
def run (r : Runnable) (i : Invocation) : Running Report :=
  .ask .clock fun (now : Moment) =>
    match r.abi with
    | .posix => execute r.module_ Posix.table Posix.call Posix.enter [] (Posix.Guest.start now i)
    | .libc =>
      execute r.module_ Libc.table Libc.call (fun exports _ m => (Libc.enter exports, m))
        Libc.reservedPaths (Libc.Guest.start now r.glue.fullEnvironment i)

end Runnable

end GuestShell
