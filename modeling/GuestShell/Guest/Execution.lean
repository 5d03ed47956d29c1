import GuestShell.Guest.Image
import GuestShell.Guest.Machine

/-!
# Running a module

A module is linked against the host's table of functions, instantiated, and entered where the host
says.

* A table that names a function twice satisfies nobody.  A function that the table does not have
  traps when it is called, and not before.
* An interrupt is a rise of the epoch.  It takes effect when a function is entered and at every
  round of a loop, and only if it came after the module was instantiated.
* The exit code of a run is the 32-bit result of the entry point, or what the guest passed to an
  exit function; a run that a host function stops in another way fails.
-/

namespace GuestShell

/-- What ends the work of a guest before its function is left. -/
inductive GuestStop where
  | host (s : HostStop)
  | interrupted
  | trap (reason : String)

namespace GuestStop

/-- What a stop of the entry function means for the run. -/
def outcome : GuestStop → Except EngineError Int32
  | host (.exit code) => .ok code
  | host .interrupted => .error .interrupted
  | host (.fault reason) => .error (.aborted reason)
  | host .breakdown => .error (.aborted HostStop.breakdown.message)
  | interrupted => .error .interrupted
  | trap reason => .error (.aborted reason)

/-- What a stop of the start function means: an abort there is a failed instantiation. -/
def startOutcome (s : GuestStop) : Except EngineError Int32 :=
  match s.outcome with
  | .error (.aborted reason) => .error (.instantiationFailed reason)
  | o => o

end GuestStop

/-! ## Linking -/

/-- The place of a function in a table. -/
def findSignature (table : List Signature) (library name : String) : Option (Nat × Signature) :=
  (table.zipIdx.find? fun s => s.1.library == library && s.1.name == name).map fun s => (s.2, s.1)

/-- Whether a table names a function twice. -/
def hasTwice : List Signature → Bool
  | [] => false
  | s :: table => (findSignature table s.library s.name).isSome || hasTwice table

/-- A program and the table of its host. -/
structure Linked where
  program : Program
  table : List Signature

namespace Linked

/-- Whether a further import can be linked: it is unknown, or a function without parameters and
result. -/
def fits (table : List Signature) (i : String × String) : Bool :=
  match findSignature table i.1 i.2 with
  | none => true
  | some (_, s) => s.params.isEmpty && s.result.isNone

/-- Links a program. -/
def ofProgram (p : Program) (table : List Signature) : Except EngineError Linked :=
  if hasTwice table then .error (.instantiationFailed "a host function is defined twice")
  else if p.importedMemory.isSome then .error (.instantiationFailed "no memory is offered")
  else if !p.imports.all (fits table) then
    .error (.instantiationFailed "an import has another type")
  else .ok ⟨p, table⟩

/-- The function that a name stands for. -/
def call? (l : Linked) (name : String) : Option (Nat × Signature) :=
  findSignature l.table l.program.library name

/-- The function that a further import stands for. -/
def import? (l : Linked) (k : Nat) : Option (Nat × Signature) := do
  let i ← l.program.imports[k]?
  findSignature l.table i.1 i.2

/-- Whether the host sees the memory. -/
def sharesMemory (l : Linked) : Bool := l.program.memoryName = "memory"

/-- The memory as the host sees it. -/
def shown (l : Linked) (m : Memory) : Memory := if l.sharesMemory then m else .empty

/-- The memory that the host does not see. -/
def hidden (l : Linked) (m : Memory) : Memory := if l.sharesMemory then .empty else m

/-- The memory after the host has seen its part of it. -/
def returned (l : Linked) (hidden seen : Memory) : Memory :=
  if l.sharesMemory then seen else hidden

/-- What the host leaves as it was is as it was. -/
theorem returned_shown (l : Linked) (m : Memory) : l.returned (l.hidden m) (l.shown m) = m := by
  simp only [returned, hidden, shown]
  split <;> rfl

end Linked

/-! ## Functions -/

namespace Linked

/-- The arguments of a call, cut to the widths of the parameters. -/
def arguments (s : Signature) (args : List Int64) : List Value :=
  s.params.zipIdx.map fun p => .ofWide p.1 (args.getD p.2 0)

/-- How a function was left. -/
abbrev Left := Except GuestStop (Int64 × Memory)

/-- Whether notes are kept. -/
def logs (l : Linked) : Bool := l.program.logs

/-- The note of a result, if notes are kept. -/
def noteResult (l : Linked) (name : String) (v : Int64) : Engine.Run Unit :=
  if l.logs then .ask (.note (.returned name v)) fun _ => return else return

/-- Runs a function to its end, at most the given number of steps. -/
def run (l : Linked) (deadline : Nat) : Nat → Control → Memory → Engine.Run Left
  | 0, _, _ => return .error (.trap "too many steps")
  | fuel + 1, c, m =>
    match c.step l.logs m with
    | .next c m => l.run deadline fuel c m
    | .poll c m => .ask .epoch fun (epoch : Nat) =>
      if deadline ≤ epoch then return .error .interrupted else l.run deadline fuel c m
    | .note o c m => .ask (.note o) fun _ => l.run deadline fuel c m
    | .leave v m => return .ok (v, m)
    | .trap => return .error (.trap "the guest trapped")
    | .call name args target c m =>
      match l.call? name with
      | none => return .error (.trap "unknown import")
      | some (index, s) =>
        let hidden := l.hidden m
        .ask (.call index (arguments s args) (l.shown m)) fun r =>
        match r.1, s.result with
        | .error stop, _ => return .error (.host stop)
        | .ok _, none => l.run deadline fuel c (l.returned hidden r.2)
        | .ok none, some _ => return .error (.trap "a result is missing")
        | .ok (some v), some k =>
          if v.kind = k then do
            l.noteResult name v.wide
            let c := match target with
              | some t => c.assign t v.wide
              | none => c
            l.run deadline fuel c (l.returned hidden r.2)
          else return .error (.trap "a result has another type")
    | .callImport k c m =>
      match l.import? k with
      | none => return .error (.trap "unknown import")
      | some (index, _) =>
        let hidden := l.hidden m
        .ask (.call index [] (l.shown m)) fun r =>
        match r.1 with
        | .error stop => return .error (.host stop)
        | .ok _ => l.run deadline fuel c (l.returned hidden r.2)

/-- More steps than any run can take. -/
def maxSteps : Nat := 1 <<< 62

/-- Enters a function. -/
def enter (l : Linked) (deadline : Nat) (c : Control) (m : Memory) : Engine.Run Left :=
  .ask .epoch fun (epoch : Nat) =>
    if deadline ≤ epoch then return .error .interrupted else l.run deadline maxSteps c m

/-! ## Modules -/

/-- The memory of a new instance: zeros, with the program's data put in. -/
def freshMemory (l : Linked) : Except EngineError Memory :=
  l.program.data.foldlM (fun m d => m.write d.1 d.2) (.zeros (l.program.pages.getD 0))

/-- The registers that argument count and argument pointer go to. -/
def entryControl (l : Linked) (args : List Value) : Control :=
  match l.program.params, args with
  | .i32 :: .i32 :: _, argc :: argv :: _ => .start l.program.code argc.wide argv.wide
  | _, _ => .start l.program.code 0 0

/-- The exit code that a result of the entry point stands for. -/
def exitCode (l : Linked) (v : Int64) : Int32 :=
  if l.program.result = some .i32 then v.toInt32 else 0

/-- Calls the entry point that the host has chosen. -/
def callEntry (l : Linked) (deadline : Nat) (e : EntryCall) (m : Memory) :
    Engine.Run (Except EngineError Int32) :=
  if l.program.entry ≠ some e.name then return .error (.missingExport e.name)
  else if e.args.map (·.kind) ≠ l.program.params then
    return .error (.aborted "arguments do not fit the entry point")
  else do
    match ← l.enter deadline (l.entryControl e.args) m with
    | .ok (v, _) => return .ok (l.exitCode v)
    | .error stop => return stop.outcome

/-- Asks the host for the entry point and calls it. -/
def begin (l : Linked) (deadline : Nat) (m : Memory) : Engine.Run (Except EngineError Int32) :=
  let hidden := l.hidden m
  .ask (.entry (l.program.exportList.map (·.name)) (l.shown m)) fun r =>
    match r.1 with
    | .error e => return .error e
    | .ok e => l.callEntry deadline e (l.returned hidden r.2)

/-- Instantiates the module and runs it. -/
def instantiate (l : Linked) (deadline : Nat) : Engine.Run (Except EngineError Int32) :=
  match l.freshMemory with
  | .error e => return .error (.instantiationFailed e.message)
  | .ok m =>
    match l.program.start with
    | none => l.begin deadline m
    | some code => do
      match ← l.enter deadline (.start code 0 0) m with
      | .ok (_, m) => l.begin deadline m
      | .error stop => return stop.startOutcome

end Linked

namespace CompiledModule

/-- Runs a module against the functions of a host; gives its exit code. -/
def execute (m : CompiledModule) (table : List Signature) :
    Engine.Run (Except EngineError Int32) :=
  match Linked.ofProgram m.program table with
  | .error e => return .error e
  | .ok l => .ask .epoch fun (epoch : Nat) => l.instantiate (epoch + 1)

end CompiledModule

end GuestShell
