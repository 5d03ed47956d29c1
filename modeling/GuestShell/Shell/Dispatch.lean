import GuestShell.Pipeline.OfLine
import GuestShell.Shell.Basic

/-!
# Running a line

A line is run stage by stage, from left to right.  A callable command answers at once; any other
stage is a program that is looked up and run.  The output of a stage is the input of the next one,
unless it is empty; only the last stage is attached to the terminal.

An error ends the line, but for the failed run of a program that is not the last stage: it is
reported, and what the program has printed goes on to the next stage.  Nobody is told of an
interrupt.
-/

namespace GuestShell.Shell

variable {κ ρ : Type}

/-- A part of a line that may stop it. -/
abbrev Stopping (κ ρ α : Type) := ExceptT DispatchError (Dispatching κ ρ) α

/-- Does something that cannot stop the line. -/
def unstopped {α : Type} (t : Dispatching κ ρ α) : Stopping κ ρ α := ExceptT.lift t

/-- Does something whose error stops the line. -/
def stopping {ε α : Type} (wrap : ε → DispatchError) (t : Dispatching κ ρ (Except ε α)) :
    Stopping κ ρ α := do
  match ← unstopped t with
  | .ok a => return a
  | .error e => throw (wrap e)

/-! ## Messages -/

/-- What is shown while a program is looked up. -/
def loadingLine : String := "loading web assembly ..."

/-- Erases the line of the terminal. -/
def eraseLine : String := "\x1b[2K\r"

/-- A warning in yellow. -/
def warningLine (w : LineWarning) : String :=
  "\x1b[33mwarning: " ++ w.message ++ "\x1b[0m\n"

/-- Writes text to the error output. -/
def writeError (text : String) : Dispatching κ ρ Unit := ask (.stderr (Text.encode text))

/-- Reports an error on a line of its own. -/
def report (e : DispatchError) : Dispatching κ ρ Unit := writeError (e.message ++ "\n")

/-! ## Stages -/

/-- The whole output of a callable command. -/
def collect : CommandOutput ρ → Dispatching κ ρ (Except CommandError String)
  | .text s => return .ok s
  | .future later => ask (.await later)
  | .stream later => return CommandOutput.join (← ask (.chunks later))

/-- The output of a callable stage. -/
def call (c : κ) (args : List String) (input : Option String) : Stopping κ ρ String := do
  let output ← stopping .command (ask (.invoke c args input))
  stopping .command (collect output)

/-- Does something while the session is open. -/
def inSession {α : Type} (t : Stopping κ ρ α) : Stopping κ ρ α := do
  match (← getThe (Shell κ)).session.acquire with
  | .error e => throw (.session e)
  | .ok taken =>
    modifyThe (Shell κ) fun s => { s with session := taken }
    let result ← unstopped t.run
    modifyThe (Shell κ) fun s => { s with session := s.session.release }
    ExceptT.mk (return result)

/-- Looks a program up. -/
def load (name : String) : Stopping κ ρ CatalogEntry := do
  unstopped (ask (.status loadingLine))
  let found ← unstopped do look ((← get).catalog.resolve name)
  unstopped (ask (.status eraseLine))
  match found with
  | .ok e => return e
  | .error e => throw (.session (.resolve e))

/-- The run of a stage, given its program. -/
def running (s : Stage) (input : Option String) (e : CatalogEntry) :
    Stopping κ ρ (Running Report) := do
  return e.runnable.run ⟨s.program, s.args, (← getThe (Shell κ)).files, input⟩

/-- Runs a program attached to the terminal. -/
def runAttached (s : Stage) (input : Option String) : Stopping κ ρ Unit :=
  inSession do
    let e ← load s.program
    let r ← running s input e
    let report ← stopping .session (inContext (Session.run r))
    unstopped (setFiles report.files)
    match report.error with
    | some e => throw (.run e)
    | none => return

/-- Runs a program without a terminal; gives what it printed, even if it failed. -/
def runDetached (s : Stage) (input : Option String) : Stopping κ ρ String :=
  inSession do
    let e ← load s.program
    let r ← running s input e
    let output ← stopping .session (inContext (Session.runCaptured r))
    unstopped (setFiles output.report.files)
    match output.report.error with
    | some e => unstopped (report (.run e))
    | none => pure ()
    return output.capture.stdout

/-! ## Lines -/

/-- What one stage passes to the next: its output, unless it is empty. -/
def passed (output : String) : Option String := if output = "" then none else some output

/-- Runs the stages of a line, the first one with the given input. -/
def runStages : List Stage → Option String → Stopping κ ρ Unit
  | [], _ => return
  | s :: rest, input => do
    match (← getThe (Shell κ)).registry.find? s.program with
    | some c =>
      let output ← call c.behavior s.args input
      if rest.isEmpty then unstopped (ask (.stdout (Text.encode output)))
      else runStages rest (passed output)
    | none =>
      if rest.isEmpty then runAttached s input
      else
        let output ← runDetached s input
        runStages rest (passed output)

/-- Reports the warnings about a line and runs its stages. -/
def runPipeline (p : Pipeline) : Stopping κ ρ Unit := do
  unstopped (p.warnings.forM fun w => writeError (warningLine w))
  runStages p.stages none

/-- Runs a line.  It never fails: what goes wrong is reported. -/
def runLine (line : String) : Dispatching κ ρ Unit := do
  match (← get).line.acquire with
  | .error e => report (.session e)
  | .ok taken =>
    modify fun s => { s with line := taken }
    match ← (runPipeline (.ofLine line)).run with
    | .ok _ => pure ()
    | .error e => if !e.isInterrupt then report e
    modify fun s => { s with line := s.line.release }

end GuestShell.Shell
