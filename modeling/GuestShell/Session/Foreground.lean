import GuestShell.Run.Capture
import GuestShell.Session.Context

/-!
# Runs in the foreground

The run has the terminal to itself.  Where it asks for a line, a prompt shows the caption and waits;
the line that is entered is shown on the terminal as well, and a prompt that is dismissed is the end
of input.  Nothing can interrupt such a run.
-/

namespace GuestShell.Foreground

/-- Answers what a run asks, keeping track of the caption. -/
def serve : (r : Run.Request) → StateT Caption Sitting (Run.Answer r)
  | .stdout chunk => do
    modify (·.feed chunk)
    Session.ask (.stdout chunk)
  | .stderr chunk => Session.ask (.stderr chunk)
  | .readLine => do
    match ← Session.ask (.prompt (← get).text) with
    | none => return none
    | some line =>
      let entered := line ++ "\n"
      Session.ask (.stdout (Text.encode entered))
      modify (·.feedInput entered)
      return some entered
  | .isInterrupted => return false
  | .clock => Session.ask .clock
  | .epoch => return (← getThe Context).epoch
  | .note o => Session.ask (.note o)

/-- Runs attached to the terminal. -/
def run (r : Running Report) : Sitting Report := do
  return (← (r.interpret serve).run .empty).1

/-- Runs without a terminal. -/
def runCaptured (r : Running Report) : Sitting CapturedRun := do
  return (← ((captured r).interpret serve).run .empty).1

end GuestShell.Foreground
