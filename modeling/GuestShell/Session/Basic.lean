import GuestShell.Session.Background
import GuestShell.Session.Foreground

/-!
# Sessions

One run of a program in a context, wherever the context has its programs run.
-/

namespace GuestShell.Session

/-- Runs attached to the terminal. -/
def run (r : Running Report) : Sitting (Except SessionError Report) := do
  match (← get).backend with
  | .prompts => return .ok (← Foreground.run r)
  | .worker => Background.run r

/-- Runs without a terminal. -/
def runCaptured (r : Running Report) : Sitting (Except SessionError CapturedRun) := do
  match (← get).backend with
  | .prompts => return .ok (← Foreground.runCaptured r)
  | .worker => Background.runCaptured r

end GuestShell.Session
