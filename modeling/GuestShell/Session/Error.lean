import GuestShell.Catalog.Error

/-!
# Why a session has no report
-/

namespace GuestShell

/-- Why a session ends without a report. -/
inductive SessionError where
  /-- Another session is open. -/
  | alreadyRunning
  /-- Somebody interrupted the run. -/
  | interrupted
  | resolve (e : ResolveError)
  /-- There is no worker to run on. -/
  | worker (reason : String)
  deriving DecidableEq

/-- The wording of a session error. -/
def SessionError.message : SessionError → String
  | alreadyRunning => "already running a command"
  | interrupted => "interrupted"
  | resolve e => e.message
  | worker reason => "background context failed: " ++ reason

end GuestShell
