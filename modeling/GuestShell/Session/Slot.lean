import GuestShell.Session.Error

/-!
# Slots for one at a time

A slot is taken by at most one activity.  Who finds it taken is told so; who has taken it releases
it, whatever becomes of the activity.
-/

namespace GuestShell

/-- A place for one activity. -/
structure Slot where
  taken : Bool
  deriving DecidableEq

namespace Slot

/-- The slot that nobody has taken. -/
def vacant : Slot := ⟨false⟩

/-- Takes the slot. -/
def acquire (s : Slot) : Except SessionError Slot :=
  if s.taken then .error .alreadyRunning else .ok ⟨true⟩

/-- Gives the slot back. -/
def release (_ : Slot) : Slot := vacant

end Slot

end GuestShell
