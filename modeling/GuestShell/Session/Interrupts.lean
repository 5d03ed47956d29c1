/-!
# Interrupts

Every run that can be interrupted gets a token of its own.  An interrupt hits the token of the run
in flight and no other; without a run in flight there is nothing to interrupt.  A token that was hit
stays so.
-/

namespace GuestShell

/-- All tokens up to now, the first one first and true where they were hit, and the token of the run
in flight. -/
structure Interrupts where
  hit : List Bool
  current : Option Nat
  deriving DecidableEq

namespace Interrupts

/-- No run yet. -/
def start : Interrupts := ⟨[], none⟩

/-- Begins a run with a new token. -/
def install (i : Interrupts) : Interrupts := ⟨i.hit ++ [false], some i.hit.length⟩

/-- Ends the run. -/
def clear (i : Interrupts) : Interrupts := { i with current := none }

/-- Whether a run is in flight. -/
def isActive (i : Interrupts) : Bool := i.current.isSome

/-- Interrupts the run in flight; says whether there was one. -/
def fire (i : Interrupts) : Bool × Interrupts :=
  match i.current with
  | some k => (true, { i with hit := i.hit.set k true })
  | none => (false, i)

/-- Whether a token was hit. -/
def isHit (i : Interrupts) (token : Nat) : Bool := i.hit.getD token false

end Interrupts

end GuestShell
