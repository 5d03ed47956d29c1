import GuestShell.Guest.Execution

/-!
# Replacing a worker at work

After an interrupt the side of the terminal puts a new worker in the place of the present one.  It has no
power over the thread of the old worker.  It raises the epoch, so that a guest stops at its next look at
it, and sets the cancel flag, so that a guest does not wait for input; then it turns to the new worker.

Meanwhile the old worker goes on.  Its job is in the queue from the beginning.  It takes the job,
instantiates the module, which sets the deadline of the guest to one more than the epoch is at that
moment, and runs the guest.

A `Replacement` is both at work, one step of either side after another in any order.  What the host
answers a guest is left open; that covers what it answers once the cancel flag is set.
-/

namespace GuestShell

namespace Replacement

/-- Where the side of the terminal is. -/
inductive Foreground where
  /-- Attending to the run. -/
  | attending
  /-- About to raise the epoch, being interrupted. -/
  | raising
  /-- About to set the cancel flag. -/
  | cancelling
  /-- About to put a new worker in the place. -/
  | replacing
  /-- Done with the old worker. -/
  | returned
  deriving DecidableEq

/-- Whether the epoch was raised. -/
def Foreground.hasRaised : Foreground → Bool
  | .attending | .raising => false
  | .cancelling | .replacing | .returned => true

/-- Where the old worker is with its job. -/
inductive Job where
  /-- In the queue. -/
  | queued
  /-- About to instantiate the module. -/
  | taken
  /-- The guest is at work; it stops when it looks at an epoch that has reached the deadline. -/
  | running (deadline : Nat) (rest : Engine.Run (Except EngineError Int32))

end Replacement

/-- The side of the terminal and the old worker, both at work. -/
structure Replacement where
  epoch : Nat
  foreground : Replacement.Foreground
  job : Replacement.Job

namespace Replacement

/-- The run was just started. -/
def start (epoch : Nat) : Replacement := ⟨epoch, .attending, .queued⟩

/-- The next step of either side; the job is to execute a module, which asks for the epoch first. -/
inductive Step (work : Engine.Run (Except EngineError Int32)) : Replacement → Replacement → Prop
  | interrupted {x : Replacement} (h : x.foreground = .attending) :
    Step work x { x with foreground := .raising }
  | raised {x : Replacement} (h : x.foreground = .raising) :
    Step work x { x with epoch := x.epoch + 1, foreground := .cancelling }
  | cancelled {x : Replacement} (h : x.foreground = .cancelling) :
    Step work x { x with foreground := .replacing }
  | replaced {x : Replacement} (h : x.foreground = .replacing) :
    Step work x { x with foreground := .returned }
  | taken {x : Replacement} (h : x.job = .queued) : Step work x { x with job := .taken }
  | instantiated {x : Replacement} {next : Nat → Engine.Run (Except EngineError Int32)}
    (h : x.job = .taken) (hwork : work = .ask .epoch next) :
    Step work x { x with job := .running (x.epoch + 1) (next x.epoch) }
  | looked {x : Replacement} {deadline : Nat} {next : Nat → Engine.Run (Except EngineError Int32)}
    (h : x.job = .running deadline (.ask .epoch next)) :
    Step work x { x with job := .running deadline (next x.epoch) }
  | served {x : Replacement} {deadline : Nat} {q : Engine.Request}
    {next : Engine.Answer q → Engine.Run (Except EngineError Int32)} (a : Engine.Answer q)
    (h : x.job = .running deadline (.ask q next)) (hq : q ≠ .epoch) :
    Step work x { x with job := .running deadline (next a) }

/-- What comes of both sides, whatever the order of their steps. -/
inductive Reachable (work : Engine.Run (Except EngineError Int32)) (x : Replacement) :
    Replacement → Prop
  | start : Reachable work x x
  | step {y z : Replacement} : Reachable work x y → Step work y z → Reachable work x z

end Replacement

end GuestShell
