import GuestShell.Session.Mailbox

/-!
# Pausing under a lock

Two threads of one process have no way to pause on a word, so the asking side pauses on a condition
variable.  It takes a lock, looks at the flag, and if the flag is up it falls asleep, which gives the
lock back at the same moment.  Once awake it takes the lock and looks again; it is back only when it has
seen the flag down.  The answering side takes the flag down without the lock, and takes the lock to wake
the other.

So between the last look at the flag and the sleep the flag can go down, but nobody can call.  A
`LatchedExchange` is an exchange whose pause is taken apart in this way.
-/

namespace GuestShell

/-- Who has the lock of the pause, and what for. -/
inductive Latch where
  | free
  /-- The asking side is about to look whether the flag is down. -/
  | looking
  /-- The asking side has seen the flag up and is about to fall asleep. -/
  | dozing
  /-- The asking side has seen the flag down and is about to leave the pause. -/
  | leaving
  /-- The answering side is about to wake the other. -/
  | calling
  /-- The answering side has woken the other and is about to give the lock back. -/
  | called
  deriving DecidableEq

/-- Both sides at work, the pause under a lock. -/
structure LatchedExchange where
  exchange : Exchange
  latch : Latch

namespace LatchedExchange

/-- Nobody asks and nobody answers. -/
def start (m : Mailbox) : LatchedExchange := ⟨.start m, .free⟩

/-- The next step of the asking side; none if it has no step to take, or waits for the lock. -/
def stepAsking? (x : LatchedExchange) : Option LatchedExchange :=
  if x.exchange.asking = .waiting then
    match x.latch with
    | .free => some { x with latch := .looking }
    | .looking =>
      some { x with latch := if x.exchange.mailbox.held then .dozing else .leaving }
    | .dozing => some ⟨{ x.exchange with asking := .asleep }, .free⟩
    | .leaving => some ⟨{ x.exchange with asking := .polling }, .free⟩
    | _ => none
  else x.exchange.stepAsking?.map fun y => { x with exchange := y }

/-- The next step of the answering side; none if it has no step to take, or waits for the lock. -/
def stepAnswering? (x : LatchedExchange) : Option LatchedExchange :=
  if x.exchange.answering = .waking then
    match x.latch with
    | .free => some { x with latch := .calling }
    | .calling => some ⟨{ x.exchange with
        asking := if x.exchange.asking = .asleep then .waiting else x.exchange.asking }, .called⟩
    | .called => some ⟨{ x.exchange with answering := .idle }, .free⟩
    | _ => none
  else x.exchange.stepAnswering?.map fun y => { x with exchange := y }

/-- What a move leads to; none if it cannot be made now.  The pause is never over for no reason, as
whoever wakes up by himself looks at the flag again. -/
def next? (x : LatchedExchange) : Exchange.Move → Option LatchedExchange
  | .askingStep => x.stepAsking?
  | .answeringStep => x.stepAnswering?
  | .returnEarly => none
  | move => (x.exchange.next? move).map fun y => { x with exchange := y }

/-- What comes of both sides, whatever the order of their steps. -/
inductive Reachable (start : LatchedExchange) : LatchedExchange → Prop where
  | start : Reachable start start
  | step {x y : LatchedExchange} (move : Exchange.Move) : Reachable start x → x.next? move = some y →
    Reachable start y

end LatchedExchange

end GuestShell
