import GuestShell.Session.Window

/-!
# The mailbox between two sides

A program that runs on a worker asks for input and has to wait, while the side of the terminal goes
on with its own work until somebody has typed a line.  The two share a *pause flag*, a window for
the line, and a flag that cancels.

* The asking side raises the pause flag, tells the other side, and waits until the flag is down
  again; then it reads the window.  If it finds itself cancelled it takes the flag down and reads
  nothing.
* The answering side writes the window, takes the flag down, and wakes the other.

Only the asking side raises the flag and only the answering side writes the window, so there is
never more than one line on its way.

The first part of this module takes each side's work as a whole.  The second part takes it apart
into the steps that the two sides take at the same time, in any order: `Exchange.next?` is one step
of either side.
-/

namespace GuestShell

/-- What the two sides share. -/
structure Mailbox where
  /-- The pause flag: the asking side waits. -/
  held : Bool
  window : Window
  cancelled : Bool
  deriving DecidableEq

namespace Mailbox

/-- The mailbox of a new worker. -/
def fresh : Mailbox := ⟨false, .zeros Window.standardSize, false⟩

/-- Raises the pause flag. -/
def hold (m : Mailbox) : Mailbox := { m with held := true }

/-- Takes the pause flag down. -/
def release (m : Mailbox) : Mailbox := { m with held := false }

/-- Answers with a line or the end of input. -/
def deliver (m : Mailbox) (line : Option String) : Mailbox :=
  { m with window := m.window.encode line, held := false }

/-- Cancels for good; a side that waits gets the end of input. -/
def terminate (m : Mailbox) : Mailbox :=
  let m := { m with cancelled := true }
  if m.held then m.deliver none else m

/-- What the asking side has at the end of its wait: the line that was delivered, or nothing if only
a cancel has ended it. -/
def collect (m : Mailbox) : Option String × Mailbox :=
  if m.held then (none, m.release) else (m.window.decode, m)

/-- Asks for a line in a monad that holds the mailbox.  `signal` tells the other side, and is over
when that side has answered or cancelled. -/
def request {μ : Type → Type} [Monad μ] (view : μ Mailbox) (put : Mailbox → μ Unit)
    (signal : μ Unit) : μ (Option String) := do
  put (← view).hold
  if (← view).cancelled then
    put (← view).release
    return none
  signal
  let (line, m) := (← view).collect
  put m
  return line

end Mailbox

/-! ## Step by step -/

/-- Where the asking side is. -/
inductive Asking where
  /-- Not asking. -/
  | idle
  /-- About to look for a cancel, the flag being raised. -/
  | raised
  /-- About to tell the other side. -/
  | signalling
  /-- About to look whether the flag is down. -/
  | polling
  /-- About to look for a cancel again. -/
  | checking
  /-- About to fall asleep unless the flag is down. -/
  | waiting
  /-- Asleep until woken. -/
  | asleep
  /-- About to take the flag down, being cancelled. -/
  | withdrawing
  /-- About to look whether the first word is the end of input. -/
  | opening
  /-- About to read the word at an index; the characters before it are read. -/
  | reading (index : Nat) (line : List Char)
  deriving DecidableEq

/-- Where the answering side is. -/
inductive Answering where
  /-- Not answering. -/
  | idle
  /-- About to write words from an index on. -/
  | writing (words : List (Int32 × Nat))
  /-- About to take the flag down. -/
  | releasing
  /-- About to wake the other side. -/
  | waking
  /-- About to set the cancel flag. -/
  | cancelling
  /-- About to look whether the other side waits for an answer, the cancel flag being set. -/
  | finding
  deriving DecidableEq

/-- Both sides at work. -/
structure Exchange where
  mailbox : Mailbox
  asking : Asking
  answering : Answering
  /-- Whether the other side was told of a question that it has not begun to answer. -/
  signalled : Bool
  /-- What the asking side got, the last one first. -/
  received : List (Option String)

namespace Exchange

/-- Nobody asks and nobody answers. -/
def start (m : Mailbox) : Exchange := ⟨m, .idle, .idle, false, []⟩

/-- What happens next: one side takes a step, or begins something. -/
inductive Move where
  /-- The asking side begins to ask. -/
  | ask
  /-- The asking side takes its next step. -/
  | askingStep
  /-- The asking side wakes up for no reason. -/
  | wakeByItself
  /-- The wait of the asking side is over for no reason. -/
  | returnEarly
  /-- The answering side begins to answer the question it was told of. -/
  | answer (line : Option String)
  /-- The answering side begins to cancel. -/
  | terminate
  /-- The answering side takes its next step. -/
  | answeringStep
  deriving DecidableEq

/-- Writing an answer. -/
def writingOf (m : Mailbox) (line : Option String) : Answering :=
  .writing (Window.message m.window.words.length line).zipIdx

/-- The asking side is back with what it got. -/
def finish (x : Exchange) (line : Option String) : Exchange :=
  { x with asking := .idle, received := line :: x.received }

/-- The next step of the asking side; none if it has no step to take. -/
def stepAsking? (x : Exchange) : Option Exchange :=
  match x.asking with
  | .idle => none
  | .raised =>
    some { x with asking := if x.mailbox.cancelled then .withdrawing else .signalling }
  | .signalling => some { x with asking := .polling, signalled := true }
  | .polling => some { x with asking := if x.mailbox.held then .checking else .opening }
  | .checking => some { x with asking := if x.mailbox.cancelled then .withdrawing else .waiting }
  | .waiting => some { x with asking := if x.mailbox.held then .asleep else .polling }
  | .asleep => none
  | .withdrawing => some ({ x with mailbox := x.mailbox.release }.finish none)
  | .opening =>
    let w := x.mailbox.window
    if w.words.isEmpty ∨ w.load 0 = Window.endOfInput then some (x.finish none)
    else some { x with asking := .reading 0 [] }
  | .reading k line =>
    let w := x.mailbox.window
    if w.words.length ≤ k ∨ w.load k = 0 then some (x.finish (some (.ofList line)))
    else some { x with asking := .reading (k + 1) (line ++ (Window.char? (w.load k)).toList) }

/-- The next step of the answering side; none if it has no step to take. -/
def stepAnswering? (x : Exchange) : Option Exchange :=
  match x.answering with
  | .idle => none
  | .writing [] => some { x with answering := .releasing }
  | .writing ((word, k) :: rest) =>
    some { x with
      mailbox := { x.mailbox with window := x.mailbox.window.store k word }
      answering := .writing rest }
  | .releasing => some { x with mailbox := x.mailbox.release, answering := .waking }
  | .waking =>
    some { x with
      asking := if x.asking = .asleep then .waiting else x.asking
      answering := .idle }
  | .cancelling =>
    some { x with mailbox := { x.mailbox with cancelled := true }, answering := .finding }
  | .finding =>
    some { x with answering := if x.mailbox.held then writingOf x.mailbox none else .idle }

/-- What a move leads to; none if it cannot be made now. -/
def next? (x : Exchange) : Move → Option Exchange
  | .ask =>
    if x.asking = .idle then some { x with mailbox := x.mailbox.hold, asking := .raised } else none
  | .askingStep => x.stepAsking?
  | .wakeByItself => if x.asking = .asleep then some { x with asking := .waiting } else none
  | .returnEarly =>
    if x.asking = .waiting ∨ x.asking = .asleep then some { x with asking := .polling } else none
  | .answer line =>
    if x.answering = .idle ∧ x.signalled then
      some { x with answering := writingOf x.mailbox line, signalled := false }
    else none
  | .terminate => if x.answering = .idle then some { x with answering := .cancelling } else none
  | .answeringStep => x.stepAnswering?

/-- What comes of both sides, whatever the order of their steps. -/
inductive Reachable (start : Exchange) : Exchange → Prop where
  | start : Reachable start start
  | step {x y : Exchange} (move : Move) : Reachable start x → x.next? move = some y →
    Reachable start y

end Exchange

end GuestShell
