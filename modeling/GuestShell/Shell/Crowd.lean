import GuestShell.Shell.Dispatch

/-!
# Lines in flight

A line may be started while others are at work.  It does nothing before its first turn.  From then
on it waits wherever it asks its surroundings for something, and its next turn is when it is
answered, with the shell as it is at that moment.  Between two requests it is atomic.  A line may be
dropped at any time, and then it gives back the slots that it has taken.

A `Crowd` is a shell with the lines in flight on it, as many as one likes.  Which of them has the next
turn, what it is answered with and which one is dropped is left open, and so is what others do to the
rest of the shell.
-/

namespace GuestShell.Shell

variable {κ ρ : Type}

/-- What a part of the shell still has to do. -/
abbrev Activity (κ ρ α : Type) : Type :=
  Task (Request κ ρ × Shell κ) (fun r => Answer r.1 × Shell κ) (α × Shell κ)

/-- A line in flight. -/
structure Flight (κ ρ : Type) where
  line : String
  /-- What is left of it; none before its first turn. -/
  rest : Option (Activity κ ρ Unit)
  /-- Whether it has taken the slot for lines. -/
  hasLine : Bool
  /-- Whether it has taken the slot for sessions. -/
  hasSession : Bool

namespace Flight

/-- A line that was just started. -/
def start (line : String) : Flight κ ρ := ⟨line, none, false, false⟩

/-- Whether a line has a slot after a turn in which the slot was changed from `before` to `after`. -/
def keeps (had : Bool) (before after : Slot) : Bool := if after = before then had else after.taken

/-- The line after a turn. -/
def resume (f : Flight κ ρ) (before after : Shell κ) (rest : Activity κ ρ Unit) : Flight κ ρ where
  line := f.line
  rest := some rest
  hasLine := keeps f.hasLine before.line after.line
  hasSession := keeps f.hasSession before.session after.session

/-- The shell after the line was dropped. -/
def leave (f : Flight κ ρ) (s : Shell κ) : Shell κ :=
  { s with
    line := if f.hasLine then s.line.release else s.line
    session := if f.hasSession then s.session.release else s.session }

end Flight

/-- A shell and the lines in flight on it. -/
structure Crowd (κ ρ : Type) where
  shell : Shell κ
  lines : Nat → Option (Flight κ ρ)

namespace Crowd

/-- A shell without lines. -/
def idle (s : Shell κ) : Crowd κ ρ := ⟨s, fun _ => none⟩

/-- Puts a line in a place, or takes it away. -/
def set (x : Crowd κ ρ) (i : Nat) (f : Option (Flight κ ρ)) : Crowd κ ρ :=
  { x with lines := fun j => if j = i then f else x.lines j }

/-- The line `f` in the place `i` has had a turn, which has left so much of it.  A line that is over
goes away. -/
def turn (x : Crowd κ ρ) (i : Nat) (f : Flight κ ρ) : Activity κ ρ Unit → Crowd κ ρ
  | .done (_, s) => { x.set i none with shell := s }
  | .ask (q, s) next => { x.set i (f.resume x.shell s (.ask (q, s) next)) with shell := s }

/-- What may happen next. -/
inductive Step : Crowd κ ρ → Crowd κ ρ → Prop
  | start {x : Crowd κ ρ} {i : Nat} (line : String) (free : x.lines i = none) :
    Step x (x.set i (some (.start line)))
  | begin {x : Crowd κ ρ} {i : Nat} {f : Flight κ ρ} (present : x.lines i = some f)
    (fresh : f.rest = none) : Step x (x.turn i f (runLine f.line x.shell))
  | answer {x : Crowd κ ρ} {i : Nat} {f : Flight κ ρ} {q : Request κ ρ} {s : Shell κ}
    {next : Answer q × Shell κ → Activity κ ρ Unit} (present : x.lines i = some f)
    (waits : f.rest = some (.ask (q, s) next)) (a : Answer q) :
    Step x (x.turn i f (next (a, x.shell)))
  | drop {x : Crowd κ ρ} {i : Nat} {f : Flight κ ρ} (present : x.lines i = some f) :
    Step x { x.set i none with shell := f.leave x.shell }
  /-- Somebody else does something to the shell. -/
  | change {x : Crowd κ ρ} {s : Shell κ} (line : s.line = x.shell.line)
    (session : s.session = x.shell.session) : Step x { x with shell := s }

/-- What comes of a shell whose slots are vacant. -/
inductive Reachable : Crowd κ ρ → Prop
  | idle {s : Shell κ} (line : s.line = .vacant) (session : s.session = .vacant) :
    Reachable (.idle s)
  | step {x y : Crowd κ ρ} (reached : Reachable x) (step : Step x y) : Reachable y

end Crowd

end GuestShell.Shell
