import GuestShell.Terminal.Screen

/-!
# Rehearsing a screen

A screen on a terminal whose reader has prepared lines.
-/

namespace GuestShell.Rehearsal

/-- What can be seen of a screen. -/
inductive ScreenIncident where
  | wrote (text : String)
  | read (prompt : String)

/-- A screen, its gate, and its scripted terminal. -/
structure ScreenStage where
  gate : Gate
  screen : Screen
  lines : List (Option String)
  /-- What was seen, the last incident first. -/
  transcript : List ScreenIncident

namespace ScreenStage

/-- Adds to the transcript. -/
def see (i : ScreenIncident) : StateM ScreenStage Unit :=
  modify fun s => { s with transcript := i :: s.transcript }

/-- Answers what a screen asks. -/
def serve : (r : Screen.Request) → StateM ScreenStage (Screen.Answer r)
  | .write text => see (.wrote text)
  | .read prompt => do
    see (.read prompt)
    let s ← get
    set { s with lines := s.lines.tail }
    return match s.lines.head?.join with
      | some line => .line line
      | none => .ended

/-- Draws on the screen. -/
def perform {α : Type} (d : Screen.Drawing α) : StateM ScreenStage α := do
  let (a, screen) ← (d.run (← get).screen).interpret (return (← get).gate)
    (fun g => modify fun s => { s with gate := g }) serve
  modify fun s => { s with screen := screen }
  return a

end ScreenStage

end GuestShell.Rehearsal
