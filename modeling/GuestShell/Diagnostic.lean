import GuestShell.Guest.Image
import GuestShell.Pipeline.Commands
import GuestShell.Shell.Callable
import GuestShell.Text.Quoted

/-!
# Values in diagnostics

How commands, their outputs and modules look where a developer reads about them: the kind of the
value, then what is known of it, with texts in quotation marks.
-/

namespace GuestShell

/-- Texts in quotation marks, in brackets. -/
def Text.quotedList (l : List String) : String := "[" ++ joined ", " (l.map quoted) ++ "]"

/-- A kind with fields, in braces. -/
def Text.quotedRecord (kind : String) (fields : List (String × String)) : String :=
  kind ++ " \x7b " ++ joined ", " (fields.map fun f => f.1 ++ ": " ++ f.2) ++ " \x7d"

/-- An output in diagnostics; what is still to come does not show. -/
def CommandOutput.diagnostic {ρ : Type} : CommandOutput ρ → String
  | text s => "Text(" ++ Text.quoted s ++ ")"
  | future _ => "Future(..)"
  | stream _ => "Stream(..)"

/-- A command in diagnostics; what it does does not show. -/
def Command.diagnostic {κ : Type} (c : Command κ) : String :=
  Text.quotedRecord "Command"
    [("name", Text.quoted c.name), ("autocomplete", Text.quotedList c.hints)]

/-- A module in diagnostics; its name shows, if it has one. -/
def CompiledModule.diagnostic (m : CompiledModule) : String :=
  let name := match m.name with
    | some n => "Some(" ++ Text.quoted n ++ ")"
    | none => "None"
  Text.quotedRecord "CompiledModule" [("name", name)]

end GuestShell
