/-!
# Pipelines

A line of input is a pipeline: stages from left to right, each a program name with arguments, and
warnings about what could not be used.
-/

namespace GuestShell

/-- One stage: a program and its arguments. -/
structure Stage where
  program : String
  args : List String
  deriving DecidableEq, Repr

/-- A stage without arguments. -/
def Stage.ofProgram (program : String) : Stage := ⟨program, []⟩

/-- Adds arguments at the end. -/
def Stage.withArgs (s : Stage) (args : List String) : Stage := { s with args := s.args ++ args }

/-- What was left out of a line, and why. -/
inductive LineWarning where
  /-- A word `NAME=value` in front of a program. -/
  | assignment (word : String)
  /-- An operator other than the pipe; the rest of the line is left out. -/
  | unsupported (operator : String)
  /-- A quote that is still open at the end of the line. -/
  | unclosed (quote : Char)
  /-- Nothing on one side of a pipe. -/
  | emptyStage
  deriving DecidableEq, Repr

/-- The wording of a warning. -/
def LineWarning.message : LineWarning → String
  | assignment word => "environment variables are not supported, ignoring '" ++ word ++ "'"
  | unsupported operator =>
    "operator '" ++ operator ++ "' is not supported, ignoring the rest of the line"
  | unclosed quote => "unterminated " ++ quote.toString ++ " quote"
  | emptyStage => "empty command in pipeline"

/-- The stages of a line, and the warnings about it. -/
structure Pipeline where
  stages : List Stage
  warnings : List LineWarning
  deriving DecidableEq, Repr

end GuestShell
