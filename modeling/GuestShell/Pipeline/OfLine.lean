import GuestShell.Pipeline.Basic
import GuestShell.Pipeline.Token

/-!
# The pipeline of a line

Reading a line never fails: what cannot be used is left out with a warning.  A pipe ends a stage, a
stage without words is left out, bare words `NAME=value` at the start of a stage are left out, and
an unsupported operator ends the line.  Warnings about quotes come first, because they are about
the words themselves.
-/

namespace GuestShell

/-- Whether a character can begin a variable name. -/
def isNameStart (c : Char) : Bool := c.isAlpha || c == '_'

/-- Whether a character can stand in a variable name. -/
def isNameChar (c : Char) : Bool := c.isAlphanum || c == '_'

/-- Whether a word has the form `NAME=value`, its name made of ASCII letters, digits and
underscores and not beginning with a digit. -/
def isAssignment (word : String) : Bool :=
  let cs := word.toList
  match cs.takeWhile (· != '=') with
  | [] => false
  | c :: name => cs.contains '=' && isNameStart c && name.all isNameChar

/-- A line while it is read: the finished stages, the words of the current one, the warnings, and
whether the last operator was a pipe. -/
structure LineReading where
  stages : List Stage
  words : List String
  warnings : List LineWarning
  sawPipe : Bool

namespace LineReading

/-- Nothing read. -/
def start : LineReading := ⟨[], [], [], false⟩

/-- Ends the current stage; one without words gets a warning if `required`. -/
def finishStage (r : LineReading) (required : Bool) : LineReading :=
  match r.words with
  | [] => if required then { r with warnings := r.warnings ++ [.emptyStage] } else r
  | program :: args => { r with stages := r.stages ++ [⟨program, args⟩], words := [] }

/-- Takes one token into account. -/
def add (r : LineReading) : Token → LineReading
  | .word w =>
    if r.words.isEmpty && w.bare && isAssignment w.text then
      { r with warnings := r.warnings ++ [.assignment w.text] }
    else { r with words := r.words ++ [w.text] }
  | .pipe => { r with sawPipe := true }.finishStage true
  | .operator symbol =>
    { r with warnings := r.warnings ++ [.unsupported symbol], sawPipe := false }

end LineReading

/-- The warnings about open quotes. -/
def quoteWarnings (ts : List Token) : List LineWarning :=
  ts.filterMap fun
    | .word w => w.unclosed.map .unclosed
    | _ => none

namespace Pipeline

/-- The pipeline of a line's tokens. -/
def ofTokens (ts : List Token) : Pipeline :=
  let r := ts.foldl LineReading.add .start
  let r := r.finishStage r.sawPipe
  ⟨r.stages, quoteWarnings ts ++ r.warnings⟩

/-- The pipeline that a line spells. -/
def ofLine (line : String) : Pipeline :=
  ofTokens (tokens line)

end Pipeline

end GuestShell
