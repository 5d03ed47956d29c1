import GuestShell.CommandLine
import GuestShell.Rehearsal.Network

/-!
# Rehearsing the command line program

The standard input is fixed, the files are on a disk, and there is no network.  What the program shows
is put together to one text.
-/

namespace GuestShell.Rehearsal

/-- The surroundings of the program. -/
structure ProcessStage where
  disk : Disk
  /-- What is left of the standard input. -/
  input : List Char
  clock : Moment
  /-- What was shown, the last piece first. -/
  output : List String

namespace ProcessStage

/-- Something that happens on the stage. -/
abbrev Play (α : Type) := StateM ProcessStage α

/-- The first line, with the line feed that ends it, and the rest. -/
def firstLine (cs : List Char) : List Char × List Char :=
  let line := cs.takeWhile (· != '\n')
  (line ++ (cs.drop line.length).take 1, cs.drop (line.length + 1))

/-- Answers what the program asks. -/
def serve : (r : CommandLine.Request) → Play (CommandLine.Answer r)
  | .write text => modify fun s => { s with output := text :: s.output }
  | .readLine => modifyGet fun s =>
    let (line, rest) := firstLine s.input
    (if s.input = [] then none else some (String.ofList line), { s with input := rest })
  | .fetch (.read path) => return (← get).disk.read path
  | .fetch (.exchange _) => return Except.error NetworkStage.refused
  | .clock => return (← get).clock

/-- Runs the program.  Every turn but the last takes a line of the input. -/
def run (configPath : Option String) (args : List String) : Play (Except String Unit) := do
  match ← (CommandLine.start configPath args).interpret serve with
  | .error reason => return .error reason
  | .ok console =>
    let lines := (← get).input.length
    let _ ← ((CommandLine.work (lines + 1)).run console).interpret serve
    return .ok ()

/-- What goes before the reason why settings cannot be read; the reason has no fixed wording. -/
def beforeReason : String := "invalid config:"

/-- A line up to and with a mark, if it holds it. -/
def upTo (mark : List Char) : List Char → List Char
  | [] => []
  | c :: cs => if mark.isPrefixOf (c :: cs) then mark else c :: upTo mark cs

/-- The lines of the complaint of a program that did not start. -/
def complaints : Except String Unit → List String
  | .ok () => []
  | .error reason =>
    let lines := (Text.splitOn (· == '\n') (CommandLine.complaint reason).toList)
    (lines.filter (CommandLine.complaint "").toList.isPrefixOf).map fun l =>
      String.ofList (upTo beforeReason.toList l)

/-- All that was shown. -/
def shown (s : ProcessStage) : String := Text.joined "" s.output.reverse

end ProcessStage

end GuestShell.Rehearsal
