import GuestShell.CommandLine
import Std.Time.DateTime.Timestamp

/-!
# The program

Answers what the command line program asks with the standard streams, the files and the clock of the
process.  There is no network here, so an address on the network cannot be reached; programs come from
a directory.
-/

namespace GuestShell.Main

/-- The number of an error of the system; some come with a minus sign. -/
def systemNumber (code : UInt32) : UInt32 := if code < 0x80000000 then code else 0 - code

/-- What an error of the system says about a file. -/
def diskError (e : IO.Error) : DiskError :=
  match e with
  | .noFileOrDirectory .. => .noEntry
  | .permissionDenied .. => .permissionDenied
  | .inappropriateType _ code _ => if systemNumber code = 20 then .notADirectory else .isADirectory
  | .invalidArgument _ code _ =>
    if systemNumber code = 36 then .nameTooLong else .other (toString e)
  | _ => .other (toString e)

/-- Reads a file. -/
def readFile (path : String) : IO (Except DiskError Bytes) := do
  try
    return .ok (← IO.FS.readBinFile path).toList
  catch e => return .error (diskError e)

/-- Reads a line of the standard input.  What is no text ends the input. -/
def readLine : IO (Option String) := do
  try
    let line ← (← IO.getStdin).getLine
    return if line.isEmpty then none else some line
  catch _ => return none

/-- Shows a text at once. -/
def write (text : String) : IO Unit := do
  let output ← IO.getStdout
  output.putStr text
  output.flush

/-- The time of day. -/
def now : IO Moment := do
  let t ← Std.Time.Timestamp.now
  return UInt64.ofNat t.toMillisecondsSinceUnixEpoch.val.toNat

/-- Answers what the program asks. -/
def answer : (r : CommandLine.Request) → IO (CommandLine.Answer r)
  | .write text => write text
  | .readLine => readLine
  | .fetch (.read path) => readFile path
  | .fetch (.exchange _) => return Except.error "no network"
  | .clock => now

/-- Lets the program do something with its console. -/
def run {α : Type} (o : CommandLine.Operation α) (c : Console Empty) : IO (α × Console Empty) :=
  (o.run c).interpret answer

/-- Reads and runs lines until there are no more. -/
partial def loop (c : Console Empty) : IO (Console Empty) := do
  let (more, c) ← run CommandLine.turn c
  if more then loop c else return c

end GuestShell.Main

/-- Runs the console on the standard streams. -/
def main (args : List String) : IO UInt32 := do
  let config ← IO.getEnv "WASMTERM_CONFIG"
  match ← (GuestShell.CommandLine.start config args).interpret GuestShell.Main.answer with
  | .error reason =>
    IO.eprintln (GuestShell.CommandLine.complaint reason)
    return 1
  | .ok c =>
    let (_, c) ← GuestShell.Main.run GuestShell.CommandLine.activate c
    let c ← GuestShell.Main.loop c
    let _ ← GuestShell.Main.run GuestShell.CommandLine.dispose c
    return 0
