import GuestShell.Http.Request
import GuestShell.Terminal.Console

/-!
# The command line program

The program is a console on the standard streams of its process.  Its settings come from a file, if
one is named, and else the only setting is where programs are looked up, which is the first argument.

Lines for the console and lines for programs in the foreground come from the same standard input.
The program asks five things of its surroundings: to show a text, to read a line, to read a file or
exchange a message, and the time.
-/

namespace GuestShell.CommandLine

/-! ## Requests -/

/-- What the program asks its surroundings. -/
inductive Request where
  | write (text : String)
  /-- Asks for a line with what ends it; none at the end of the input. -/
  | readLine
  | fetch (r : Fetching.Request)
  | clock

/-- The answers to the requests. -/
abbrev Answer : Request → Type
  | .write _ => Unit
  | .readLine => Option String
  | .fetch r => Fetching.Answer r
  | .clock => Moment

/-- The program at work. -/
abbrev Hosting (α : Type) := Task Request Answer α

/-- The program at work with its console; nobody registers commands. -/
abbrev Operation (α : Type) := StateT (Console Empty) Hosting α

/-- Asks a request. -/
def ask (r : Request) : Hosting (Answer r) := Task.request r

/-- Fetches something. -/
def fetch {α : Type} (f : Fetching α) : Hosting α := f.interpret fun r => ask (.fetch r)

/-! ## Settings -/

/-- Where programs are looked up if nothing is said. -/
def defaultBinPath : String := "http://localhost:8080/bin"

/-- The settings in a file. -/
def settingsIn (path : String) (contents : Except DiskError Bytes) : Except String Config :=
  let complain (reason : String) : Except String Config := .error (path ++ ": " ++ reason)
  match contents.map Text.decode? with
  | .error e => complain e.message
  | .ok none => complain DiskError.notText.message
  | .ok (some json) =>
    match Config.ofText json with
    | .error e => complain e.message
    | .ok c => .ok c

/-- The settings: those in the file that is named, or those of the arguments. -/
def settings (configPath : Option String) (args : List String) : Hosting (Except String Config) := do
  match configPath with
  | some path => return settingsIn path (← ask (.fetch (.read path)))
  | none => return .ok { binPath := args.headD defaultBinPath }

/-- The console to work with, or why there is none. -/
def start (configPath : Option String) (args : List String) :
    Hosting (Except String (Console Empty)) := do
  match ← settings configPath args with
  | .error reason => return .error reason
  | .ok config => return (Console.ofConfig config .native true).mapError SessionError.message

/-- What is said when the program cannot start. -/
def complaint (reason : String) : String := "wasmterm: " ++ reason

/-! ## Working -/

/-- Reads a line, without what ends it. -/
def readLine : Hosting (Option String) := do
  let line ← ask .readLine
  return line.map (Text.trimEnd fun c => c == '\n' || c == '\r')

/-- Shows a text and reads a line. -/
def readAfter (text : String) : Hosting (Option String) := do
  ask (.write text)
  readLine

/-- Answers what the console asks. -/
def serve : (r : Console.Request Empty Empty) → Hosting (Console.Answer r)
  | .write text => ask (.write text)
  | .read prompt => do
    match ← readAfter prompt with
    | some line => return .line line
    | none => return .ended
  | .prompt caption => readAfter caption
  | .hasTurn .. => return true
  | .get url => fetch (.get url)
  | .post url body => fetch (.post url body)
  | .clock => ask .clock
  | .note _ => return ()
  | .invoke c _ _ => nomatch c
  | .await later => nomatch later
  | .chunks later => nomatch later
  | .hook _ => return ()

/-- Lets the console do something. -/
def perform {α : Type} (t : Operating Empty Empty α) : Operation α :=
  t.interpret get set fun r => StateT.lift (serve r)

/-- Shows the welcome text. -/
def activate : Operation Unit := perform Console.activate

/-- Reads and runs one line; says whether another one is to be read. -/
def turn : Operation Bool := perform Console.turn

/-- Ends the work. -/
def dispose : Operation Unit := perform Console.dispose

/-- Works for at most the given number of lines. -/
def work (lines : Nat) : Operation Unit := do
  activate
  perform (Console.repl lines)
  dispose

end GuestShell.CommandLine
