import GuestShell.Shell.Dispatch
import GuestShell.Terminal.Screen

/-!
# The console

The console puts a shell behind a terminal.  It reads lines, runs them, keeps the history, and tells
its hooks what happens.  Two commands are its own: `help` lists the commands, and `clear` clears the
terminal and shows the welcome text.

Like the shell, the console is shared: whoever answers one of its requests may interrupt the run in
flight, register a command, or dispose of the console.
-/

namespace GuestShell

/-- What commands of a console are made of: its own ones, and those of its host. -/
inductive ConsoleCommand (κ : Type) where
  | help
  | clear
  | hosted (c : κ)

/-- A shell behind a terminal. -/
structure Console (κ : Type) where
  prompt : String
  /-- Whether activation shows the welcome text. -/
  welcomes : Bool
  /-- Whether the reader of the terminal goes to the next line by itself. -/
  echoes : Bool
  shell : Shell (ConsoleCommand κ)
  gate : Gate
  history : History
  active : Bool

/-- What the hooks are told. -/
inductive Hook where
  | activated
  | disposed
  | beforeLine
  | afterLine
  | filesChanged (files : List SavedFile)

namespace Console

variable {κ ρ : Type}

/-- The console of a configuration, not active yet. -/
def ofConfig (c : Config) (p : Platform) (echoes : Bool) : Except SessionError (Console κ) :=
  (Shell.ofConfig c p).map fun shell =>
    ⟨c.prompt, c.welcome, echoes, shell, .opened, .empty c.historySize, false⟩

/-! ## Looking and changing -/

/-- The names of the commands, in ascending order. -/
def commands (c : Console κ) : List String := c.shell.registry.names

/-- Whether a program is looked up or run. -/
def isRunning (c : Console κ) : Bool := c.shell.session.taken

/-- The welcome text. -/
def welcomeText (commands : List String) (backend : String) : String :=
  "\x1b[1;32mwasmterm\x1b[0m\n" ++
    "Run WebAssembly binaries built for a POSIX or a WASI (libc) target.\n" ++
    "You can also register and run your own commands.\n\n" ++
    "Commands: " ++ Text.joined ", " commands ++ ". Backend: " ++ backend ++ ".\n\n"

/-- The list of commands that `help` shows. -/
def helpText (commands : List String) : String :=
  "Commands: " ++ Text.joined ", " commands ++ "\n"

/-- The welcome text of the console. -/
def welcome (c : Console κ) : String := welcomeText c.commands c.shell.context.backend.name

/-- What a line can be completed with. -/
def complete (c : Console κ) (line : String) : Completion := c.shell.registry.complete line

/-- Registers a command. -/
def register (c : Console κ) (name : String) (command : ConsoleCommand κ) (hints : List String) :
    Console κ :=
  { c with shell := { c.shell with registry := c.shell.registry.register name command hints } }

/-- Takes a command away; says whether there was one. -/
def unregister (c : Console κ) (name : String) : Bool × Console κ :=
  (c.shell.registry.contains name,
    { c with shell := { c.shell with registry := c.shell.registry.erase name } })

/-- Interrupts the run in flight and drops what it still writes; says whether there was one. -/
def interrupt (c : Console κ) : Bool × Console κ :=
  let (hit, context) := c.shell.context.interrupt
  (hit, { c with shell := { c.shell with context := context }, gate := c.gate.afterInterrupt hit })

/-! ## Requests -/

/-- What a console asks its surroundings. -/
inductive Request (κ ρ : Type) where
  | write (text : String)
  | read (prompt : String)
  /-- Asks with a blocking prompt; none if it was dismissed. -/
  | prompt (caption : String)
  /-- Whether the side of the terminal has its turn before a worker goes on. -/
  | hasTurn (waiting ahead : Nat)
  | get (url : String)
  | post (url body : String)
  | clock
  | note (o : Observation)
  /-- Calls a command of the host. -/
  | invoke (c : κ) (args : List String) (input : Option String)
  | await (later : ρ)
  | chunks (later : ρ)
  | hook (h : Hook)

/-- The answers to the requests. -/
abbrev Answer : Request κ ρ → Type
  | .write _ => Unit
  | .read _ => Session.Reading
  | .prompt _ => Option String
  | .hasTurn .. => Bool
  | .get _ => Except FetchError Bytes
  | .post _ _ => Except FetchError Bytes
  | .clock => Moment
  | .note _ => Unit
  | .invoke .. => Except CommandError (CommandOutput ρ)
  | .await _ => Except CommandError String
  | .chunks _ => List (Except CommandError String)
  | .hook _ => Unit

end Console

/-- A console at work. -/
abbrev Operating (κ ρ α : Type) := SharedTask (Console κ) (Console.Request κ ρ) Console.Answer α

namespace Console

variable {κ ρ : Type}

/-- Asks a request. -/
def ask (r : Request κ ρ) : Operating κ ρ (Answer r) := SharedTask.request r

/-! ## Screen and shell -/

/-- A console at work on the screen of a line. -/
abbrev OnScreen (κ ρ α : Type) := StateT Screen (Operating κ ρ) α

/-- Asks a request. -/
def askOn (r : Request κ ρ) : OnScreen κ ρ (Answer r) := StateT.lift (ask r)

/-- Answers what a screen asks. -/
def serveScreen : (r : Screen.Request) → Operating κ ρ (Screen.Answer r)
  | .write text => ask (.write text)
  | .read prompt => ask (.read prompt)

/-- Draws on the screen. -/
def draw {α : Type} (d : Screen.Drawing α) : OnScreen κ ρ α := fun screen =>
  (d.run screen).interpret (return (← get).gate) (fun g => modify fun c => { c with gate := g })
    serveScreen

/-- Calls a command. -/
def invoke : ConsoleCommand κ → List String → Option String →
    Operating κ ρ (Except CommandError (CommandOutput ρ))
  | .help, _, _ => return .ok (.text (helpText (← get).commands))
  | .clear, _, _ => do
    ask (.write Screen.clearAll)
    return .ok (.text (← get).welcome)
  | .hosted c, args, input => ask (.invoke c args input)

/-- Answers what a shell asks. -/
def serveShell : (r : Shell.Request (ConsoleCommand κ) ρ) → OnScreen κ ρ (Shell.Answer r)
  | .stdout chunk => draw (Screen.write chunk)
  | .stderr chunk => draw (Screen.write chunk)
  | .status text => draw (Screen.status text)
  | .readLine caption => do draw (Screen.readLine (← getThe (Console κ)).echoes caption)
  | .prompt caption => askOn (.prompt caption)
  | .hasTurn waiting ahead => askOn (.hasTurn waiting ahead)
  | .get url => askOn (.get url)
  | .post url body => askOn (.post url body)
  | .clock => askOn .clock
  | .note o => askOn (.note o)
  | .invoke c args input => StateT.lift (invoke c args input)
  | .await later => askOn (.await later)
  | .chunks later => askOn (.chunks later)
  | .filesChanged files => askOn (.hook (.filesChanged files))

/-- Does something in the shell. -/
def inShell {α : Type} (t : Dispatching (ConsoleCommand κ) ρ α) : OnScreen κ ρ α :=
  t.interpret (return (← getThe (Console κ)).shell)
    (fun s => modifyThe (Console κ) fun c => { c with shell := s }) serveShell

/-! ## Operating -/

/-- Runs a line on a screen of its own, and leaves the cursor at the start of a line. -/
def runLine (line : String) : Operating κ ρ Unit := do
  modify fun c => { c with gate := .opened }
  let (_, screen) ← (do inShell (Shell.runLine line); draw Screen.flush :
    OnScreen κ ρ Unit).run .fresh
  if !screen.atLineStart then ask (.write Screen.nextLine)

/-- Replaces the files. -/
def setFiles (files : List SavedFile) : Operating κ ρ Unit :=
  (inShell (Shell.setFiles files)).run' .fresh

/-- Takes in modules that are supplied as files; gives their names. -/
def ingest (files : List (String × Bytes)) : Operating κ ρ (Except ResolveError (List String)) :=
  (inShell (Shell.ingest files)).run' .fresh

/-- Registers the console's own commands and shows the welcome text. -/
def activate : Operating κ ρ Unit := do
  modify fun c => (c.register "help" .help []).register "clear" .clear []
  modify fun c => { c with active := true }
  let c ← get
  if c.welcomes then ask (.write (Text.crlf c.welcome))
  ask (.hook .activated)

/-- Stops what runs, for good, and ends the reading of lines. -/
def dispose : Operating κ ρ Unit := do
  modify fun c => { c with
    active := false
    shell := { c.shell with context := c.shell.context.terminate } }
  ask (.hook .disposed)

/-- Reads a line and runs it; says whether another one is to be read. -/
def turn : Operating κ ρ Bool := do
  if !(← get).active then return false
  match ← ask (.read (← get).prompt) with
  | .line text =>
    if !(← get).active then return false
    if !(← get).echoes then ask (.write Screen.nextLine)
    if Text.isBlankText text then return true
    modify fun c => { c with history := c.history.push text }
    ask (.hook .beforeLine)
    runLine text
    ask (.hook .afterLine)
    modify fun c => { c with history := c.history.rewind }
    return true
  | _ => return false

/-- Reads and runs lines until there are no more, at most the given number of them. -/
def repl : Nat → Operating κ ρ Unit
  | 0 => return
  | n + 1 => do if ← turn then repl n

end Console

end GuestShell
