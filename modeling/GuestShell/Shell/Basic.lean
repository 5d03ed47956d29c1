import GuestShell.Catalog.Basic
import GuestShell.Pipeline.Commands
import GuestShell.Session.Basic
import GuestShell.Session.Slot
import GuestShell.Shell.Callable

/-!
# The shell

The shell has what lines of input work with: the registered commands, the catalog of programs, the
context in which programs run, and the files that go from run to run.  It runs one line at a time,
and one session at a time within a line.

The shell is shared: while a line waits for something, those who answer can look at the shell and
change it.  So everything it does is a task on a shared state.
-/

namespace GuestShell

/-- Why a line stops before its end. -/
inductive DispatchError where
  | session (e : SessionError)
  | command (e : CommandError)
  | run (e : RunError)
  deriving DecidableEq

namespace DispatchError

/-- The wording of a dispatch error. -/
def message : DispatchError → String
  | session e => e.message
  | command e => e.message
  | run e => e.message

/-- Whether the line was interrupted, which nobody has to be told. -/
def isInterrupt : DispatchError → Bool
  | session .interrupted => true
  | run .interrupted => true
  | _ => false

end DispatchError

/-- What lines of input work with; `κ` is what callable commands are made of. -/
structure Shell (κ : Type) where
  catalog : Catalog
  registry : Registry κ
  cache : CatalogCache
  context : Context
  /-- The files that the next program finds. -/
  files : List SavedFile
  /-- Taken while a line is run. -/
  line : Slot
  /-- Taken while a program is looked up and run. -/
  session : Slot

namespace Shell

variable {κ ρ : Type}

/-- The shell of a configuration before its first line. -/
def ofConfig (c : Config) (p : Platform) : Except SessionError (Shell κ) :=
  (Context.ofConfig c p).map fun context =>
    ⟨.ofConfig c, Dict.empty, Dict.empty, context, [], .vacant, .vacant⟩

/-! ## Requests -/

/-- What the shell asks its surroundings.  Callable commands are of the type `κ`, and what is still
to come of their output is of the type `ρ`. -/
inductive Request (κ ρ : Type) where
  | stdout (chunk : Bytes)
  | stderr (chunk : Bytes)
  /-- Shows a text for the time being. -/
  | status (text : String)
  | readLine (caption : String)
  | prompt (caption : String)
  /-- Whether the side of the terminal has its turn before a worker goes on. -/
  | hasTurn (waiting ahead : Nat)
  | get (url : String)
  | post (url body : String)
  | clock
  | note (o : Observation)
  /-- Calls a callable command. -/
  | invoke (c : κ) (args : List String) (input : Option String)
  /-- Waits for a text that comes later. -/
  | await (later : ρ)
  /-- Waits for the texts of a stream, up to its end. -/
  | chunks (later : ρ)
  /-- Tells that the files were replaced. -/
  | filesChanged (files : List SavedFile)

/-- The answers to the requests. -/
abbrev Answer : Request κ ρ → Type
  | .stdout _ => Unit
  | .stderr _ => Unit
  | .status _ => Unit
  | .readLine _ => Session.Reading
  | .prompt _ => Option String
  | .hasTurn .. => Bool
  | .get _ => Except FetchError Bytes
  | .post _ _ => Except FetchError Bytes
  | .clock => Moment
  | .note _ => Unit
  | .invoke .. => Except CommandError (CommandOutput ρ)
  | .await _ => Except CommandError String
  | .chunks _ => List (Except CommandError String)
  | .filesChanged _ => Unit

end Shell

/-- The shell at work. -/
abbrev Dispatching (κ ρ α : Type) := SharedTask (Shell κ) (Shell.Request κ ρ) Shell.Answer α

namespace Shell

variable {κ ρ : Type}

/-- Asks a request. -/
def ask (r : Request κ ρ) : Dispatching κ ρ (Answer r) := SharedTask.request r

/-! ## Parts of the shell -/

/-- Replaces the files, and tells so. -/
def setFiles (files : List SavedFile) : Dispatching κ ρ Unit := do
  modify fun s => { s with files := files }
  ask (.filesChanged files)

/-- Answers what a lookup asks. -/
def serveLookup : (r : Catalog.Request) → Dispatching κ ρ (Catalog.Answer r)
  | .get url => ask (.get url)
  | .post url body => ask (.post url body)
  | .cached name => return (← get).cache.find? name
  | .keep name e => modify fun s => { s with cache := s.cache.insert name e }

/-- Looks something up. -/
def look {α : Type} (l : Catalog.Lookup α) : Dispatching κ ρ (Except ResolveError α) :=
  l.run.interpret serveLookup

/-- Takes in modules that are supplied as files; gives their names. -/
def ingest (files : List (String × Bytes)) : Dispatching κ ρ (Except ResolveError (List String)) :=
  look (Catalog.ingest files)

/-- Answers what a session asks. -/
def serveSession : (r : Session.Request) → Dispatching κ ρ (Session.Answer r)
  | .stdout chunk => ask (.stdout chunk)
  | .stderr chunk => ask (.stderr chunk)
  | .readLine caption => ask (.readLine caption)
  | .prompt caption => ask (.prompt caption)
  | .hasTurn waiting ahead => ask (.hasTurn waiting ahead)
  | .clock => ask .clock
  | .note o => ask (.note o)

/-- Does something in the context of the shell. -/
def inContext {α : Type} (t : Sitting α) : Dispatching κ ρ α :=
  t.interpret (return (← get).context) (fun c => modify fun s => { s with context := c })
    serveSession

end Shell

end GuestShell
