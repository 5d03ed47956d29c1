import GuestShell.Http.Address
import GuestShell.Json.Parser
import GuestShell.Json.Record
import GuestShell.Terminal.History
import GuestShell.Text.Blank

/-!
# Configuration

Every setting has a default, so an empty object is a configuration.  A configuration is read from
JSON and then checked: the history must hold something, the worker script must have a place, and the
registry, if there is one, must be an http(s) address.
-/

namespace GuestShell

/-- Where programs run. -/
inductive ExecutionMode where
  /-- On a worker if the platform has them, else in the foreground. -/
  | auto
  | foreground
  | background
  deriving DecidableEq, Repr

/-- The settings of a terminal. -/
structure Config where
  /-- Where module files, glue and links are looked up. -/
  binPath : String := "bin"
  /-- The address of the package registry; none turns it off. -/
  registryUrl : Option String := some "https://registry.wapm.io/graphql"
  /-- How many lines the history keeps. -/
  historySize : Nat := History.defaultSize
  prompt : String := "$ "
  execution : ExecutionMode := .auto
  workerUrl : String := "./worker.js"
  /-- Whether activation prints the welcome text. -/
  welcome : Bool := true

/-- Why a configuration cannot be used. -/
inductive ConfigError where
  | unreadable (reason : String)
  | invalid (field reason : String)

/-- The wording of a configuration error. -/
def ConfigError.message : ConfigError → String
  | unreadable reason => "invalid config: " ++ reason
  | invalid field reason => "invalid config field '" ++ field ++ "': " ++ reason

namespace Config

/-- The written names of the execution modes. -/
def executionNames : List (String × ExecutionMode) :=
  [("auto", .auto), ("foreground", .foreground), ("background", .background)]

/-- The written name of an execution mode. -/
def executionName : ExecutionMode → String
  | .auto => "auto"
  | .foreground => "foreground"
  | .background => "background"

/-- The names of the settings, in their order. -/
def fieldNames : List String :=
  ["bin_path", "registry_url", "history_size", "prompt", "execution", "worker_url", "welcome"]

/-- The settings that a JSON value gives, defaults for the others. -/
def ofJson? (j : Json) : Option Config := do
  let f ← Json.Fields.ofJson? fieldNames j
  let d : Config := {}
  return {
    binPath := ← f.withDefault "bin_path" d.binPath Json.text?
    registryUrl := ← f.withDefault "registry_url" d.registryUrl (Json.orNull? Json.text?)
    historySize := ← f.withDefault "history_size" d.historySize (Json.natBelow? UInt64.size)
    prompt := ← f.withDefault "prompt" d.prompt Json.text?
    execution := ← f.withDefault "execution" d.execution (Json.wordIn? executionNames)
    workerUrl := ← f.withDefault "worker_url" d.workerUrl Json.text?
    welcome := ← f.withDefault "welcome" d.welcome Json.bool? }

/-- The settings as JSON; `ofJson?` reads them back. -/
def toJson (c : Config) : Json :=
  .obj [("bin_path", .str c.binPath),
    ("registry_url", match c.registryUrl with
      | some url => .str url
      | none => .null),
    ("history_size", .int c.historySize), ("prompt", .str c.prompt),
    ("execution", .str (executionName c.execution)), ("worker_url", .str c.workerUrl),
    ("welcome", .bool c.welcome)]

/-- The first setting that cannot be used. -/
def fault? (c : Config) : Option ConfigError :=
  if c.historySize = 0 then some (.invalid "history_size" "must be at least 1")
  else if c.workerUrl = "" then some (.invalid "worker_url" "must not be empty")
  else
    match c.registryUrl with
    | some url =>
      if HttpAddress.isUrl url then none
      else some (.invalid "registry_url" ("not an http(s) url: " ++ url))
    | none => none

/-- Reads and checks a configuration. -/
def ofText (json : String) : Except ConfigError Config :=
  match Json.ofString? json >>= ofJson? with
  | none => .error (.unreadable "not a configuration")
  | some c =>
    match c.fault? with
    | some e => .error e
    | none => .ok c

/-- The directory of module files: the path without the slashes at its end, but for the root. -/
def binDirectory (c : Config) : String :=
  let trimmed := Text.trimEnd (· == '/') c.binPath
  if trimmed = "" && Text.startsWith c.binPath "/" then "/" else trimmed

end Config

end GuestShell
