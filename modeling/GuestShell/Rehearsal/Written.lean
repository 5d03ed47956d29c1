import GuestShell.Bytes
import GuestShell.Json.Access
import GuestShell.Rehearsal.Console
import GuestShell.Rehearsal.Engine
import GuestShell.Rehearsal.Network
import GuestShell.Rehearsal.Screen
import GuestShell.Rehearsal.Shell
import GuestShell.Rehearsal.Worker

/-!
# Scripts and transcripts in JSON

A script is written as plain values: a text is a line that is typed, `null` is the end of input, and
`true` is an interrupt.  A command is an object with a `kind` and mostly a `value`.

A transcript is a list of arrays, each with the name of an incident and what there is to know about
it, or of objects where an incident has several parts.
-/

namespace GuestShell.Rehearsal

/-! ## Scripts -/

/-- A line that is typed, or the end of input. -/
def lineOf : Json → Option String
  | .str s => some s
  | _ => none

/-- What happens when a console reads a line. -/
def Cue.ofJson (j : Json) : Cue :=
  match j with
  | .str s => .line s
  | .bool _ => .interrupt
  | .obj _ => .dispose (j.textAt "dispose")
  | _ => .ended

/-- How a question of a worker is answered. -/
def WorkerCue.ofJson (j : Json) : WorkerCue :=
  match j with
  | .bool _ => .cancel
  | j => .deliver (lineOf j)

/-- A piece of a stream. -/
def pieceOf (j : Json) : Except CommandError String :=
  if j.has "error" then .error ⟨j.textAt "error"⟩ else .ok j.asText

/-- What a callable command does. -/
def Behavior.ofJson (j : Json) : Behavior :=
  let value := j.textAt "value"
  match j.textAt "kind" with
  | "text" => .say value
  | "unit" => .say ""
  | "args" => .echo
  | "stdin" => .relay ""
  | "show" => .display
  | "reverse" => .reverse
  | "error" => .fail value
  | "future" => .sayLater value
  | "future_error" => .failLater value
  | "stream" => .sayPieces ((j.itemsAt "chunks").map pieceOf)
  | "nested" => .nest value
  | "interrupt" => .interrupt
  | "running" => .tellRunning
  | _ => .unregister value

/-- A typed value: an object with the type for its name. -/
def value? (j : Json) : Option Value :=
  if j.has "i32" then some (.i32 (.ofInt (j.intAt "i32")))
  else if j.has "i64" then some (.i64 (.ofInt (j.intAt "i64")))
  else none

/-- What a host replies, and whether an interrupt comes before it. -/
def replyOf (j : Json) : Reply × Bool :=
  (if j.has "exit" then .stop (.exit (.ofInt (j.intAt "exit")))
    else if j.has "fault" then .stop (.fault (j.textAt "fault"))
    else if j.has "interrupted" then .stop .interrupted
    else if j.has "n" then .number (.ofInt (j.intAt "n"))
    else .value (value? j), j.boolAt "interrupt")

/-- The entry point that a host chooses, or refuses to choose. -/
def entryOf (j : Json) : Except EngineError EntryCall :=
  let name := j.textAt "name"
  if j.boolAt "refuse" then .error (.missingExport name)
  else .ok ⟨name, (j.itemsAt "args").filterMap value?⟩

/-! ## Transcripts -/

/-- Texts as an array. -/
def ofTexts (l : List String) : Json := .arr (l.map .str)

/-- A typed value. -/
def ofValue : Value → Json
  | .i32 v => .obj [("i32", .int v.toInt)]
  | .i64 v => .obj [("i64", .int v.toInt)]

/-- The exports that an engine incident tells about: the usual entry points, another name, and the
empty one. -/
def toldExports : List String := ["main", "_start", "run", ""]

/-- What a host was asked. -/
def EngineIncident.toJson : EngineIncident → Json
  | entry exports size =>
    .obj [("entry", .arr (toldExports.map fun n => .bool (exports.contains n))),
      ("memory", .int size)]
  | call name args size =>
    .obj [("call", .str name), ("args", .arr (args.map ofValue)), ("memory", .int size)]

/-- What was seen of a screen. -/
def ScreenIncident.toJson : ScreenIncident → Json
  | wrote text => ofTexts ["write", text]
  | read prompt => ofTexts ["read", prompt]

/-- What was seen of a shell. -/
def ShellIncident.toJson : ShellIncident → Json
  | stdout chunk => ofTexts ["stdout", Bytes.hex chunk]
  | stderr chunk => ofTexts ["stderr", Bytes.hex chunk]
  | read caption => ofTexts ["read", caption]
  | filesChanged files => .arr [.str "files", .int files.length]

/-- A text or `null`. -/
def ofText? : Option String → Json
  | some s => .str s
  | none => .null

/-- The value of a header as it is read: blanks around it do not count. -/
def headerText (m : HttpMessage) (name : String) : Option String :=
  (m.header? name).map Text.trim

/-- The headers of a message that nothing but the message itself asks for. -/
def extraHeaders (m : HttpMessage) : List (String × String) :=
  m.headers.filter fun h => Text.startsWith h.1 "x-"

/-- What reached a host.  To accept everything is the same as to say nothing about it. -/
def messageJson (m : HttpMessage) : Json :=
  .obj [("method", .str m.method.name), ("path", .str m.address.target),
    ("body", .str (Text.decodeLossy m.body)),
    ("accept", ofText? ((headerText m "accept").filter (· != "*/*"))),
    ("content_type", ofText? (headerText m "content-type")),
    ("x", .arr ((extraHeaders m).map fun h => ofTexts [h.1, Text.trim h.2]))]

/-- What a hook was told. -/
def hookJson : Hook → List Json
  | .activated => [.str "activated"]
  | .disposed => [.str "disposed"]
  | .beforeLine => [.str "before"]
  | .afterLine => [.str "finish"]
  | .filesChanged files => [.str "files", .int files.length]

/-- What was seen of a console. -/
def ConsoleIncident.toJson : ConsoleIncident → Json
  | wrote text => ofTexts ["write", text]
  | read prompt inFlight => .arr [.str "read", .str prompt, .bool inFlight]
  | prompted caption => ofTexts ["prompt", caption]
  | interrupted hit => .arr [.str "interrupt", .bool hit]
  | hook h => .arr (.str "hook" :: hookJson h)

/-- Whether hooks were told. -/
def ConsoleIncident.isHook : ConsoleIncident → Bool
  | hook _ => true
  | _ => false

end GuestShell.Rehearsal
