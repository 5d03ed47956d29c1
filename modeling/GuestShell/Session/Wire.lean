import GuestShell.Json.Parser
import GuestShell.Json.Printer
import GuestShell.Json.Record
import GuestShell.Sandbox.Abi
import GuestShell.Session.Worker

/-!
# The written form of jobs and events

Where a worker does not share memory with the terminal, jobs and events travel as JSON.

* A job is a record with the fields of its invocation, the interface, the glue, and whether anybody
  watches.
* An event is an object whose member `event` names the kind of event and whose other members are the
  fields of that kind; it may also be an array, the name first.  A failure is written as a message,
  an exit code if there is one, and a mark for an interrupt: what else there is to know about it does
  not travel.
-/

namespace GuestShell.Wire

/-! ## Saved files -/

/-- The members of a saved file. -/
def fileFields : List String := ["path", "timestamp", "bytes"]

/-- A saved file as an object. -/
def ofFile (f : SavedFile) : Json :=
  .obj [("path", .str f.path), ("timestamp", .int f.timestamp.toNat), ("bytes", .ofBytes f.bytes)]

/-- A saved file from an object or an array. -/
def file? (j : Json) : Option SavedFile := do
  let f ← Json.Fields.ofJson? fileFields j
  return {
    path := ← f.required "path" Json.text?
    timestamp := .ofNat (← f.required "timestamp" (Json.natBelow? UInt64.size))
    bytes := ← f.required "bytes" Json.bytes? }

/-- A text, or `null` for none. -/
def ofText? : Option String → Json
  | some s => .str s
  | none => .null

/-- A byte string, or `null` for none. -/
def ofBytes? : Option Bytes → Json
  | some b => .ofBytes b
  | none => .null

/-! ## Jobs -/

/-- What a worker is told to do; the module travels beside it. -/
structure Job where
  invocation : Invocation
  abi : Abi
  glue : Option Bytes
  headless : Bool

namespace Job

/-- The fields of a job, in their order. -/
def fieldNames : List String := ["program", "args", "files", "stdin", "abi", "glue", "headless"]

/-- The written names of the interfaces. -/
def abiNames : List (String × Abi) := [("posix", .posix), ("libc", .libc)]

/-- A job as JSON. -/
def toJson (j : Job) : Json :=
  .obj [("program", .str j.invocation.program), ("args", .arr (j.invocation.args.map .str)),
    ("files", .arr (j.invocation.files.map ofFile)), ("stdin", ofText? j.invocation.input),
    ("abi", .str j.abi.name), ("glue", ofBytes? j.glue), ("headless", .bool j.headless)]

/-- The job that a JSON value stands for. -/
def ofJson? (j : Json) : Option Job := do
  let f ← Json.Fields.ofJson? fieldNames j
  let program ← f.required "program" Json.text?
  let args ← f.required "args" (Json.listOf? Json.text?)
  let files ← f.required "files" (Json.listOf? file?)
  let input ← f.optional "stdin" Json.text?
  return {
    invocation := ⟨program, args, files, input⟩
    abi := ← f.required "abi" (Json.wordIn? abiNames)
    glue := ← f.optional "glue" Json.bytes?
    headless := ← f.required "headless" Json.bool? }

/-- The job that a text stands for. -/
def ofText? (text : String) : Option Job := Json.ofString? text >>= ofJson?

end Job

/-! ## Events -/

/-- An event as it travels. -/
inductive Event where
  | stdout (data : Bytes)
  | stderr (data : Bytes)
  | readLine (caption : String)
  | failed (message : String) (exitCode : Option Int32) (interrupted : Bool)
  | finished (files : List SavedFile)

namespace Event

/-- What travels of a failure. -/
def ofError (e : RunError) : Event :=
  match e with
  | .exit code => .failed e.message (some code) false
  | .interrupted => .failed e.message none true
  | .engine (.aborted reason) => .failed reason none false
  | .engine (.instantiationFailed reason) => .failed reason none false
  | .engine _ => .failed e.message none false

/-- What travels of an event. -/
def ofEvent : Worker.Event → Event
  | .stdout chunk => .stdout chunk
  | .stderr chunk => .stderr chunk
  | .readLine caption => .readLine caption
  | .failed e => ofError e
  | .finished files => .finished files

/-- The failure that has travelled: an exit code comes first, then the mark for an interrupt. -/
def error (message : String) (exitCode : Option Int32) (interrupted : Bool) : RunError :=
  match exitCode with
  | some code => .exit code
  | none => if interrupted then .interrupted else .engine (.aborted message)

/-- The event that has travelled. -/
def toEvent : Event → Worker.Event
  | .stdout data => .stdout data
  | .stderr data => .stderr data
  | .readLine caption => .readLine caption
  | .failed message exitCode interrupted => .failed (error message exitCode interrupted)
  | .finished files => .finished files

/-- The name of the member that names the kind of event. -/
def tag : String := "event"

/-- An exit code, or `null` for none. -/
def ofCode? : Option Int32 → Json
  | some c => .int c.toInt
  | none => .null

/-- An exit code. -/
def code? (j : Json) : Option Int32 := (Json.intIn? (-0x80000000) 0x7fffffff j).map .ofInt

/-- An event as JSON. -/
def toJson : Event → Json
  | .stdout data => .obj [(tag, .str "stdout"), ("data", .ofBytes data)]
  | .stderr data => .obj [(tag, .str "stderr"), ("data", .ofBytes data)]
  | .readLine caption => .obj [(tag, .str "read_line"), ("caption", .str caption)]
  | .failed message exitCode interrupted =>
    .obj [(tag, .str "failed"), ("message", .str message), ("exit_code", ofCode? exitCode),
      ("interrupted", .bool interrupted)]
  | .finished files => .obj [(tag, .str "finished"), ("files", .arr (files.map ofFile))]

/-- The kind of an event, and what holds its fields. -/
def tagged? : Json → Option (String × Json)
  | .obj members =>
    match members.filter fun m => m.1 == tag with
    | [(_, .str kind)] => some (kind, .obj (members.filter fun m => m.1 != tag))
    | _ => none
  | .arr (.str kind :: fields) => some (kind, .arr fields)
  | _ => none

/-- The event of a kind with its fields in a JSON value. -/
def ofFields? (kind : String) (fields : Json) : Option Event := do
  match kind with
  | "stdout" =>
    let f ← Json.Fields.ofJson? ["data"] fields
    return .stdout (← f.required "data" Json.bytes?)
  | "stderr" =>
    let f ← Json.Fields.ofJson? ["data"] fields
    return .stderr (← f.required "data" Json.bytes?)
  | "read_line" =>
    let f ← Json.Fields.ofJson? ["caption"] fields
    return .readLine (← f.required "caption" Json.text?)
  | "failed" =>
    let f ← Json.Fields.ofJson? ["message", "exit_code", "interrupted"] fields
    return .failed (← f.required "message" Json.text?) (← f.optional "exit_code" code?)
      (← f.required "interrupted" Json.bool?)
  | "finished" =>
    let f ← Json.Fields.ofJson? ["files"] fields
    return .finished (← f.required "files" (Json.listOf? file?))
  | _ => none

/-- The event that a JSON value stands for.  As the kind may come last, all of the value is kept
until it is known, members that do not belong to the event as well. -/
def ofJson? (j : Json) : Option Event := do
  if !j.isKeepable then none
  let (kind, fields) ← tagged? j
  ofFields? kind fields

/-- The event that a text stands for. -/
def ofText? (text : String) : Option Event := Json.ofString? text >>= ofJson?

end Event

end GuestShell.Wire
