import GuestShell.Json.Access
import GuestShell.Shell.Basic

/-!
# Failures in JSON

A failure is written as an object with its kind, its fields, and the failure it comes from as `inner`.
-/

namespace GuestShell

/-- The failure of an engine. -/
def EngineError.ofJson (j : Json) : EngineError :=
  let reason := j.textAt "reason"
  match j.textAt "kind" with
  | "InvalidModule" => .invalidModule reason
  | "CompileFailed" => .compileFailed reason
  | "MissingExport" => .missingExport (j.textAt "name")
  | "MemoryAccessOutOfBounds" =>
    .outOfBounds (j.natAt "address") (j.natAt "size") (j.natAt "memory_size")
  | "InstantiationFailed" => .instantiationFailed reason
  | "Aborted" => .aborted reason
  | _ => .interrupted

/-- The failure of a run. -/
def RunError.ofJson (j : Json) : RunError :=
  match j.textAt "kind" with
  | "Exit" => .exit (.ofInt (j.intAt "code"))
  | "RunInterrupted" => .interrupted
  | "From" => .ofEngine (.ofJson (j.member "inner"))
  | _ => .engine (.ofJson (j.member "inner"))

/-- A failure to fetch. -/
def FetchError.ofJson (j : Json) : FetchError :=
  let url := j.textAt "url"
  match j.textAt "kind" with
  | "NotFound" => .notFound url
  | "Status" => .status url (j.natAt "status")
  | _ => .network url (j.textAt "reason")

/-- A failure to find a program. -/
def ResolveError.ofJson (j : Json) : ResolveError :=
  let name := j.textAt "name"
  match j.textAt "kind" with
  | "NotFound" => .notFound name
  | "Invalid" => .invalid name (j.textAt "reason")
  | "BadLink" => .badLink name (j.textAt "target")
  | "LinkCycle" => .linkCycle name
  | "UnsupportedAbi" => .unsupportedAbi name (j.textAt "abi")
  | "NoArtifact" => .noArtifact name
  | "MultipleArtifacts" => .multipleArtifacts name (j.natAt "count")
  | "Registry" => .registry name (j.textAt "reason")
  | "Fetch" => .fetch (.ofJson (j.member "inner"))
  | _ => .compile name (.ofJson (j.member "inner"))

/-- The failure of a session. -/
def SessionError.ofJson (j : Json) : SessionError :=
  match j.textAt "kind" with
  | "AlreadyRunning" => .alreadyRunning
  | "Interrupted" => .interrupted
  | "Resolve" => .resolve (.ofJson (j.member "inner"))
  | _ => .worker (j.textAt "reason")

/-- The failure of a line. -/
def DispatchError.ofJson (j : Json) : DispatchError :=
  match j.textAt "kind" with
  | "Session" => .session (.ofJson (j.member "inner"))
  | "Resolve" => .session (.resolve (.ofJson (j.member "inner")))
  | "Run" => .run (.ofJson (j.member "inner"))
  | _ => .command ⟨j.textAt "message"⟩

/-- What a host stops a program with. -/
def HostStop.ofJson (j : Json) : HostStop :=
  match j.textAt "kind" with
  | "Exit" => .exit (.ofInt (j.intAt "code"))
  | "Interrupted" => .interrupted
  | _ => .fault (j.textAt "reason")

end GuestShell
