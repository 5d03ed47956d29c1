import GuestShell.Catalog.Basic
import GuestShell.Http.Request
import GuestShell.Rehearsal.Disk

/-!
# Rehearsing the network

One host can be reached, and what it answers is fixed for each target.  Some answers break off: those
of a host that hangs up before there is a status, others behind it.  The messages that reach the host
are kept.
-/

namespace GuestShell.Rehearsal

/-- How much of an answer arrives. -/
inductive Arrival where
  | whole
  /-- The status, and not all of the body. -/
  | cut
  /-- No status. -/
  | nothing
  deriving DecidableEq

/-- What the host answers for a target. -/
structure Route where
  response : HttpResponse
  arrival : Arrival

/-- A host, the files of the machine, and the programs found so far. -/
structure NetworkStage where
  host : String
  routes : Dict String Route
  disk : Disk
  cache : CatalogCache
  /-- What reached the host, the last message first. -/
  messages : List HttpMessage

namespace NetworkStage

/-- Something that happens on the stage. -/
abbrev Play (α : Type) := StateM NetworkStage α

/-- Why nothing reaches any other host. -/
def refused : String := "io: Connection refused"

/-- Why an answer that breaks off is of no use. -/
def brokenOff : String := "io: unexpected end of file"

/-- The statuses of answers that have no contents. -/
def hasNoContents (status : Nat) : Bool := status == 204 || status == 304

/-- Whether the body of an answer is looked at: that of a failure is not, and some have none. -/
def isBodyRead (status : Nat) : Bool :=
  !hasNoContents status && !(decide (400 ≤ status) && decide (status < 600))

/-- What arrives of an answer.  One that breaks off in a body that nobody reads is good enough. -/
def arrived (r : Route) : Except String HttpResponse :=
  match r.arrival with
  | .nothing => .error brokenOff
  | .cut => if isBodyRead r.response.status then .error brokenOff else .ok { r.response with body := [] }
  | .whole =>
    .ok (if hasNoContents r.response.status then { r.response with body := [] } else r.response)

/-- What the host answers. -/
def answer (s : NetworkStage) (target : String) : Except String HttpResponse :=
  match s.routes.find? target with
  | none => .ok ⟨404, []⟩
  | some r => arrived r

/-- Answers what fetching asks. -/
def serve : (r : Fetching.Request) → Play (Fetching.Answer r)
  | .read path => return (← get).disk.read path
  | .exchange m => do
    let s ← get
    if m.address.secure || m.address.host != s.host then return Except.error refused
    set { s with messages := m :: s.messages }
    return s.answer m.address.target

/-- Fetches something. -/
def fetch {α : Type} (f : Fetching α) : Play α := f.interpret serve

/-- Answers what a lookup asks. -/
def serveLookup : (r : Catalog.Request) → Play (Catalog.Answer r)
  | .get url => fetch (.get url)
  | .post url body => fetch (.post url body)
  | .cached name => return (← get).cache.find? name
  | .keep name e => modify fun s => { s with cache := s.cache.insert name e }

/-- Looks something up. -/
def look {α : Type} (l : Catalog.Lookup α) : Play (Except ResolveError α) :=
  l.run.interpret serveLookup

end NetworkStage

end GuestShell.Rehearsal
