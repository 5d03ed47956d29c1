import GuestShell.Guest.Execution

/-!
# Rehearsing a module

A module is executed against a host that answers from a script, one reply for each call, whatever
function is called.
-/

namespace GuestShell.Rehearsal

/-- What the host replies to a call. -/
inductive Reply where
  /-- A number, as the type of the result. -/
  | number (v : Int64)
  /-- A value of its own type, or none. -/
  | value (v : Option Value)
  | stop (s : HostStop)

/-- The result that a reply gives for a function. -/
def Reply.result (r : Reply) (kind : Option ValueKind) : Except HostStop (Option Value) :=
  match r with
  | number v => .ok (kind.map fun k => .ofWide k v)
  | value v => .ok v
  | stop s => .error s

/-- What the host was asked, and how large the memory was that it saw. -/
inductive EngineIncident where
  | entry (exports : List String) (memorySize : Nat)
  | call (name : String) (args : List Value) (memorySize : Nat)

/-- A scripted host. -/
structure EngineStage where
  epoch : Nat
  entry : Except EngineError EntryCall
  /-- The replies, each with whether an interrupt comes before it. -/
  replies : List (Reply × Bool)
  /-- What was asked, the last incident first. -/
  transcript : List EngineIncident

namespace EngineStage

/-- Answers what a guest asks. -/
def serve (table : List Signature) : (r : Engine.Request) → StateM EngineStage (Engine.Answer r)
  | .epoch => return (← get).epoch
  | .note _ => return ()
  | .call index args m => modifyGet fun s =>
    let f := table.getD index ⟨"", "", [], none⟩
    let (reply, interrupts) := s.replies.headD (.value none, false)
    ((reply.result f.result, m),
      { s with
        replies := s.replies.tail
        epoch := if interrupts then s.epoch + 1 else s.epoch
        transcript := .call f.name args m.size :: s.transcript })
  | .entry exports m => modifyGet fun s =>
    ((s.entry, m), { s with transcript := .entry exports m.size :: s.transcript })

/-- Executes a module. -/
def execute (m : CompiledModule) (table : List Signature) (s : EngineStage) :
    Except EngineError Int32 × EngineStage :=
  Id.run (((m.execute table).interpret (serve table)).run s)

end EngineStage

end GuestShell.Rehearsal
