import GuestShell.Dict
import GuestShell.Json.Parser
import GuestShell.Json.Record
import GuestShell.Sandbox.Process

/-!
# Glue

A module of the larger interface may come with glue: a JSON record that names variables for its
environment.  They are added to the ones that every guest finds and replace those of the same name.
Glue that cannot be read is as good as glue that names none.
-/

namespace GuestShell

/-- What comes with a module: variables for its environment. -/
structure Glue where
  environment : Dict String String

namespace Glue

/-- Glue that names no variables. -/
def empty : Glue := ⟨Dict.empty⟩

/-- Variables and their values; of two with one name the later one counts. -/
def variables? : Json → Option (Dict String String)
  | .obj members => do
    let entries ← members.mapM fun m => (Json.text? m.2).map fun v => (m.1, v)
    return Dict.ofList entries
  | _ => none

/-- The glue that a JSON value spells. -/
def ofJson? (j : Json) : Option Glue := do
  let f ← Json.Fields.ofJson? ["env"] j
  return ⟨← f.withDefault "env" Dict.empty variables?⟩

/-- The glue that bytes spell. -/
def ofBytes? (bytes : Bytes) : Option Glue := Json.ofBytes? bytes >>= ofJson?

/-- The glue that came with a module, or none. -/
def ofAttached (bytes : Option Bytes) : Glue := (bytes.bind ofBytes?).getD empty

/-- The whole environment of a guest, in ascending order of the names. -/
def fullEnvironment (g : Glue) : List (String × String) :=
  (g.environment.entries.foldl (fun d e => d.insert e.1 e.2) (Dict.ofList defaultEnvironment)).entries

end Glue

end GuestShell
