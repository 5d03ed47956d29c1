import GuestShell.Catalog.Error
import GuestShell.Json.Parser
import GuestShell.Json.Printer
import GuestShell.Json.Record
import GuestShell.Text.Blank

/-!
# The package registry

The registry answers one query: which package has a command of a given name, and where it can be
downloaded.  Query and answer are JSON.
-/

namespace GuestShell.PackageRegistry

/-- The query, in the registry's query language. -/
def commandQuery : String :=
  Text.joined "\n" [
    "query shellGetCommandQuery($command: String!) \x7b",
    "    command: getCommand(name: $command) \x7b",
    "        command",
    "        module \x7b name abi source \x7d",
    "        packageVersion \x7b",
    "            version",
    "            package \x7b name displayName \x7d",
    "            distribution \x7b downloadUrl \x7d",
    "        \x7d",
    "    \x7d",
    "\x7d"]

/-- The body of the question for a command. -/
def question (command : String) : String :=
  (Json.obj [
    ("operationName", .str "shellGetCommandQuery"),
    ("query", .str commandQuery),
    ("variables", .obj [("command", .str command)])]).print

/-- What the registry knows about a command: the interface of its module, and where its package
is. -/
structure Listing where
  abi : Option String
  downloadUrl : String
  deriving DecidableEq

/-- The address in a distribution record. -/
def distribution? (j : Json) : Option String := do
  let f ← Json.Fields.ofJson? ["downloadUrl"] j
  f.required "downloadUrl" Json.text?

/-- The address in a package version record. -/
def packageVersion? (j : Json) : Option String := do
  let f ← Json.Fields.ofJson? ["distribution"] j
  f.required "distribution" distribution?

/-- The interface in a module record. -/
def module? (j : Json) : Option (Option String) := do
  let f ← Json.Fields.ofJson? ["abi"] j
  f.optional "abi" Json.text?

/-- What a command record says. -/
def listing? (j : Json) : Option Listing := do
  let f ← Json.Fields.ofJson? ["module", "packageVersion"] j
  return ⟨← f.required "module" module?, ← f.required "packageVersion" packageVersion?⟩

/-- What the data of an answer say. -/
def data? (j : Json) : Option (Option Listing) := do
  let f ← Json.Fields.ofJson? ["command"] j
  f.optional "command" listing?

/-- What an answer says: a listing, or that there is no such command. -/
def answer? (bytes : Bytes) : Option (Option Listing) := do
  let f ← Json.Fields.ofJson? ["data"] (← Json.ofBytes? bytes)
  return (← f.optional "data" data?).join

end GuestShell.PackageRegistry
