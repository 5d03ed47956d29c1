import GuestShell.Catalog.Package
import GuestShell.Catalog.PackageRegistry
import GuestShell.Config
import GuestShell.Run.Runnable

/-!
# The catalog of programs

The catalog finds the module of a program by its name.  A name that was found before is answered from
the cache.  Any other is looked up below the program directory, as a module file with its glue, or as
a link to another name, and at last in the package registry, if there is one.

Looking up is a task over requests to fetch files and to use the cache, so other activities may come
in between wherever a file is fetched.  What cannot be found is not kept.
-/

namespace GuestShell

/-- A program as the catalog keeps it: the name it was found for, and what it takes to run it. -/
structure CatalogEntry where
  name : String
  abi : Abi
  module_ : CompiledModule
  glue : Option Bytes

/-- The program, ready to be run. -/
def CatalogEntry.runnable (e : CatalogEntry) : Runnable := .ofModule e.module_ e.abi e.glue

/-- The programs found so far, under their names. -/
abbrev CatalogCache := Dict String CatalogEntry

/-- Where programs are looked up. -/
structure Catalog where
  binDirectory : String
  /-- The address of the package registry. -/
  registryUrl : Option String

namespace Catalog

/-- The catalog that a configuration describes. -/
def ofConfig (c : Config) : Catalog := ⟨c.binDirectory, c.registryUrl⟩

/-! ## Requests -/

/-- What looking up asks. -/
inductive Request where
  | get (url : String)
  /-- Sends JSON text. -/
  | post (url body : String)
  | cached (name : String)
  | keep (name : String) (e : CatalogEntry)

/-- The answers to the requests. -/
abbrev Answer : Request → Type
  | .get _ => Except FetchError Bytes
  | .post _ _ => Except FetchError Bytes
  | .cached _ => Option CatalogEntry
  | .keep _ _ => Unit

/-- Something that is being looked up. -/
abbrev Lookup (α : Type) := ExceptT ResolveError (Task Request Answer) α

/-- Asks a request. -/
def ask (r : Request) : Lookup (Answer r) := ExceptT.lift (Task.request r)

/-- Asks for bytes; a failure to fetch them ends the lookup. -/
def fetch (url : String) : Lookup Bytes := do
  match ← ask (.get url) with
  | .ok bytes => return bytes
  | .error e => throw (.fetch e)

/-! ## Names and addresses -/

/-- Whether a text can be the name of a program: one word that is no path. -/
def isProgramName (name : String) : Bool :=
  name != "" && name != "." && name != ".." &&
    !name.toList.any fun c => c == '/' || c == '\\' || Text.isBlank c || Text.isControl c

/-- The address of one of a program's files. -/
def url (c : Catalog) (name ending : String) : String :=
  if c.binDirectory = "" then name ++ "." ++ ending
  else if Text.endsWith c.binDirectory "/" then c.binDirectory ++ name ++ "." ++ ending
  else c.binDirectory ++ "/" ++ name ++ "." ++ ending

/-- Whether bytes look like the page with which a server answers for what it does not have. -/
def isErrorPage (bytes : Bytes) : Bool := bytes.head? == some 0x3c

/-- Contents that count as such: neither empty nor an error page. -/
def realContents (bytes : Bytes) : Option Bytes :=
  if bytes.isEmpty || isErrorPage bytes then none else some bytes

/-- A file that may be missing. -/
def fetchOptional (url : String) : Lookup (Option Bytes) := do
  match ← ask (.get url) with
  | .ok bytes => return realContents bytes
  | .error (.notFound _) => return none
  | .error e => throw (.fetch e)

/-! ## Modules -/

/-- Makes the module of a program ready to run. -/
def compile (name : String) (bytes : Bytes) (glue : Option Bytes) :
    Except ResolveError CatalogEntry :=
  match ModuleFile.inspect bytes with
  | .error f => .error (.invalid name (EngineError.ofFlaw f).message)
  | .ok info =>
    match CompiledModule.ofBytes bytes with
    | .error e => .error (.compile name e)
    | .ok m => .ok ⟨name, Abi.detect info glue.isSome, m, glue⟩

/-- The module that the registry has for a name. -/
def fetchFromRegistry (registryUrl name : String) : Lookup Bytes := do
  match ← ask (.post registryUrl (PackageRegistry.question name)) with
  | .error e => throw (.fetch e)
  | .ok answer =>
    match PackageRegistry.answer? answer with
    | none => throw (.registry name "not an answer")
    | some none => throw (.notFound name)
    | some (some listing) =>
      if listing.abi ≠ some "wasi" then
        throw (.unsupportedAbi name (listing.abi.getD "unknown"))
      let file ← fetch listing.downloadUrl
      ExceptT.mk (return Package.extract name file)

/-- The program that the registry has for a name; it always uses the larger interface. -/
def lookUpInRegistry (c : Catalog) (name : String) : Lookup CatalogEntry := do
  match c.registryUrl with
  | none => throw (.notFound name)
  | some registryUrl =>
    let bytes ← fetchFromRegistry registryUrl name
    let e ← ExceptT.mk (return compile name bytes none)
    return { e with abi := .libc }

/-! ## Looking up -/

/-- The most links that are followed for one name. -/
def maxLinks : Nat := 8

/-- The text of a link, without the blanks around it. -/
def linkTarget (bytes : Bytes) : String := Text.trim (Text.decodeLossy bytes)

/-- What a link leads to that was found before, under the name that is looked up. -/
def cachedLink (name current : String) : Lookup (Option CatalogEntry) := do
  if current = name then return none
  match ← ask (.cached current) with
  | some e => return some { e with name := name }
  | none => return none

/-- Looks up `name` at `current`, where its links have led: a module of this name, or else a link from
here, whose target `next` is given, or else the registry. -/
def lookUpAt (c : Catalog) (name current : String) (next : String → Lookup CatalogEntry) :
    Lookup CatalogEntry := do
  match ← cachedLink name current with
  | some e => return e
  | none =>
    match ← fetchOptional (c.url current "bin") with
    | some bytes =>
      let glue ← fetchOptional (c.url current "rt")
      ExceptT.mk (return compile name bytes glue)
    | none =>
      match ← fetchOptional (c.url current "lnk") with
      | none => c.lookUpInRegistry name
      | some link =>
        let target := linkTarget link
        if isProgramName target then next target else throw (.badLink name target)

/-- Looks up `name`, having come to `current` over the links in `visited`, with `links` more links
allowed. -/
def follow (c : Catalog) (name : String) :
    (links : Nat) → (current : String) → (visited : List String) → Lookup CatalogEntry
  | 0, current, _ => c.lookUpAt name current fun _ => throw (.linkCycle name)
  | links + 1, current, visited => c.lookUpAt name current fun target =>
      if visited.contains target then throw (.linkCycle name)
      else c.follow name links target (target :: visited)

/-- The program of a name. -/
def resolve (c : Catalog) (name : String) : Lookup CatalogEntry := do
  match ← ask (.cached name) with
  | some e => return e
  | none =>
    if !isProgramName name then throw (.notFound name)
    let e ← c.follow name maxLinks name [name]
    ask (.keep name e)
    return e

/-! ## Supplied modules -/

/-- Files by what they are: modules in their order, and the glue of each name. -/
structure Supplied where
  modules : List (String × Bytes)
  glue : Dict String Bytes

/-- Sorts one file by its name; other files do not count. -/
def Supplied.add (s : Supplied) (file : String × Bytes) : Supplied :=
  match Text.dropEnding? ".bin" file.1 with
  | some name => { s with modules := s.modules ++ [(name, file.2)] }
  | none =>
    match Text.dropEnding? ".rt" file.1 with
    | some name => { s with glue := s.glue.insert name file.2 }
    | none => s

/-- Keeps supplied modules one after another; the first module of a name gets its glue. -/
def keepModules : List (String × Bytes) → Dict String Bytes → Lookup (List String)
  | [], _ => return []
  | (name, bytes) :: rest, glue => do
    let e ← ExceptT.mk (return compile name bytes ((glue.find? name).bind realContents))
    ask (.keep name e)
    return name :: (← keepModules rest (glue.erase name))

/-- Takes in modules that are supplied as files; gives their names. -/
def ingest (files : List (String × Bytes)) : Lookup (List String) :=
  let s := files.foldl Supplied.add ⟨[], Dict.empty⟩
  keepModules s.modules s.glue

end Catalog

end GuestShell
