import GuestShell.Catalog.Basic
import GuestShell.Catalog.FixedSource

/-!
# Rehearsing a lookup

A catalog is looked into with a source that has fixed answers.
-/

namespace GuestShell.Rehearsal

/-- A source and a cache. -/
structure LookupStage where
  source : FixedSource
  cache : CatalogCache

namespace LookupStage

/-- Asks the source. -/
def fetch (r : SourceRequest) : StateM LookupStage (Except FetchError Bytes) :=
  modifyGet fun s => let (answer, source) := s.source.fetch r; (answer, { s with source := source })

/-- Answers what a lookup asks. -/
def serve : (r : Catalog.Request) → StateM LookupStage (Catalog.Answer r)
  | .get url => fetch (.get url)
  | .post url body => fetch (.post url body)
  | .cached name => return (← get).cache.find? name
  | .keep name e => modify fun s => { s with cache := s.cache.insert name e }

/-- Looks something up. -/
def perform {α : Type} (l : Catalog.Lookup α) (s : LookupStage) :
    Except ResolveError α × LookupStage :=
  Id.run ((l.run.interpret serve).run s)

end LookupStage

end GuestShell.Rehearsal
