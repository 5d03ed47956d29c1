import GuestShell.Catalog.Basic
import GuestShell.Catalog.FixedSource

/-!
# Calls to a catalog

A catalog is called again and again: to look up a name, to take in modules that are supplied, to drop
a name.  Where each call comes to its end before the next one begins, all that a call asks of its
surroundings is files, and the cache goes from call to call.

The files may be others each time they are asked for.  A source that never changes is a function from
requests to answers (`lookUpFrom`).
-/

namespace GuestShell.Catalog

/-- Something that fetches files. -/
abbrev Fetching (α : Type) := Task SourceRequest (fun _ => Except FetchError Bytes) α

/-- Answers what a lookup asks, with a cache that nobody else uses. -/
def serveCall : (r : Request) → CatalogCache → Fetching (Answer r × CatalogCache)
  | .get url, cache => .ask (.get url) fun answer => return (answer, cache)
  | .post url body, cache => .ask (.post url body) fun answer => return (answer, cache)
  | .cached name, cache => return (cache.find? name, cache)
  | .keep name e, cache => return ((), cache.insert name e)

/-- Looks something up, with a cache that nobody else uses. -/
def alone {α : Type} (l : Lookup α) (cache : CatalogCache) :
    Fetching (Except ResolveError α × CatalogCache) :=
  l.run.within serveCall cache

/-- Looks something up in a source that never changes. -/
def lookUpFrom {α : Type} (source : SourceRequest → Except FetchError Bytes) (l : Lookup α)
    (cache : CatalogCache) : Except ResolveError α × CatalogCache :=
  Id.run ((alone l cache).interpret source)

/-- Drops a name; says whether there was something to drop. -/
def evict (name : String) (cache : CatalogCache) : Bool × CatalogCache :=
  (cache.contains name, cache.erase name)

/-- The calls that use the cache. -/
inductive Call where
  | resolve (name : String)
  | ingest (files : List (String × Bytes))
  | evict (name : String)

/-- What a call makes of the cache. -/
def perform (c : Catalog) : Call → CatalogCache → Fetching CatalogCache
  | .resolve name, cache => (alone (c.resolve name) cache).bind fun r => return r.2
  | .ingest files, cache => (alone (ingest files) cache).bind fun r => return r.2
  | .evict name, cache => return (evict name cache).2

end GuestShell.Catalog
