import GuestShell.Catalog.Basic

/-!
# Calls that overlap

A call to the catalog waits wherever it asks for a file, and nowhere else.  While it waits another
call goes on with the same cache.  From one file to the next a call is atomic: what it asks of the
cache is answered at once.

An `Overlap` is two calls on one cache.  Which of them has the next turn, and what its file is
answered with, is left open.
-/

namespace GuestShell.Catalog

variable {α β : Type}

/-- What a call still has to do. -/
abbrev Activity (α : Type) := Task Request Answer (Except ResolveError α)

/-- Goes on to the next file, or to the end. -/
def advance : Activity α → CatalogCache → Activity α × CatalogCache
  | .ask (.cached name) next, cache => advance (next (cache.find? name)) cache
  | .ask (.keep name e) next, cache => advance (next ()) (cache.insert name e)
  | .ask (.get url) next, cache => (.ask (.get url) next, cache)
  | .ask (.post url body) next, cache => (.ask (.post url body) next, cache)
  | .done r, cache => (.done r, cache)

/-- Whether a call waits for a file. -/
def isWaiting : Activity α → Bool
  | .ask (.get _) _ | .ask (.post _ _) _ => true
  | _ => false

/-- A call has its turn: it has just begun, or is looked at in vain, or the file that it waits for
is there. -/
inductive Turn : Activity α → CatalogCache → Activity α × CatalogCache → Prop
  | polled (t : Activity α) (cache : CatalogCache) : Turn t cache (advance t cache)
  | got {url : String} {next : Except FetchError Bytes → Activity α}
    (answer : Except FetchError Bytes) (cache : CatalogCache) :
    Turn (.ask (.get url) next) cache (advance (next answer) cache)
  | posted {url body : String} {next : Except FetchError Bytes → Activity α}
    (answer : Except FetchError Bytes) (cache : CatalogCache) :
    Turn (.ask (.post url body) next) cache (advance (next answer) cache)

/-- Two calls on one cache. -/
structure Overlap (α β : Type) where
  cache : CatalogCache
  first : Activity α
  second : Activity β

namespace Overlap

/-- Two calls, neither of which has begun. -/
def start (cache : CatalogCache) (first : Lookup α) (second : Lookup β) : Overlap α β :=
  ⟨cache, first.run, second.run⟩

/-- One of the two has its turn. -/
inductive Step : Overlap α β → Overlap α β → Prop
  | first {x : Overlap α β} {p : Activity α × CatalogCache} (turn : Turn x.first x.cache p) :
    Step x ⟨p.2, p.1, x.second⟩
  | second {x : Overlap α β} {p : Activity β × CatalogCache} (turn : Turn x.second x.cache p) :
    Step x ⟨p.2, x.first, p.1⟩

end Overlap

end GuestShell.Catalog
