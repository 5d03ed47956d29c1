import GuestShell.Catalog.Calls
import GuestShell.Proofs.Task.Answers
import GuestShell.Proofs.Task.Runs

/-!
# Runs of lookups

A run of a lookup goes from a cache to a cache (`Catalog.Ran`); its log lists the files that were
asked for on the way, and at its end stands a value or the reason why there is none.  The lemmas take
a run apart, one for each way to build a lookup.

A lookup of files asks for nothing else (`Request.isFetch`), and following links looks at the cache
besides, but keeps nothing there (`Request.leavesCache`).  What never uses the cache comes to the
same end on every cache (`lookUpFrom_of_asks`).
-/

namespace GuestShell.Catalog

variable {α β : Type} {cache cache' : CatalogCache}

/-- Files that were asked for, with what came of it. -/
abbrev Log : Type := Task.Log SourceRequest fun _ => Except FetchError Bytes

/-- One way through a lookup, from a cache to a cache. -/
def Ran (l : Lookup α) (cache : CatalogCache) (log : Log) (r : Except ResolveError α)
    (cache' : CatalogCache) : Prop :=
  Task.Runs (alone l cache) log (r, cache')

variable {log : Log} {r : Except ResolveError α}

/-- The reason of the first lookup ends both; else the second one follows. -/
lemma alone_bind (l : Lookup β) (f : β → Lookup α) (cache : CatalogCache) :
    alone (l >>= f) cache = (alone l cache).bind fun p =>
      match p.1 with
      | .ok b => alone (f b) p.2
      | .error e => .done (.error e, p.2) := by
  refine (Task.within_bind serveCall l.run _ cache).trans ?_
  congr 1
  funext p
  obtain ⟨_ | _, _⟩ := p <;> rfl

lemma ran_pure_iff {a : α} :
    Ran (pure a) cache log r cache' ↔ log = [] ∧ r = .ok a ∧ cache' = cache :=
  Task.runs_done_pair_iff

lemma ran_throw_iff {e : ResolveError} :
    Ran (throw e : Lookup α) cache log r cache' ↔ log = [] ∧ r = .error e ∧ cache' = cache :=
  Task.runs_done_pair_iff

/-- What is known already. -/
lemma ran_return_iff {known : Except ResolveError α} :
    Ran (ExceptT.mk (return known)) cache log r cache' ↔ log = [] ∧ r = known ∧ cache' = cache :=
  Task.runs_done_pair_iff

theorem ran_bind_iff {l : Lookup β} {f : β → Lookup α} :
    Ran (l >>= f) cache log r cache' ↔
      (∃ e, r = .error e ∧ Ran l cache log (.error e) cache') ∨
        ∃ b cache₁ before after, log = before ++ after ∧ Ran l cache before (.ok b) cache₁ ∧
          Ran (f b) cache₁ after r cache' := by
  rw [Ran, alone_bind, Task.runs_bind_iff]
  constructor
  · rintro ⟨⟨e | b, cache₁⟩, before, after, rfl, hbefore, hafter⟩
    · obtain ⟨rfl, rfl, rfl⟩ := Task.runs_done_pair_iff.1 hafter
      exact .inl ⟨e, rfl, by rwa [List.append_nil]⟩
    · exact .inr ⟨b, cache₁, before, after, rfl, hbefore, hafter⟩
  · rintro (⟨e, rfl, h⟩ | ⟨b, cache₁, before, after, rfl, hbefore, hafter⟩)
    · exact ⟨(.error e, cache'), log, [], (List.append_nil _).symm, h, .done _⟩
    · exact ⟨(.ok b, cache₁), before, after, rfl, hbefore, hafter⟩

/-- What the cache has for a name decides on what follows. -/
lemma ran_cached_bind_iff {name : String} {f : Option CatalogEntry → Lookup α} :
    Ran (ask (.cached name) >>= f) cache log r cache' ↔
      Ran (f (cache.find? name)) cache log r cache' :=
  Iff.rfl

/-- An entry is kept, and then something follows. -/
lemma ran_keep_bind_iff {name : String} {e : CatalogEntry} {f : Unit → Lookup α} :
    Ran (ask (.keep name e) >>= f) cache log r cache' ↔
      Ran (f ()) (cache.insert name e) log r cache' :=
  Iff.rfl

/-- A file is asked for, and then something follows. -/
lemma ran_get_bind_iff {url : String} {f : Except FetchError Bytes → Lookup α} :
    Ran (ask (.get url) >>= f) cache log r cache' ↔
      ∃ answer rest, log = ⟨.get url, answer⟩ :: rest ∧ Ran (f answer) cache rest r cache' :=
  Task.runs_ask_iff

lemma ran_post_bind_iff {url body : String} {f : Except FetchError Bytes → Lookup α} :
    Ran (ask (.post url body) >>= f) cache log r cache' ↔
      ∃ answer rest, log = ⟨.post url body, answer⟩ :: rest ∧ Ran (f answer) cache rest r cache' :=
  Task.runs_ask_iff

/-! ## Answers that never change -/

section

variable {source : SourceRequest → Except FetchError Bytes} (l : Lookup α)

/-- Looking up where no answer changes is one of the runs. -/
lemma ran_lookUpFrom (source : SourceRequest → Except FetchError Bytes) (cache : CatalogCache) :
    ∃ log, Ran l cache log (lookUpFrom source l cache).1 (lookUpFrom source l cache).2 := by
  have htrace : ∀ t : Fetching (Except ResolveError α × CatalogCache),
      (t.trace fun _ => source).2 = Id.run (t.interpret source) := by
    intro t
    induction t with
    | done a => rfl
    | ask o next ih => exact ih _
  refine ⟨((alone l cache).trace fun _ => source).1, ?_⟩
  rw [Ran, Prod.eta, lookUpFrom, ← htrace]
  exact Task.runs_trace _ _

lemma lookUpFrom_pure (a : α) (cache : CatalogCache) :
    lookUpFrom source (pure a) cache = (.ok a, cache) := rfl

lemma lookUpFrom_return (known : Except ResolveError α) (cache : CatalogCache) :
    lookUpFrom source (ExceptT.mk (return known)) cache = (known, cache) := rfl

lemma lookUpFrom_get (url : String) (cache : CatalogCache) :
    lookUpFrom source (ask (.get url)) cache = (.ok (source (.get url)), cache) := rfl

lemma lookUpFrom_cached (name : String) (cache : CatalogCache) :
    lookUpFrom source (ask (.cached name)) cache = (.ok (cache.find? name), cache) := rfl

lemma lookUpFrom_bind (f : α → Lookup β) (cache : CatalogCache) :
    lookUpFrom source (l >>= f) cache =
      match lookUpFrom source l cache with
      | (.ok a, cache') => lookUpFrom source (f a) cache'
      | (.error e, cache') => (.error e, cache') := by
  simp only [lookUpFrom]
  rw [alone_bind, Task.interpret_bind, Id.run_bind]
  rcases Id.run ((alone l cache).interpret source) with ⟨_ | _, _⟩ <;> rfl

end

/-! ## What is asked -/

/-- The requests that leave the cache as it is. -/
def Request.leavesCache : Request → Prop
  | .keep _ _ => False
  | _ => True

/-- The requests that have nothing to do with the cache. -/
def Request.isFetch : Request → Prop
  | .get _ | .post _ _ => True
  | _ => False

/-- The lookup asks nothing but what it may. -/
def Asks (may : Request → Prop) (l : Lookup α) : Prop := l.run.Only may fun _ => True

variable {may : Request → Prop} {l : Lookup α}

lemma asks_return (known : Except ResolveError α) : Asks may (ExceptT.mk (return known)) :=
  trivial

lemma asks_ask {r : Request} (h : may r) : Asks may (ask r) :=
  ⟨h, fun _ => trivial⟩

lemma asks_bind {f : α → Lookup β} (hl : Asks may l) (hf : ∀ a, Asks may (f a)) :
    Asks may (l >>= f) := by
  refine Task.Only.bind hl fun r _ => ?_
  cases r with
  | ok a => exact hf a
  | error e => exact trivial

/-- What never uses the cache comes to the same end on every cache. -/
lemma lookUpFrom_of_asks (h : Asks Request.isFetch l)
    (source : SourceRequest → Except FetchError Bytes) (cache : CatalogCache) :
    lookUpFrom source l cache = ((lookUpFrom source l Dict.empty).1, cache) := by
  suffices hsame : ∀ t : Task Request Answer (Except ResolveError α),
      t.Only Request.isFetch (fun _ => True) →
        Id.run ((t.within serveCall cache).interpret source) =
          ((Id.run ((t.within serveCall Dict.empty).interpret source)).1, cache) from hsame l.run h
  intro t ht
  induction t with
  | done r => rfl
  | ask request next ih =>
    cases request with
    | get url => exact ih _ (ht.2 _)
    | post url body => exact ih _ (ht.2 _)
    | cached name => exact absurd ht.1 id
    | keep name e => exact absurd ht.1 id

/-! ## Files and the registry -/

section

variable (hget : ∀ url, may (.get url))

include hget

lemma asks_fetch (url : String) : Asks may (fetch url) := by
  refine asks_bind (asks_ask (hget url)) fun answer => ?_
  cases answer with
  | ok bytes => exact asks_return _
  | error e => exact asks_return _

lemma asks_fetchOptional (url : String) : Asks may (fetchOptional url) := by
  refine asks_bind (asks_ask (hget url)) fun answer => ?_
  rcases answer with (_ | _ | _) | bytes <;> exact asks_return _

variable (hpost : ∀ url body, may (.post url body))

include hpost

lemma asks_fetchFromRegistry (url name : String) : Asks may (fetchFromRegistry url name) := by
  refine asks_bind (asks_ask (hpost url _)) fun answer => ?_
  cases answer with
  | error e => exact asks_return _
  | ok answer =>
    simp only
    split
    · exact asks_return _
    · exact asks_return _
    · split
      · exact asks_bind (asks_return _) fun _ =>
          asks_bind (asks_fetch hget _) fun _ => asks_return _
      · exact asks_bind (asks_fetch hget _) fun _ => asks_return _

lemma asks_lookUpInRegistry (c : Catalog) (name : String) : Asks may (c.lookUpInRegistry name) := by
  rw [lookUpInRegistry]
  cases c.registryUrl with
  | none => exact asks_return _
  | some url =>
    refine asks_bind (asks_fetchFromRegistry hget hpost url name) fun bytes => ?_
    exact asks_bind (asks_return _) fun _ => asks_return _

end

/-! ## Following links -/

lemma leavesCache_cachedLink (name current : String) :
    Asks Request.leavesCache (cachedLink name current) := by
  rw [cachedLink]
  split
  · exact asks_return _
  · refine asks_bind (asks_ask trivial) fun found => ?_
    cases found with
    | some e => exact asks_return _
    | none => exact asks_return _

lemma leavesCache_lookUpAt (c : Catalog) (name current : String)
    {next : String → Lookup CatalogEntry}
    (hnext : ∀ target, Asks Request.leavesCache (next target)) :
    Asks Request.leavesCache (c.lookUpAt name current next) := by
  have hget (url : String) : Request.leavesCache (.get url) := trivial
  have hpost (url body : String) : Request.leavesCache (.post url body) := trivial
  refine asks_bind (leavesCache_cachedLink name current) fun found => ?_
  cases found with
  | some e => exact asks_return _
  | none =>
    refine asks_bind (asks_fetchOptional hget _) fun bin => ?_
    cases bin with
    | some bytes => exact asks_bind (asks_fetchOptional hget _) fun glue => asks_return _
    | none =>
      refine asks_bind (asks_fetchOptional hget _) fun link => ?_
      cases link with
      | none => exact asks_lookUpInRegistry hget hpost c name
      | some link =>
        simp only
        generalize linkTarget link = target
        split
        · exact hnext target
        · exact asks_return _

/-- **Following links keeps nothing**, whatever the cache has at each look. -/
theorem leavesCache_follow (c : Catalog) (name : String) (links : Nat) (current : String)
    (visited : List String) :
    Asks Request.leavesCache (c.follow name links current visited) := by
  induction links generalizing current visited with
  | zero => exact leavesCache_lookUpAt c name current fun _ => asks_return _
  | succ links ih =>
    refine leavesCache_lookUpAt c name current fun target => ?_
    split
    · exact asks_return _
    · exact ih target (target :: visited)

/-! ## The program that does nothing -/

/-- A file with nothing but a header compiles, under every name. -/
lemma compile_header (name : String) (glue : Option Bytes) :
    compile name ModuleFile.header glue =
      .ok ⟨name, Abi.detect .empty glue.isSome, ⟨.nothing⟩, glue⟩ := by
  have hinspect : ModuleFile.inspect ModuleFile.header = .ok .empty := by
    have hwalk : ModuleFile.walk .empty [] = .ok .empty := by rw [ModuleFile.walk, if_pos rfl]
    exact hwalk
  rw [compile, hinspect]
  rfl

end GuestShell.Catalog
