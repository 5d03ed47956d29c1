import GuestShell.Proofs.Catalog.Runs

/-!
# What the cache of a catalog holds

However files come and go in the surroundings, every entry of the cache stands under its own name and
is run under an interface that fits its module (`InOrder`).  A lookup by itself never touches the
cache (`Finds`); only when it has come to a good end is something kept, and that is the entry that
was found.

The main statement is `cache_in_order`: what holds of the cache after any calls, and what one more
`resolve` makes of it.
-/

namespace GuestShell

/-- The entry was made from a module file, and is run under the larger interface if there is glue, or
if the file imports from the library of that interface. -/
def CatalogEntry.Fits (e : CatalogEntry) : Prop :=
  ∃ bytes info, ModuleFile.inspect bytes = .ok info ∧ CompiledModule.ofBytes bytes = .ok e.module_ ∧
    (e.glue.isSome ∨ info.importsFrom Abi.libcLibrary → e.abi = .libc)

namespace Catalog

variable {α β : Type} {c : Catalog} {cache cache' : CatalogCache} {name : String} {e : CatalogEntry}
  {log : Log}

/-! ## Entries -/

/-- An entry that may stand under a name. -/
def Entitled (name : String) (e : CatalogEntry) : Prop := e.name = name ∧ e.Fits

/-- What is compiled is a module that was inspected, under the name and with the glue that were given. -/
lemma compile_eq_ok_iff {bytes : Bytes} {glue : Option Bytes} :
    compile name bytes glue = .ok e ↔ e.name = name ∧ e.glue = glue ∧
      ∃ info, ModuleFile.inspect bytes = .ok info ∧ CompiledModule.ofBytes bytes = .ok e.module_ ∧
        e.abi = Abi.detect info e.glue.isSome := by
  rw [compile]
  cases hinfo : ModuleFile.inspect bytes with
  | error f => simp
  | ok info =>
    cases hmodule : CompiledModule.ofBytes bytes with
    | error f => simp
    | ok m =>
      obtain ⟨name', abi, module_, glue'⟩ := e
      simp only [Except.ok.injEq, CatalogEntry.mk.injEq, exists_eq_left']
      constructor
      · rintro ⟨rfl, rfl, rfl, rfl⟩
        exact ⟨rfl, rfl, rfl, rfl⟩
      · rintro ⟨rfl, rfl, rfl, rfl⟩
        exact ⟨rfl, rfl, rfl, rfl⟩

lemma entitled_of_compile {bytes : Bytes} {glue : Option Bytes}
    (h : compile name bytes glue = .ok e) : Entitled name e := by
  obtain ⟨hname, -, info, hinfo, hmodule, habi⟩ := compile_eq_ok_iff.1 h
  refine ⟨hname, bytes, info, hinfo, hmodule, fun hlibc => ?_⟩
  rw [habi, Abi.detect, if_pos (by simpa using hlibc)]

/-- A module is the same program under every name. -/
lemma compile_rename {bytes : Bytes} {glue : Option Bytes} (h : compile name bytes glue = .ok e)
    (other : String) : compile other bytes glue = .ok { e with name := other } :=
  compile_eq_ok_iff.2 ⟨rfl, (compile_eq_ok_iff.1 h).2⟩

/-- What is found under one name can be kept under another. -/
lemma Entitled.rename (h : Entitled name e) (other : String) :
    Entitled other { e with name := other } :=
  ⟨rfl, h.2⟩

/-- Under the larger interface every module fits. -/
lemma Entitled.withLibc (h : Entitled name e) : Entitled name { e with abi := .libc } := by
  obtain ⟨hname, bytes, info, hinfo, hmodule, -⟩ := h
  exact ⟨hname, bytes, info, hinfo, hmodule, fun _ => rfl⟩

/-! ## Caches -/

/-- Every entry stands under its own name and fits its module. -/
def InOrder (cache : CatalogCache) : Prop :=
  ∀ name e, cache.find? name = some e → Entitled name e

lemma inOrder_empty : InOrder Dict.empty := by
  intro name e h
  simp at h

lemma InOrder.insert (h : InOrder cache) (he : Entitled name e) : InOrder (cache.insert name e) := by
  intro other e' hfind
  rw [Dict.find?_insert] at hfind
  split at hfind
  · rename_i heq
    obtain rfl := Option.some.inj hfind
    exact heq ▸ he
  · exact h other e' hfind

lemma InOrder.erase (h : InOrder cache) (name : String) : InOrder (cache.erase name) := by
  intro other e hfind
  rw [Dict.find?_erase] at hfind
  split at hfind
  · simp at hfind
  · exact h other e hfind

/-! ## Looking up -/

/-- The lookup leaves the cache alone, and whatever it finds has the property. -/
def Finds (P : α → Prop) (l : Lookup α) : Prop :=
  ∀ ⦃cache log r cache'⦄, InOrder cache → Ran l cache log r cache' →
    cache' = cache ∧ ∀ a, r = .ok a → P a

variable {P : α → Prop} {Q : β → Prop}

lemma finds_pure {a : α} (h : P a) : Finds P (pure a) := by
  intro cache log r cache' _ hran
  obtain ⟨-, rfl, rfl⟩ := ran_pure_iff.1 hran
  exact ⟨rfl, fun b hb => Except.ok.inj hb ▸ h⟩

lemma finds_throw (e : ResolveError) : Finds P (throw e) := by
  intro cache log r cache' _ hran
  obtain ⟨-, rfl, rfl⟩ := ran_throw_iff.1 hran
  exact ⟨rfl, nofun⟩

lemma finds_return {known : Except ResolveError α} (h : ∀ a, known = .ok a → P a) :
    Finds P (ExceptT.mk (return known)) := by
  intro cache log r cache' _ hran
  obtain ⟨-, rfl, rfl⟩ := ran_return_iff.1 hran
  exact ⟨rfl, h⟩

lemma finds_bind {l : Lookup α} {f : α → Lookup β} (hl : Finds P l) (hf : ∀ a, P a → Finds Q (f a)) :
    Finds Q (l >>= f) := by
  intro cache log r cache' horder hran
  rcases ran_bind_iff.1 hran with ⟨e, rfl, hfails⟩ | ⟨a, cache₁, before, after, -, hfirst, hrest⟩
  · exact ⟨(hl horder hfails).1, nofun⟩
  · obtain ⟨rfl, hP⟩ := hl horder hfirst
    exact hf a (hP a rfl) horder hrest

lemma finds_get_bind {url : String} {f : Except FetchError Bytes → Lookup α}
    (hf : ∀ answer, Finds P (f answer)) : Finds P (ask (.get url) >>= f) := by
  intro cache log r cache' horder hran
  obtain ⟨answer, rest, -, hrest⟩ := ran_get_bind_iff.1 hran
  exact hf answer horder hrest

lemma finds_post_bind {url body : String} {f : Except FetchError Bytes → Lookup α}
    (hf : ∀ answer, Finds P (f answer)) : Finds P (ask (.post url body) >>= f) := by
  intro cache log r cache' horder hran
  obtain ⟨answer, rest, -, hrest⟩ := ran_post_bind_iff.1 hran
  exact hf answer horder hrest

lemma finds_fetch (url : String) : Finds (fun _ => True) (fetch url) := by
  refine finds_get_bind fun answer => ?_
  cases answer with
  | ok bytes => exact finds_pure trivial
  | error e => exact finds_throw _

lemma finds_fetchOptional (url : String) : Finds (fun _ => True) (fetchOptional url) := by
  refine finds_get_bind fun answer => ?_
  rcases answer with (url | ⟨url, code⟩ | ⟨url, reason⟩) | bytes
  · exact finds_pure trivial
  · exact finds_throw _
  · exact finds_throw _
  · exact finds_pure trivial

lemma finds_fetchFromRegistry (url name : String) :
    Finds (fun _ => True) (fetchFromRegistry url name) := by
  refine finds_post_bind fun answer => ?_
  cases answer with
  | error e => exact finds_throw _
  | ok answer =>
    simp only
    split
    · exact finds_throw _
    · exact finds_throw _
    · split
      · exact finds_bind (finds_throw (P := fun _ => True) _) fun _ _ =>
          finds_bind (finds_fetch _) fun _ _ => finds_return fun _ _ => trivial
      · exact finds_bind (finds_fetch _) fun _ _ => finds_return fun _ _ => trivial

lemma finds_compile (name : String) (bytes : Bytes) (glue : Option Bytes) :
    Finds (Entitled name) (ExceptT.mk (return compile name bytes glue)) :=
  finds_return fun _ => entitled_of_compile

lemma finds_lookUpInRegistry (c : Catalog) (name : String) :
    Finds (Entitled name) (c.lookUpInRegistry name) := by
  rw [lookUpInRegistry]
  cases c.registryUrl with
  | none => exact finds_throw _
  | some url =>
    refine finds_bind (finds_fetchFromRegistry url name) fun bytes _ => ?_
    exact finds_bind (finds_compile name bytes none) fun e he => finds_pure he.withLibc

lemma finds_cachedLink (name current : String) :
    Finds (fun found => ∀ e, found = some e → Entitled name e) (cachedLink name current) := by
  intro cache log r cache' horder hran
  rw [cachedLink] at hran
  split at hran
  · exact finds_pure (by simp) horder hran
  · rw [ran_cached_bind_iff] at hran
    cases hfind : cache.find? current with
    | none =>
      rw [hfind] at hran
      exact finds_pure (by simp) horder hran
    | some e =>
      rw [hfind] at hran
      refine finds_pure (fun e' he' => ?_) horder hran
      obtain rfl := Option.some.inj he'
      exact (horder current e hfind).rename name

lemma finds_lookUpAt (c : Catalog) (name current : String) {next : String → Lookup CatalogEntry}
    (hnext : ∀ target, Finds (Entitled name) (next target)) :
    Finds (Entitled name) (c.lookUpAt name current next) := by
  refine finds_bind (finds_cachedLink name current) fun found hfound => ?_
  cases found with
  | some e => exact finds_pure (hfound e rfl)
  | none =>
    refine finds_bind (finds_fetchOptional _) fun bin _ => ?_
    cases bin with
    | some bytes =>
      exact finds_bind (finds_fetchOptional _) fun glue _ => finds_compile name bytes glue
    | none =>
      refine finds_bind (finds_fetchOptional _) fun link _ => ?_
      cases link with
      | none => exact finds_lookUpInRegistry c name
      | some link =>
        simp only
        split
        · exact hnext _
        · exact finds_throw _

/-- **Following links leaves the cache alone, and finds what may stand under the name.** -/
theorem finds_follow (c : Catalog) (name : String) (links : Nat) (current : String)
    (visited : List String) : Finds (Entitled name) (c.follow name links current visited) := by
  induction links generalizing current visited with
  | zero => exact finds_lookUpAt c name current fun _ => finds_throw _
  | succ links ih =>
    refine finds_lookUpAt c name current fun target => ?_
    split
    · exact finds_throw _
    · exact ih target (target :: visited)

/-! ## Calls -/

/-- A name in the cache is answered from it. -/
lemma ran_resolve_cached_iff {r : Except ResolveError CatalogEntry} (h : cache.find? name = some e) :
    Ran (c.resolve name) cache log r cache' ↔ log = [] ∧ r = .ok e ∧ cache' = cache := by
  rw [resolve, ran_cached_bind_iff, h]
  exact ran_pure_iff

/-- Any other name is looked up, and kept when it is found. -/
lemma resolve_outcome {r : Except ResolveError CatalogEntry} (horder : InOrder cache)
    (hnone : cache.find? name = none) (h : Ran (c.resolve name) cache log r cache') :
    (∃ e, r = .error e ∧ cache' = cache) ∨
      ∃ e, r = .ok e ∧ Entitled name e ∧ cache' = cache.insert name e := by
  rw [resolve, ran_cached_bind_iff, hnone] at h
  by_cases hname : isProgramName name
  · rw [if_neg (by simpa using hname)] at h
    rcases ran_bind_iff.1 h with ⟨f, rfl, hfails⟩ | ⟨e, cache₁, before, after, -, hfound, hkept⟩
    · exact .inl ⟨f, rfl, (finds_follow c name maxLinks name [name] horder hfails).1⟩
    · obtain ⟨rfl, hentitled⟩ := finds_follow c name maxLinks name [name] horder hfound
      obtain ⟨-, rfl, rfl⟩ := ran_pure_iff.1 (ran_keep_bind_iff (f := fun _ => pure e) |>.1 hkept)
      exact .inr ⟨e, rfl, hentitled e rfl, rfl⟩
  · rw [if_pos (by simpa using hname)] at h
    rcases ran_bind_iff.1 h with ⟨f, rfl, hfails⟩ | ⟨_, _, _, _, -, hthrown, -⟩
    · exact .inl ⟨f, rfl, (ran_throw_iff.1 hfails).2.2⟩
    · exact absurd (ran_throw_iff.1 hthrown).2.1 (by simp)

lemma InOrder.resolve {r : Except ResolveError CatalogEntry} (horder : InOrder cache)
    (h : Ran (c.resolve name) cache log r cache') : InOrder cache' := by
  cases hfind : cache.find? name with
  | some e =>
    obtain ⟨-, -, rfl⟩ := (ran_resolve_cached_iff hfind).1 h
    exact horder
  | none =>
    rcases resolve_outcome horder hfind h with ⟨e, -, rfl⟩ | ⟨e, -, hentitled, rfl⟩
    · exact horder
    · exact horder.insert hentitled

lemma InOrder.keepModules {files : List (String × Bytes)} {glue : Dict String Bytes}
    {r : Except ResolveError (List String)} (horder : InOrder cache)
    (h : Ran (keepModules files glue) cache log r cache') : InOrder cache' := by
  induction files generalizing cache log glue r with
  | nil =>
    obtain ⟨-, -, rfl⟩ := ran_pure_iff.1 h
    exact horder
  | cons file rest ih =>
    rw [Catalog.keepModules] at h
    rcases ran_bind_iff.1 h with ⟨e, -, hfails⟩ | ⟨e, cache₁, _, after, -, hcompiled, hkept⟩
    -- a module that does not compile ends it early, and what was kept before stays
    · obtain ⟨-, -, rfl⟩ := ran_return_iff.1 hfails
      exact horder
    · obtain ⟨-, hcompile, rfl⟩ := ran_return_iff.1 hcompiled
      have hinsert := horder.insert (entitled_of_compile hcompile.symm)
      rcases ran_bind_iff.1 (ran_keep_bind_iff.1 hkept) with
        ⟨_, -, hrest⟩ | ⟨_, _, _, _, -, hrest, hend⟩
      · exact ih hinsert hrest
      · obtain ⟨-, -, rfl⟩ := ran_pure_iff.1 hend
        exact ih hinsert hrest

/-- The caches that calls lead to, each run to its end, whatever files it is given. -/
inductive Reached (c : Catalog) : CatalogCache → Prop
  | empty : Reached c Dict.empty
  | call {cache cache' : CatalogCache} {log : Log} (before : Reached c cache) (call : Call)
      (hruns : Task.Runs (c.perform call cache) log cache') : Reached c cache'

lemma InOrder.perform (horder : InOrder cache) {call : Call}
    (h : Task.Runs (c.perform call cache) log cache') : InOrder cache' := by
  cases call with
  | resolve name =>
    obtain ⟨r, before, after, -, hran, hend⟩ := Task.runs_bind_iff.1 h
    obtain ⟨-, rfl⟩ := Task.runs_done_iff.1 hend
    exact horder.resolve hran
  | ingest files =>
    obtain ⟨r, before, after, -, hran, hend⟩ := Task.runs_bind_iff.1 h
    obtain ⟨-, rfl⟩ := Task.runs_done_iff.1 hend
    exact horder.keepModules hran
  | evict name =>
    obtain ⟨-, rfl⟩ := Task.runs_done_iff.1 h
    exact horder.erase name

/-- The program that does nothing, under the name `idle`. -/
def idleEntry : CatalogEntry := ⟨"idle", .posix, ⟨.nothing⟩, none⟩

end Catalog

end GuestShell
