import GuestShell.Proofs.Catalog.Links
import Mathlib.Logic.Relation
import Mathlib.Tactic.IntervalCases

/-!
# Lookups after other lookups

A lookup uses what earlier ones have left in the cache, also for the names that its links lead to.
For files that never change, all that the cache has is what some name on the way is found to be on
an empty cache (`Faithful`), so what comes of a lookup is told by the links and by `fresh`.

Mostly that is the same as on an empty cache.  It need not be where a lookup on an empty cache does
not come to the end of the links, or asks the registry at their end (`Unsettled`): there the limit
on links counts from the first name, and it is the first name that the registry is asked for.

The main statement is `resolve_after_others`; `ladder_depends_on_others` is a name of which it
depends on earlier lookups whether there is a program.
-/

namespace GuestShell.Catalog

variable {c : Catalog} {source : Fixed} {name current target origin : String} {cache : CatalogCache}
  {e : CatalogEntry} {visited : List String}

/-! ## One lookup -/

lemma lookUpFrom_resolve_cached (h : cache.find? name = some e) :
    lookUpFrom source (c.resolve name) cache = (.ok e, cache) := by
  rw [resolve, lookUpFrom_bind, lookUpFrom_cached, h]
  rfl

lemma lookUpFrom_resolve_not_name (hnone : cache.find? name = none) (hname : ¬isProgramName name) :
    lookUpFrom source (c.resolve name) cache = (.error (.notFound name), cache) := by
  rw [resolve, lookUpFrom_bind, lookUpFrom_cached, hnone]
  simp only [if_pos (show (!isProgramName name) = true by simpa using hname)]
  rfl

lemma lookUpFrom_resolve_uncached (c : Catalog) (source : Fixed) (hnone : cache.find? name = none)
    (hname : isProgramName name) :
    lookUpFrom source (c.resolve name) cache =
      match lookUpFrom source (c.follow name maxLinks name [name]) cache with
      | (.ok e, cache') => (.ok e, cache'.insert name e)
      | (.error e, cache') => (.error e, cache') := by
  rw [resolve, lookUpFrom_bind, lookUpFrom_cached, hnone]
  simp only [if_neg (show ¬(!isProgramName name) = true by simpa using hname), lookUpFrom_bind]
  rcases lookUpFrom source (c.follow name maxLinks name [name]) cache with ⟨_ | e, cache'⟩
  · rfl
  · rfl

/-! ## Names that links lead to -/

section

variable (c : Catalog) (source : Fixed)

/-- What a name is found to be on an empty cache. -/
def fresh (name : String) : Except ResolveError CatalogEntry :=
  (lookUpFrom source (c.resolve name) Dict.empty).1

/-- Links lead from one name to another, over any number of steps. -/
def LeadsTo : String → String → Prop :=
  Relation.ReflTransGen fun current target => LinksTo c source current target ∧ isProgramName target

/-- The entry is the program of a name that links lead to, under the name that they lead from. -/
def Recalled (name : String) (e : CatalogEntry) : Prop :=
  isProgramName name ∧ ∃ origin e₀, LeadsTo c source name origin ∧ fresh c source origin = .ok e₀ ∧
    e = { e₀ with name := name }

/-- All that the cache has is what some name that links lead to is found to be. -/
def Faithful (cache : CatalogCache) : Prop :=
  ∀ name e, cache.find? name = some e → Recalled c source name e

end

lemma LinksTo.unique (h : LinksTo c source current target) (h' : LinksTo c source current origin) :
    target = origin := by
  obtain ⟨-, link, hlink, rfl⟩ := h
  obtain ⟨-, link', hlink', rfl⟩ := h'
  rw [hlink, Except.ok.injEq, Option.some.injEq] at hlink'
  rw [hlink']

lemma LeadsTo.isProgramName (h : LeadsTo c source name target) (hname : isProgramName name) :
    isProgramName target := by
  induction h with
  | refl => exact hname
  | tail _ step _ => exact step.2

lemma Recalled.of_leadsTo (h : Recalled c source target e) (hleads : LeadsTo c source name target)
    (hname : isProgramName name) : Recalled c source name { e with name := name } := by
  obtain ⟨-, origin, e₀, hleads', hfresh, rfl⟩ := h
  exact ⟨hname, origin, e₀, hleads.trans hleads', hfresh, rfl⟩

/-- What is found for a name has it. -/
lemma name_of_fresh (h : fresh c source name = .ok e) : e.name = name := by
  obtain ⟨log, hran⟩ := ran_lookUpFrom (c.resolve name) source Dict.empty
  rcases resolve_outcome inOrder_empty (Dict.find?_empty name) hran with
    ⟨f, hfails, -⟩ | ⟨e', hfound, hentitled, -⟩
  · exact absurd (h.symm.trans hfails) nofun
  · obtain rfl := Except.ok.inj (h.symm.trans hfound)
    exact hentitled.1

lemma recalled_of_fresh (hname : isProgramName name) (h : fresh c source name = .ok e) :
    Recalled c source name e := by
  refine ⟨hname, name, e, .refl, h, ?_⟩
  rw [← name_of_fresh h]

/-! ## Lookups on a cache -/

/-- A link to a name in the cache ends the lookup. -/
lemma lookUpFrom_lookUpAt_cached (c : Catalog) (source : Fixed) (hother : current ≠ name)
    (hfind : cache.find? current = some e) (next : String → Lookup CatalogEntry) :
    lookUpFrom source (c.lookUpAt name current next) cache =
      (.ok { e with name := name }, cache) := by
  rw [lookUpAt, cachedLink, if_neg hother, lookUpFrom_bind, lookUpFrom_bind, lookUpFrom_cached,
    hfind]
  rfl

/-- The lookup leaves the cache, and comes to what it comes to on an empty one, or to the entry of a
name that links lead to. -/
def SameOrCached (c : Catalog) (source : Fixed) (cache : CatalogCache) (name current : String)
    (l : Lookup CatalogEntry) : Prop :=
  ∃ r, lookUpFrom source l cache = (r, cache) ∧
    (r = (lookUpFrom source l Dict.empty).1 ∨
      ∃ target e, LeadsTo c source current target ∧ cache.find? target = some e ∧
        r = .ok { e with name := name })

lemma sameOrCached_lookUpAt {next : String → Lookup CatalogEntry}
    (hnext : ∀ target, SameOrCached c source cache name target (next target)) :
    SameOrCached c source cache name current (c.lookUpAt name current next) := by
  by_cases hcached : current = name ∨ cache.find? current = none
  · rw [SameOrCached, lookUpFrom_lookUpAt c source hcached,
      lookUpFrom_lookUpAt c source (.inr (Dict.find?_empty current))]
    rcases hmodule : c.fileOf source current "bin" with f | _ | bytes
    · exact ⟨_, rfl, .inl rfl⟩
    · rcases hlink : c.fileOf source current "lnk" with f | _ | link
      · exact ⟨_, rfl, .inl rfl⟩
      · simp only [lookUpFrom_lookUpInRegistry]
        cases c.registryUrl with
        | none => exact ⟨_, rfl, .inl rfl⟩
        | some url => exact ⟨_, rfl, .inl rfl⟩
      · simp only
        split
        · rename_i hname
          obtain ⟨r, hr, hcomes⟩ := hnext (linkTarget link)
          refine ⟨r, hr, hcomes.imp_right ?_⟩
          rintro ⟨target, e, hleads, hfind, rfl⟩
          exact ⟨target, e, hleads.head ⟨⟨hmodule, link, hlink, rfl⟩, hname⟩, hfind, rfl⟩
        · exact ⟨_, rfl, .inl rfl⟩
    · rcases c.fileOf source current "rt" with f | glue
      · exact ⟨_, rfl, .inl rfl⟩
      · exact ⟨_, rfl, .inl rfl⟩
  · obtain ⟨hother, hsome⟩ := not_or.1 hcached
    obtain ⟨e, hfind⟩ := Option.ne_none_iff_exists'.1 hsome
    exact ⟨_, lookUpFrom_lookUpAt_cached c source hother hfind next,
      .inr ⟨current, e, .refl, hfind, rfl⟩⟩

lemma sameOrCached_throw (f : ResolveError) :
    SameOrCached c source cache name current (throw f) :=
  ⟨.error f, rfl, .inl rfl⟩

lemma sameOrCached_follow (c : Catalog) (source : Fixed) (cache : CatalogCache) (name : String)
    (links : Nat) (current : String) (visited : List String) :
    SameOrCached c source cache name current (c.follow name links current visited) := by
  induction links generalizing current visited with
  | zero => exact sameOrCached_lookUpAt fun target => sameOrCached_throw _
  | succ links ih =>
    refine sameOrCached_lookUpAt fun target => ?_
    split
    · exact sameOrCached_throw _
    · exact ih target (target :: visited)

lemma fresh_eq_follow (hname : isProgramName name) : fresh c source name =
    (lookUpFrom source (c.follow name maxLinks name [name]) Dict.empty).1 := by
  rw [fresh, lookUpFrom_resolve_uncached c source (Dict.find?_empty name) hname]
  rcases lookUpFrom source (c.follow name maxLinks name [name]) Dict.empty with ⟨_ | _, _⟩
  · rfl
  · rfl

lemma faithful_empty : Faithful c source Dict.empty := by
  intro name e h
  simp at h

lemma Faithful.insert (h : Faithful c source cache) (hrecalled : Recalled c source name e) :
    Faithful c source (cache.insert name e) := by
  intro other e' hfind
  rw [Dict.find?_insert] at hfind
  split at hfind
  · rename_i heq
    obtain rfl := Option.some.inj hfind
    exact heq ▸ hrecalled
  · exact h other e' hfind

/-- On a faithful cache a lookup comes to what it comes to on an empty one, or to the program of a
name that links lead to, and the cache stays faithful. -/
lemma Faithful.resolve (h : Faithful c source cache) (name : String) :
    ((lookUpFrom source (c.resolve name) cache).1 = fresh c source name ∨
      ∃ e, (lookUpFrom source (c.resolve name) cache).1 = .ok e ∧ Recalled c source name e) ∧
      Faithful c source (lookUpFrom source (c.resolve name) cache).2 := by
  cases hfind : cache.find? name with
  | some e =>
    rw [lookUpFrom_resolve_cached hfind]
    exact ⟨.inr ⟨e, rfl, h name e hfind⟩, h⟩
  | none =>
    by_cases hname : isProgramName name
    · obtain ⟨r, hfollow, hcomes⟩ := sameOrCached_follow c source cache name maxLinks name [name]
      have hr : r = fresh c source name ∨ ∃ e, r = .ok e ∧ Recalled c source name e := by
        rw [fresh_eq_follow hname]
        refine hcomes.imp_right ?_
        rintro ⟨target, e, hleads, htarget, rfl⟩
        exact ⟨_, rfl, (h target e htarget).of_leadsTo hleads hname⟩
      rw [lookUpFrom_resolve_uncached c source hfind hname, hfollow]
      cases r with
      | error f => exact ⟨hr, h⟩
      | ok e =>
        refine ⟨hr, h.insert ?_⟩
        rcases hr with hsame | ⟨e', he', hrecalled⟩
        · exact recalled_of_fresh hname hsame.symm
        · exact Except.ok.inj he' ▸ hrecalled
    · rw [fresh, lookUpFrom_resolve_not_name hfind hname,
        lookUpFrom_resolve_not_name (Dict.find?_empty name) hname]
      exact ⟨.inl rfl, h⟩

/-- The cache after looking up names, one after another. -/
def afterResolving (c : Catalog) (source : Fixed) (names : List String) : CatalogCache :=
  names.foldl (fun cache name => (lookUpFrom source (c.resolve name) cache).2) Dict.empty

lemma faithful_afterResolving (c : Catalog) (source : Fixed) (names : List String) :
    Faithful c source (afterResolving c source names) := by
  suffices hfold : ∀ cache, Faithful c source cache → Faithful c source
      (names.foldl (fun cache name => (lookUpFrom source (c.resolve name) cache).2) cache) from
    hfold Dict.empty faithful_empty
  induction names with
  | nil => exact fun cache h => h
  | cons name rest ih => exact fun cache h => ih _ (h.resolve name).2

/-! ## Where links end -/

/-- Links of which it depends on the cache what they lead to. -/
inductive Unsettled (c : Catalog) (source : Fixed) (name : String) : Prop
  /-- They go on after as many as are followed, to yet another name. -/
  | further {current target : String} {visited : List String}
      (chain : Chain c source name (current :: visited)) (links : LinksTo c source current target)
      (hname : isProgramName target) (hnew : target ∉ current :: visited)
      (hfull : (current :: visited).length = maxLinks + 1) : Unsettled c source name
  /-- They end where there is nothing, so that the registry is asked for the first name. -/
  | nowhere {current url : String} {visited : List String}
      (chain : Chain c source name (current :: visited)) (hlinks : visited ≠ [])
      (hmodule : c.fileOf source current "bin" = .ok none)
      (hlink : c.fileOf source current "lnk" = .ok none) (hregistry : c.registryUrl = some url) :
      Unsettled c source name

lemma Chain.leadsTo (h : Chain c source name (current :: visited)) :
    LeadsTo c source name current := by
  generalize hpath : current :: visited = path at h
  induction h generalizing current visited with
  | start =>
    obtain ⟨rfl, rfl⟩ := List.cons.inj hpath
    exact .refl
  | link before links hname hnew hroom ih =>
    obtain ⟨rfl, rfl⟩ := List.cons.inj hpath
    exact (ih rfl).tail ⟨links, hname⟩

/-- From each name of a chain but the last one a link leads to another of them. -/
lemma Chain.links_of_mem (h : Chain c source name (current :: visited)) (hmem : origin ∈ visited) :
    ∃ target, LinksTo c source origin target ∧ target ∈ current :: visited := by
  generalize hpath : current :: visited = path at h
  induction h generalizing current visited with
  | start =>
    obtain ⟨rfl, rfl⟩ := List.cons.inj hpath
    simp at hmem
  | link before links hname hnew hroom ih =>
    obtain ⟨rfl, rfl⟩ := List.cons.inj hpath
    rcases List.mem_cons.1 hmem with rfl | hearlier
    · exact ⟨_, links, List.mem_cons_self⟩
    · obtain ⟨target, hlinks, htarget⟩ := ih hearlier rfl
      exact ⟨target, hlinks, List.mem_cons_of_mem _ htarget⟩

/-- There is one chain of each length. -/
lemma Chain.unique {path path' : List String} (h : Chain c source name path)
    (h' : Chain c source name path') (hlength : path.length = path'.length) : path = path' := by
  induction h generalizing path' with
  | start =>
    cases h' with
    | start => rfl
    | link => simp at hlength
  | link before links hname hnew hroom ih =>
    cases h' with
    | start => simp at hlength
    | link before' links' hname' hnew' hroom' =>
      obtain ⟨rfl, rfl⟩ := List.cons.inj (ih before' (Nat.succ.inj hlength))
      rw [links.unique links']

/-- Links that are settled are all on a chain. -/
lemma LeadsTo.exists_chain (h : LeadsTo c source name current) (hsettled : ¬Unsettled c source name) :
    ∃ last visited, Chain c source name (last :: visited) ∧ current ∈ last :: visited := by
  induction h with
  | refl => exact ⟨name, [], .start, List.mem_singleton.2 rfl⟩
  | @tail origin target _ step ih =>
    obtain ⟨last, visited, hchain, hmem⟩ := ih
    by_cases htarget : target ∈ last :: visited
    · exact ⟨last, visited, hchain, htarget⟩
    · rcases List.mem_cons.1 hmem with rfl | hearlier
      · have hroom : (origin :: visited).length ≤ maxLinks := by
          have hlength := hchain.length_le
          have hfull : (origin :: visited).length ≠ maxLinks + 1 := fun hfull =>
            hsettled (.further hchain step.1 step.2 htarget hfull)
          omega
        exact ⟨target, _, hchain.link step.1 step.2 htarget hroom, List.mem_cons_self⟩
      · obtain ⟨target', hlinks, hmem'⟩ := hchain.links_of_mem hearlier
        exact absurd (step.1.unique hlinks ▸ hmem') htarget

/-! ## Settled links -/

/-- A chain at whose end a program is found ends at a module, or where there is nothing. -/
lemma Ends.of_ok (h : Ends c source name current visited (.ok e)) :
    (∃ bytes glue, c.fileOf source current "bin" = .ok (some bytes) ∧
        c.fileOf source current "rt" = .ok glue ∧ compile name bytes glue = .ok e) ∨
      ∃ url, c.fileOf source current "bin" = .ok none ∧ c.fileOf source current "lnk" = .ok none ∧
        c.registryUrl = some url := by
  generalize hr : Except.ok e = r at h
  cases h with
  | module hmodule hglue => exact .inl ⟨_, _, hmodule, hglue, rfl⟩
  | registry hmodule hlink hregistry => exact .inr ⟨_, hmodule, hlink, hregistry⟩
  | badLink | linkCycle | notFound | unreadableModule | unreadableGlue | unreadableLink => nomatch hr

/-- Where links are settled it makes no difference which of the names on the way was looked up. -/
lemma Recalled.fresh_eq (h : Recalled c source name e) (hsettled : ¬Unsettled c source name) :
    fresh c source name = .ok e := by
  obtain ⟨hname, origin, e₀, hleads, hfresh, rfl⟩ := h
  obtain ⟨last, path, hchain, hends⟩ :=
    (resolve_iff_chain_ends c source origin (hleads.isProgramName hname) _).1 hfresh
  have hnolink (target : String) : ¬LinksTo c source last target := by
    rintro ⟨hmodule, link, hlink, -⟩
    rcases hends.of_ok with ⟨bytes, glue, hbytes, -⟩ | ⟨url, -, hnone, -⟩
    · exact absurd (hmodule.symm.trans hbytes) (by simp)
    · exact absurd (hlink.symm.trans hnone) (by simp)
  -- the chain from `name` gets there, too, and can go no further
  obtain ⟨last', visited, hchain', hmem⟩ :=
    LeadsTo.exists_chain (hleads.trans hchain.leadsTo) hsettled
  obtain rfl : last = last' := by
    rcases List.mem_cons.1 hmem with rfl | hearlier
    · rfl
    · obtain ⟨target, hlinks, -⟩ := hchain'.links_of_mem hearlier
      exact absurd hlinks (hnolink target)
  rcases hends.of_ok with ⟨bytes, glue, hmodule, hglue, hcompile⟩ | ⟨url, hmodule, hlink, hregistry⟩
  · refine (resolve_iff_chain_ends c source name hname _).2 ⟨last, visited, hchain', ?_⟩
    rw [← compile_rename hcompile name]
    exact .module hmodule hglue
  · by_cases hvisited : visited = []
    -- the registry is asked for the name itself, where no link leads from
    · subst hvisited
      cases hchain' with
      | start =>
        obtain rfl : origin = name := by
          cases hleads.cases_head with
          | inl heq => exact heq.symm
          | inr hstep =>
            obtain ⟨target, hlinks, -⟩ := hstep
            exact absurd hlinks.1 (hnolink target)
        rw [hfresh, ← name_of_fresh hfresh]
    · exact absurd (.nowhere hchain' hvisited hmodule hlink hregistry) hsettled

/-- **Where links are settled, looking up a name comes to the same after any other lookups.**  Else
it comes to that, or to the program of another name that links lead to. -/
theorem resolve_after_others (c : Catalog) (source : Fixed) (names : List String) (name : String) :
    (¬Unsettled c source name →
        (lookUpFrom source (c.resolve name) (afterResolving c source names)).1 =
          fresh c source name) ∧
      ((lookUpFrom source (c.resolve name) (afterResolving c source names)).1 =
          fresh c source name ∨
        ∃ origin e, LeadsTo c source name origin ∧ fresh c source origin = .ok e ∧
          (lookUpFrom source (c.resolve name) (afterResolving c source names)).1 =
            .ok { e with name := name }) := by
  have hfaithful := faithful_afterResolving c source names
  have hcomes := (hfaithful.resolve name).1
  refine ⟨fun hsettled => ?_, ?_⟩
  · rcases hcomes with hsame | ⟨e, hfound, hrecalled⟩
    · exact hsame
    · rw [hfound, hrecalled.fresh_eq hsettled]
  · refine hcomes.imp_right ?_
    rintro ⟨e, hfound, -, origin, e₀, hleads, hfresh, rfl⟩
    exact ⟨origin, e₀, hleads, hfresh, hfound⟩

/-! ## Links that go on too far -/

/-- After the target of its link was found, a name is found to be the same, whatever it is on an
empty cache. -/
theorem resolve_after_target (hlinks : LinksTo c source name target) (hname : isProgramName name)
    (htarget : isProgramName target) (hother : target ≠ name) (hfresh : fresh c source target = .ok e) :
    (lookUpFrom source (c.resolve name) (afterResolving c source [target])).1 =
      .ok { e with name := name } := by
  have hcache : afterResolving c source [target] = Dict.empty.insert target e := by
    obtain ⟨r, hfollow, -⟩ := sameOrCached_follow c source Dict.empty target maxLinks target [target]
    rw [fresh_eq_follow htarget, hfollow] at hfresh
    obtain rfl : r = .ok e := hfresh
    rw [afterResolving, List.foldl_cons, List.foldl_nil,
      lookUpFrom_resolve_uncached c source (Dict.find?_empty target) htarget, hfollow]
  have hfind : (Dict.empty.insert target e).find? target = some e := by
    rw [Dict.find?_insert, if_pos rfl]
  have hnone : (Dict.empty.insert target e).find? name = none := by
    rw [Dict.find?_insert, if_neg hother.symm, Dict.find?_empty]
  obtain ⟨hmodule, link, hlink, rfl⟩ := hlinks
  rw [hcache, lookUpFrom_resolve_uncached c source hnone hname, maxLinks, follow,
    lookUpFrom_lookUpAt c source (.inl rfl), hmodule]
  simp only [hlink, if_pos htarget]
  rw [if_neg (by simpa using hother), follow, lookUpFrom_lookUpAt_cached c source hother hfind]

/-- Names that link each to the next one. -/
def rung (i : Nat) : String := ["l0", "l1", "l2", "l3", "l4", "l5", "l6", "l7", "l8", "l9"].getD i ""

def ladderCatalog : Catalog := ⟨"bin", none⟩

/-- Ten names, of which only the last one has a module. -/
def ladder : Fixed
  | .get "bin/l0.lnk" => .ok (Text.encode "l1")
  | .get "bin/l1.lnk" => .ok (Text.encode "l2")
  | .get "bin/l2.lnk" => .ok (Text.encode "l3")
  | .get "bin/l3.lnk" => .ok (Text.encode "l4")
  | .get "bin/l4.lnk" => .ok (Text.encode "l5")
  | .get "bin/l5.lnk" => .ok (Text.encode "l6")
  | .get "bin/l6.lnk" => .ok (Text.encode "l7")
  | .get "bin/l7.lnk" => .ok (Text.encode "l8")
  | .get "bin/l8.lnk" => .ok (Text.encode "l9")
  | .get "bin/l9.bin" => .ok ModuleFile.header
  | r => .error (.notFound r.url)

lemma ladder_links {i : Nat} (hi : i < 9) :
    LinksTo ladderCatalog ladder (rung i) (rung (i + 1)) ∧ isProgramName (rung (i + 1)) := by
  interval_cases i <;> exact ⟨⟨rfl, _, rfl, by decide +kernel⟩, by decide +kernel⟩

lemma rung_injective : ∀ i < 10, ∀ j < 10, rung i = rung j → i = j := by
  decide

/-- The rungs from `first` on, the last one of them first. -/
def rungs (first : Nat) : Nat → List String
  | 0 => [rung first]
  | n + 1 => rung (first + n + 1) :: rungs first n

lemma mem_rungs {first n : Nat} {name : String} (h : name ∈ rungs first n) :
    ∃ i ≤ n, name = rung (first + i) := by
  induction n with
  | zero => exact ⟨0, Nat.le_refl 0, List.mem_singleton.1 h⟩
  | succ n ih =>
    rcases List.mem_cons.1 h with rfl | hmem
    · exact ⟨n + 1, Nat.le_refl _, rfl⟩
    · obtain ⟨i, hi, rfl⟩ := ih hmem
      exact ⟨i, Nat.le_succ_of_le hi, rfl⟩

lemma length_rungs (first n : Nat) : (rungs first n).length = n + 1 := by
  induction n with
  | zero => rfl
  | succ n ih => rw [rungs, List.length_cons, ih]

lemma chain_rungs {first n : Nat} (hn : n ≤ maxLinks) (hlast : first + n < 10) :
    Chain ladderCatalog ladder (rung first) (rungs first n) := by
  induction n with
  | zero => exact .start
  | succ n ih =>
    have hlinks := ladder_links (show first + n < 9 by omega)
    have hnew : rung (first + n + 1) ∉ rungs first n := by
      intro hmem
      obtain ⟨i, hi, heq⟩ := mem_rungs hmem
      have := rung_injective _ hlast _ (by omega) heq
      omega
    have hroom : (rungs first n).length ≤ maxLinks := by
      rw [length_rungs]
      exact hn
    have hbefore := ih (by omega) (by omega)
    cases n with
    | zero => exact hbefore.link hlinks.1 hlinks.2 hnew hroom
    | succ n => exact hbefore.link hlinks.1 hlinks.2 hnew hroom


lemma fresh_rung_one : fresh ladderCatalog ladder "l1" = .ok { idleEntry with name := "l1" } := by
  have hname : isProgramName "l1" := by decide +kernel
  have hchain : Chain ladderCatalog ladder "l1" ("l9" :: rungs 1 7) :=
    chain_rungs (show 8 ≤ maxLinks by decide) (show 1 + 8 < 10 by decide)
  have hends : Ends ladderCatalog ladder "l1" "l9" ("l9" :: rungs 1 7)
      (compile "l1" ModuleFile.header none) := .module rfl rfl
  rw [compile_header] at hends
  exact (resolve_iff_chain_ends ladderCatalog ladder "l1" hname _).2 ⟨"l9", rungs 1 7, hchain, hends⟩

/-- Eight links are followed to their end. -/
lemma settled_rung_one : ¬Unsettled ladderCatalog ladder "l1" := by
  intro h
  cases h with
  | further hchain hlinks hname hnew hfull =>
    have hrungs : Chain ladderCatalog ladder "l1" (rungs 1 8) :=
      chain_rungs (show 8 ≤ maxLinks by decide) (show 1 + 8 < 10 by decide)
    obtain ⟨rfl, -⟩ := List.cons.inj (hchain.unique hrungs hfull)
    exact absurd hlinks.noModule nofun
  | nowhere hchain hlinks hmodule hlink hregistry => exact absurd hregistry nofun

theorem resolve_after_others_ladder :
    ¬Unsettled ladderCatalog ladder "l1" ∧
      (lookUpFrom ladder (ladderCatalog.resolve "l1") (afterResolving ladderCatalog ladder ["l5"])).1 =
        .ok { idleEntry with name := "l1" } :=
  ⟨settled_rung_one, ((resolve_after_others ladderCatalog ladder ["l5"] "l1").1 settled_rung_one).trans
    fresh_rung_one⟩

/-- **What a name is found to be can depend on earlier lookups**: at the end of its links there is a
module, but one link further than they are followed. -/
theorem ladder_depends_on_others :
    fresh ladderCatalog ladder "l0" = .error (.linkCycle "l0") ∧
      (lookUpFrom ladder (ladderCatalog.resolve "l0") (afterResolving ladderCatalog ladder ["l1"])).1 =
        .ok { idleEntry with name := "l0" } := by
  have hname : isProgramName "l0" := by decide +kernel
  have hfirst := ladder_links (show 0 < 9 by decide)
  have hlast := ladder_links (show 8 < 9 by decide)
  have hchain : Chain ladderCatalog ladder "l0" ("l8" :: rungs 0 7) :=
    chain_rungs (show 8 ≤ maxLinks by decide) (show 0 + 8 < 10 by decide)
  refine ⟨(resolve_iff_chain_ends ladderCatalog ladder "l0" hname _).2
    ⟨"l8", rungs 0 7, hchain, .linkCycle hlast.1 hlast.2 (.inr rfl)⟩, ?_⟩
  have hrecalled := resolve_after_target hfirst.1 hname hfirst.2 (by decide) fresh_rung_one
  exact hrecalled

end GuestShell.Catalog
