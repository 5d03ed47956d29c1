import GuestShell.Proofs.Catalog.Cache
import GuestShell.Proofs.Catalog.Runs

/-!
# Where links lead

For files that never change, what a name is found to be is told without the loop that finds it.
`Chain` has the names that links lead to, one after another; `Ends` tells, for a name on the chain,
what comes of the whole lookup if it goes no further from there.  From each name there is one or the
other, and a chain has nine names at most, the first one included.

The main statement is `resolve_iff_chain_ends`: on every graph of links, cycles and endless chains
among them, a lookup comes to just what its chain ends in.
-/

namespace GuestShell.Catalog

/-! ## Files that never change -/

/-- Answers that never change. -/
abbrev Fixed : Type := SourceRequest → Except FetchError Bytes

/-- What there is of one file of a program.  No answer, an empty one and a page count as no file. -/
def fileOf (c : Catalog) (source : Fixed) (name ending : String) :
    Except FetchError (Option Bytes) :=
  match source (.get (c.url name ending)) with
  | .error (.notFound _) => .ok none
  | .error e => .error e
  | .ok bytes => .ok (if bytes = [] ∨ bytes.head? = some 0x3c then none else some bytes)

/-- The program that a registry has for a name. -/
def registryEntry (source : Fixed) (url name : String) : Except ResolveError CatalogEntry :=
  (lookUpFrom source (fetchFromRegistry url name) Dict.empty).1.bind fun bytes =>
    (compile name bytes none).map fun e => { e with abi := .libc }

/-! ## Chains of links -/

section

variable (c : Catalog) (source : Fixed) (name : String)

/-- Where `current` has no module, but a link. -/
structure LinksTo (current target : String) : Prop where
  noModule : c.fileOf source current "bin" = .ok none
  link : ∃ bytes, c.fileOf source current "lnk" = .ok (some bytes) ∧ linkTarget bytes = target

/-- The names that links lead to from `name`, the newest one first. -/
inductive Chain : List String → Prop
  | start : Chain [name]
  | link {current target : String} {visited : List String} (before : Chain (current :: visited))
      (links : LinksTo c source current target) (hname : isProgramName target)
      (hnew : target ∉ current :: visited) (hroom : (current :: visited).length ≤ maxLinks) :
      Chain (target :: current :: visited)

/-- What comes of looking up `name` if no link is followed from `current`, where the links in
`visited` have led, `current` among them. -/
inductive Ends (current : String) (visited : List String) : Except ResolveError CatalogEntry → Prop
  | module {bytes : Bytes} {glue : Option Bytes}
      (hmodule : c.fileOf source current "bin" = .ok (some bytes))
      (hglue : c.fileOf source current "rt" = .ok glue) :
      Ends current visited (compile name bytes glue)
  | badLink {target : String} (links : LinksTo c source current target)
      (hname : ¬isProgramName target) : Ends current visited (.error (.badLink name target))
  | linkCycle {target : String} (links : LinksTo c source current target)
      (hname : isProgramName target) (hend : target ∈ visited ∨ visited.length = maxLinks + 1) :
      Ends current visited (.error (.linkCycle name))
  | registry {url : String} (hmodule : c.fileOf source current "bin" = .ok none)
      (hlink : c.fileOf source current "lnk" = .ok none) (hregistry : c.registryUrl = some url) :
      Ends current visited (registryEntry source url name)
  | notFound (hmodule : c.fileOf source current "bin" = .ok none)
      (hlink : c.fileOf source current "lnk" = .ok none) (hregistry : c.registryUrl = none) :
      Ends current visited (.error (.notFound name))
  | unreadableModule {e : FetchError} (hmodule : c.fileOf source current "bin" = .error e) :
      Ends current visited (.error (.fetch e))
  | unreadableGlue {bytes : Bytes} {e : FetchError}
      (hmodule : c.fileOf source current "bin" = .ok (some bytes))
      (hglue : c.fileOf source current "rt" = .error e) : Ends current visited (.error (.fetch e))
  | unreadableLink {e : FetchError} (hmodule : c.fileOf source current "bin" = .ok none)
      (hlink : c.fileOf source current "lnk" = .error e) : Ends current visited (.error (.fetch e))

end

variable {c : Catalog} {source : Fixed} {name current target : String} {visited : List String}
  {links : Nat} {next : String → Lookup CatalogEntry}

lemma Chain.length_le (h : Chain c source name visited) : visited.length ≤ maxLinks + 1 := by
  cases h with
  | start => exact Nat.succ_le_succ (Nat.zero_le _)
  | link _ _ _ _ hroom => exact Nat.succ_le_succ hroom

/-- A chain goes on or comes to an end. -/
lemma ends_or_links (c : Catalog) (source : Fixed) (name current : String) (visited : List String) :
    (∃ r, Ends c source name current visited r) ∨
      ∃ target, LinksTo c source current target ∧ isProgramName target ∧ target ∉ visited ∧
        visited.length ≠ maxLinks + 1 := by
  rcases hmodule : c.fileOf source current "bin" with e | _ | bytes
  · exact .inl ⟨_, .unreadableModule hmodule⟩
  · rcases hlink : c.fileOf source current "lnk" with e | _ | link
    · exact .inl ⟨_, .unreadableLink hmodule hlink⟩
    · cases hregistry : c.registryUrl with
      | none => exact .inl ⟨_, .notFound hmodule hlink hregistry⟩
      | some url => exact .inl ⟨_, .registry hmodule hlink hregistry⟩
    · have hlinks : LinksTo c source current (linkTarget link) := ⟨hmodule, link, hlink, rfl⟩
      by_cases hname : isProgramName (linkTarget link)
      · by_cases hend : linkTarget link ∈ visited ∨ visited.length = maxLinks + 1
        · exact .inl ⟨_, .linkCycle hlinks hname hend⟩
        · exact .inr ⟨_, hlinks, hname, fun h => hend (.inl h), fun h => hend (.inr h)⟩
      · exact .inl ⟨_, .badLink hlinks hname⟩
  · rcases hglue : c.fileOf source current "rt" with e | glue
    · exact .inl ⟨_, .unreadableGlue hmodule hglue⟩
    · exact .inl ⟨_, .module hmodule hglue⟩

/-- Every chain can be followed to an end. -/
lemma Chain.exists_ends (h : Chain c source name (current :: visited)) :
    ∃ last path r, Chain c source name (last :: path) ∧ Ends c source name last (last :: path) r := by
  -- on the links that there is still room for: who follows one has one less
  induction hleft : maxLinks - visited.length generalizing current visited with
  | zero =>
    rcases ends_or_links c source name current (current :: visited) with
      ⟨r, hends⟩ | ⟨target, -, -, -, hroom⟩
    · exact ⟨current, visited, r, h, hends⟩
    · have hlength := h.length_le
      rw [List.length_cons] at hlength hroom
      omega
  | succ left ih =>
    rcases ends_or_links c source name current (current :: visited) with
      ⟨r, hends⟩ | ⟨target, hlinks, hname, hnew, -⟩
    · exact ⟨current, visited, r, h, hends⟩
    · refine ih (h.link hlinks hname hnew ?_) ?_
      · rw [List.length_cons]
        omega
      · rw [List.length_cons]
        omega

/-! ## Following a chain -/

lemma lookUpFrom_fetchOptional (c : Catalog) (source : Fixed) (name ending : String)
    (cache : CatalogCache) : lookUpFrom source (fetchOptional (c.url name ending)) cache =
      match c.fileOf source name ending with
      | .ok file => (.ok file, cache)
      | .error e => (.error (.fetch e), cache) := by
  rw [fetchOptional, lookUpFrom_bind, lookUpFrom_get, fileOf]
  rcases source (.get (c.url name ending)) with (_ | _ | _) | bytes
  · rfl
  · rfl
  · rfl
  · have hreal : realContents bytes =
        if bytes = [] ∨ bytes.head? = some 0x3c then none else some bytes := by
      simp [realContents, isErrorPage]
    simp only [lookUpFrom_pure, hreal]

/-- Nothing is found of a name that the cache does not have, nor of the one that is looked up. -/
lemma lookUpFrom_cachedLink (source : Fixed) {cache : CatalogCache}
    (h : current = name ∨ cache.find? current = none) :
    lookUpFrom source (cachedLink name current) cache = (.ok none, cache) := by
  rw [cachedLink]
  split
  · rfl
  · rename_i hother
    rw [lookUpFrom_bind, lookUpFrom_cached, h.resolve_left hother]
    rfl

lemma lookUpFrom_lookUpInRegistry (c : Catalog) (source : Fixed) (name : String)
    (cache : CatalogCache) :
    lookUpFrom source (c.lookUpInRegistry name) cache =
      match c.registryUrl with
      | none => (.error (.notFound name), cache)
      | some url => (registryEntry source url name, cache) := by
  rw [lookUpInRegistry]
  cases c.registryUrl with
  | none => rfl
  | some url =>
    have hfetch : Asks Request.isFetch (fetchFromRegistry url name) :=
      asks_fetchFromRegistry (fun _ => trivial) (fun _ _ => trivial) url name
    simp only [lookUpFrom_bind, registryEntry, lookUpFrom_of_asks hfetch source cache]
    cases (lookUpFrom source (fetchFromRegistry url name) Dict.empty).1 with
    | error e => rfl
    | ok bytes =>
      simp only [lookUpFrom_return, lookUpFrom_pure, Except.bind]
      cases compile name bytes none with
      | error e => rfl
      | ok e => rfl

lemma lookUpFrom_lookUpAt (c : Catalog) (source : Fixed) {cache : CatalogCache}
    (h : current = name ∨ cache.find? current = none) (next : String → Lookup CatalogEntry) :
    lookUpFrom source (c.lookUpAt name current next) cache =
      match c.fileOf source current "bin" with
      | .error e => (.error (.fetch e), cache)
      | .ok (some bytes) =>
        match c.fileOf source current "rt" with
        | .error e => (.error (.fetch e), cache)
        | .ok glue => (compile name bytes glue, cache)
      | .ok none =>
        match c.fileOf source current "lnk" with
        | .error e => (.error (.fetch e), cache)
        | .ok none => lookUpFrom source (c.lookUpInRegistry name) cache
        | .ok (some link) =>
          if isProgramName (linkTarget link) then lookUpFrom source (next (linkTarget link)) cache
          else (.error (.badLink name (linkTarget link)), cache) := by
  rw [lookUpAt, lookUpFrom_bind, lookUpFrom_cachedLink source h]
  simp only [lookUpFrom_bind, lookUpFrom_fetchOptional]
  rcases c.fileOf source current "bin" with e | _ | bytes
  · rfl
  · simp only [lookUpFrom_bind, lookUpFrom_fetchOptional]
    rcases c.fileOf source current "lnk" with e | _ | link
    · rfl
    · rfl
    · simp only
      split
      · rfl
      · rfl
  · simp only [lookUpFrom_bind, lookUpFrom_fetchOptional]
    rcases c.fileOf source current "rt" with e | glue
    · rfl
    · rfl

/-- Where a link may be followed, looking on from its target is all there is to do. -/
lemma LinksTo.follow (h : LinksTo c source current target) (hname : isProgramName target)
    (hnew : target ∉ visited) :
    lookUpFrom source (c.follow name (links + 1) current visited) Dict.empty =
      lookUpFrom source (c.follow name links target (target :: visited)) Dict.empty := by
  obtain ⟨hmodule, link, hlink, rfl⟩ := h
  rw [Catalog.follow, lookUpFrom_lookUpAt c source (.inr (Dict.find?_empty current)), hmodule]
  simp only [hlink, if_pos hname]
  rw [if_neg (by simpa using hnew)]

/-- With as many links left as the names on the way leave room for, the end of a chain is found. -/
lemma Ends.follow {r : Except ResolveError CatalogEntry} (h : Ends c source name current visited r)
    (hlinks : links + visited.length = maxLinks + 1) :
    lookUpFrom source (c.follow name links current visited) Dict.empty = (r, Dict.empty) := by
  -- only a link that ends the chain is left to look at, and there the loop gives up, too
  have hat : ∃ next, c.follow name links current visited = c.lookUpAt name current next ∧
      ∀ target, (target ∈ visited ∨ visited.length = maxLinks + 1) →
        next target = throw (.linkCycle name) := by
    cases links with
    | zero => exact ⟨_, rfl, fun _ _ => rfl⟩
    | succ links =>
      refine ⟨_, rfl, fun target hend => if_pos ?_⟩
      rcases hend with hvisited | hfull
      · simpa using hvisited
      · omega
  obtain ⟨next, hfollow, hnext⟩ := hat
  rw [hfollow, lookUpFrom_lookUpAt c source (.inr (Dict.find?_empty current))]
  cases h with
  | module hmodule hglue => simp only [hmodule, hglue]
  | badLink hlinks hname =>
    obtain ⟨hmodule, link, hlink, rfl⟩ := hlinks
    simp only [hmodule, hlink, if_neg hname]
  | linkCycle hlinks hname hend =>
    obtain ⟨hmodule, link, hlink, rfl⟩ := hlinks
    simp only [hmodule, hlink, if_pos hname, hnext _ hend]
    rfl
  | registry hmodule hlink hregistry =>
    simp only [hmodule, hlink, lookUpFrom_lookUpInRegistry, hregistry]
  | notFound hmodule hlink hregistry =>
    simp only [hmodule, hlink, lookUpFrom_lookUpInRegistry, hregistry]
  | unreadableModule hmodule => simp only [hmodule]
  | unreadableGlue hmodule hglue => simp only [hmodule, hglue]
  | unreadableLink hmodule hlink => simp only [hmodule, hlink]

/-- Following links from the first name comes to the same as following them from any on the chain.
-/
lemma Chain.follow (h : Chain c source name (current :: visited)) :
    ∃ links, links + (current :: visited).length = maxLinks + 1 ∧
      lookUpFrom source (c.follow name maxLinks name [name]) Dict.empty =
        lookUpFrom source (c.follow name links current (current :: visited)) Dict.empty := by
  generalize hpath : current :: visited = path at h
  induction h generalizing current visited with
  | start =>
    obtain ⟨rfl, rfl⟩ := List.cons.inj hpath
    exact ⟨maxLinks, rfl, rfl⟩
  | link before links hname hnew hroom ih =>
    obtain ⟨rfl, rfl⟩ := List.cons.inj hpath
    obtain ⟨left, hleft, hsame⟩ := ih rfl
    cases left with
    -- a chain with no links left has no room for another name
    | zero => omega
    | succ left =>
      refine ⟨left, ?_, hsame.trans (links.follow hname hnew)⟩
      rw [List.length_cons]
      omega

/-- **A lookup comes to what its chain of links ends in**, and there is just one end to come to: on
every graph of links, with every way for a file to be missing. -/
theorem resolve_iff_chain_ends (c : Catalog) (source : Fixed) (name : String)
    (hname : isProgramName name) (r : Except ResolveError CatalogEntry) :
    (lookUpFrom source (c.resolve name) Dict.empty).1 = r ↔
      ∃ current visited, Chain c source name (current :: visited) ∧
        Ends c source name current (current :: visited) r := by
  have hresolve : (lookUpFrom source (c.resolve name) Dict.empty).1 =
      (lookUpFrom source (c.follow name maxLinks name [name]) Dict.empty).1 := by
    have hcached : lookUpFrom source (ask (.cached name)) Dict.empty = (.ok none, Dict.empty) := rfl
    rw [resolve, lookUpFrom_bind, hcached]
    simp only [if_neg (show ¬(!isProgramName name) = true by simpa using hname), lookUpFrom_bind]
    rcases lookUpFrom source (c.follow name maxLinks name [name]) Dict.empty with ⟨_ | _, _⟩
    · rfl
    · rfl
  have hend : ∀ {current visited r}, Chain c source name (current :: visited) →
      Ends c source name current (current :: visited) r →
        (lookUpFrom source (c.follow name maxLinks name [name]) Dict.empty).1 = r := by
    intro current visited r hchain hends
    obtain ⟨links, hlinks, hsame⟩ := hchain.follow
    rw [hsame, hends.follow hlinks]
  rw [hresolve]
  constructor
  · rintro rfl
    obtain ⟨current, visited, r, hchain, hends⟩ := Chain.start.exists_ends
    exact ⟨current, visited, hchain, hend hchain hends ▸ hends⟩
  · rintro ⟨current, visited, hchain, hends⟩
    exact hend hchain hends

/-- Two names that link to each other. -/
def pingPong : Fixed
  | .get "bin/ping.lnk" => .ok (Text.encode "pong")
  | .get "bin/pong.lnk" => .ok (Text.encode " ping\n")
  | r => .error (.notFound r.url)

theorem resolve_iff_chain_ends_ping_pong :
    isProgramName "ping" ∧
      (lookUpFrom pingPong (resolve ⟨"bin", none⟩ "ping") Dict.empty).1 =
        .error (.linkCycle "ping") := by
  have hping : isProgramName "ping" := by decide +kernel
  have hpong : isProgramName "pong" := by decide +kernel
  have hthere : LinksTo ⟨"bin", none⟩ pingPong "ping" "pong" :=
    ⟨rfl, Text.encode "pong", rfl, by decide +kernel⟩
  have hback : LinksTo ⟨"bin", none⟩ pingPong "pong" "ping" :=
    ⟨rfl, Text.encode " ping\n", rfl, by decide +kernel⟩
  have hchain : Chain ⟨"bin", none⟩ pingPong "ping" ["pong", "ping"] :=
    .link .start hthere hpong (by decide) (by decide)
  refine ⟨hping, (resolve_iff_chain_ends _ pingPong "ping" hping _).2 ⟨"pong", ["ping"], hchain, ?_⟩⟩
  exact .linkCycle hback hping (.inl (by decide))

end GuestShell.Catalog
