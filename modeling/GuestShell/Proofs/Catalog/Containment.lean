import GuestShell.Proofs.Catalog.Runs

/-!
# Where names are looked up

The name that is looked up comes from the user, and every further one from the text of a link, so
they may be anything.  Only program names are looked up, each of them in the program directory, and
no more than a few (`Stops`).  Where the links have led to nothing the registry is asked, and its
answer may point anywhere.

The lemmas take a lookup with whatever the files and the cache answer, also if they answer
otherwise each time (`fetches_resolve`).  The main statement, `resolve_stays_below_directory`, is
about a cache that nobody else uses meanwhile.
-/

namespace GuestShell.Catalog

variable {α β : Type} {c : Catalog} {name current : String} {r : Except ResolveError CatalogEntry}

/-! ## Runs with any cache -/

/-- What a lookup asked, files and cache alike, with the answers. -/
abbrev WholeLog : Type := Task.Log Request Answer

variable {log : WholeLog}

/-- What a request asks of a source of files. -/
def Request.source? : Request → Option SourceRequest
  | .get url => some (.get url)
  | .post url body => some (.post url body)
  | .cached _ | .keep _ _ => none

/-- What was asked of a source of files. -/
def fetched (log : WholeLog) : List SourceRequest := log.filterMap fun e => e.1.source?

@[simp] lemma fetched_nil : fetched [] = [] := rfl

@[simp] lemma fetched_cons (o : Request) (answer : Answer o) (log : WholeLog) :
    fetched (⟨o, answer⟩ :: log) = o.source?.toList ++ fetched log := by
  cases o <;> rfl

@[simp] lemma fetched_append (before after : WholeLog) :
    fetched (before ++ after) = fetched before ++ fetched after :=
  List.filterMap_append

/-- One way through a lookup, whatever the cache has at each look. -/
def Runs (l : Lookup α) (log : WholeLog) (r : Except ResolveError α) : Prop :=
  Task.Runs l.run log r

/-- What a lookup asks of the source, however it ends, has the property. -/
def Fetches (P : List SourceRequest → Prop) (l : Lookup α) : Prop :=
  ∀ ⦃log r⦄, Runs l log r → P (fetched log)

variable {P : List SourceRequest → Prop}

lemma fetches_return {known : Except ResolveError α} (h : P []) :
    Fetches P (ExceptT.mk (return known)) := by
  intro log r hruns
  obtain ⟨rfl, -⟩ := Task.runs_done_iff.1 hruns
  exact h

lemma fetches_ask_bind {o : Request} {f : Answer o → Lookup α}
    (hf : ∀ answer, Fetches (fun rest => P (o.source?.toList ++ rest)) (f answer)) :
    Fetches P (ask o >>= f) := by
  intro log r hruns
  obtain ⟨answer, rest, rfl, hrest⟩ := Task.runs_ask_iff.1 hruns
  rw [fetched_cons]
  exact hf answer hrest

lemma Fetches.imp {Q : List SourceRequest → Prop} {l : Lookup α} (h : Fetches Q l)
    (hPQ : ∀ requests, Q requests → P requests) : Fetches P l :=
  fun _ _ hruns => hPQ _ (h hruns)

/-- The reason of the first lookup ends both; else the second one follows. -/
lemma fetches_bind_of {Q : List SourceRequest → Prop} {l : Lookup β} {f : β → Lookup α}
    (hl : Fetches Q l) (hend : ∀ before, Q before → P before)
    (hf : ∀ before, Q before → ∀ b, Fetches (fun rest => P (before ++ rest)) (f b)) :
    Fetches P (l >>= f) := by
  intro log r hruns
  obtain ⟨_ | b, first, rest, rfl, hfirst, hrest⟩ := Task.runs_bind_iff.1 hruns
  · obtain ⟨rfl, -⟩ := Task.runs_done_iff.1 hrest
    rw [List.append_nil]
    exact hend _ (hl hfirst)
  · rw [fetched_append]
    exact hf _ (hl hfirst) b hrest

/-- The same where the first lookup asks the same whatever is answered. -/
lemma fetches_bind {before : List SourceRequest} {l : Lookup β} {f : β → Lookup α}
    (hl : Fetches (· = before) l) (hend : P before)
    (hf : ∀ b, Fetches (fun rest => P (before ++ rest)) (f b)) : Fetches P (l >>= f) :=
  fetches_bind_of hl (fun _ h => h ▸ hend) fun _ h => h ▸ hf

/-- A run over a cache that nobody else uses is one of the runs. -/
lemma exists_runs_of_ran {l : Lookup α} {cache cache' : CatalogCache} {log : Log}
    {r : Except ResolveError α} (h : Ran l cache log r cache') :
    ∃ whole, Runs l whole r ∧ fetched whole = log.map (·.1) := by
  simp only [Runs]
  rw [Ran, alone] at h
  generalize l.run = t at h ⊢
  induction t generalizing log cache with
  | done a =>
    obtain ⟨rfl, rfl, rfl⟩ := Task.runs_done_pair_iff.1 h
    exact ⟨[], .done _, rfl⟩
  | ask o next ih =>
    cases o with
    | get url =>
      obtain ⟨answer, rest, rfl, hrest⟩ := Task.runs_ask_iff.1 h
      obtain ⟨whole, hruns, hfetched⟩ := ih answer hrest
      exact ⟨⟨.get url, answer⟩ :: whole, Task.runs_ask_iff.2 ⟨answer, whole, rfl, hruns⟩,
        congrArg (_ :: ·) hfetched⟩
    | post url body =>
      obtain ⟨answer, rest, rfl, hrest⟩ := Task.runs_ask_iff.1 h
      obtain ⟨whole, hruns, hfetched⟩ := ih answer hrest
      exact ⟨⟨.post url body, answer⟩ :: whole, Task.runs_ask_iff.2 ⟨answer, whole, rfl, hruns⟩,
        congrArg (_ :: ·) hfetched⟩
    | cached name =>
      obtain ⟨whole, hruns, hfetched⟩ := ih (cache.find? name) h
      exact ⟨⟨.cached name, cache.find? name⟩ :: whole,
        Task.runs_ask_iff.2 ⟨_, whole, rfl, hruns⟩, hfetched⟩
    | keep name e =>
      obtain ⟨whole, hruns, hfetched⟩ := ih () h
      exact ⟨⟨.keep name e, ()⟩ :: whole, Task.runs_ask_iff.2 ⟨(), whole, rfl, hruns⟩, hfetched⟩

/-! ## Addresses -/

/-- What every address below the program directory begins with. -/
def directory (c : Catalog) : String :=
  if c.binDirectory = "" || Text.endsWith c.binDirectory "/" then c.binDirectory
  else c.binDirectory ++ "/"

/-- A text that names a file in a directory, with no way out of it. -/
def IsFileName (file : String) : Prop :=
  ∀ ch ∈ file.toList, ch ≠ '/' ∧ ch ≠ '\\' ∧ Text.isBlank ch = false ∧ Text.isControl ch = false

/-- The endings of a program's files. -/
def endings : List String := ["bin", "rt", "lnk"]

lemma url_eq_directory_append (c : Catalog) (name ending : String) :
    c.url name ending = c.directory ++ (name ++ "." ++ ending) := by
  rw [url, directory]
  by_cases hempty : c.binDirectory = ""
  · simp [hempty, String.empty_append]
  · by_cases hslash : Text.endsWith c.binDirectory "/"
    · simp [hempty, hslash, String.append_assoc]
    · simp [hempty, hslash, String.append_assoc]

lemma isFileName_of_isProgramName {ending : String} (hname : isProgramName name)
    (hending : ending ∈ endings) : IsFileName (name ++ "." ++ ending) := by
  have hendings : ∀ e ∈ endings, ("." ++ e).toList.all fun ch =>
      ch ≠ '/' ∧ ch ≠ '\\' ∧ Text.isBlank ch = false ∧ Text.isControl ch = false := by
    decide +kernel
  have hafter : IsFileName ("." ++ ending) := fun ch hch =>
    of_decide_eq_true (List.all_eq_true.1 (hendings ending hending) ch hch)
  intro ch hch
  rw [String.append_assoc, String.toList_append, List.mem_append] at hch
  rcases hch with hch | hch
  · simp only [isProgramName, Bool.and_eq_true, Bool.not_eq_true', List.any_eq_false,
      Bool.or_eq_true, beq_iff_eq, not_or] at hname
    obtain ⟨⟨⟨hslash, hback⟩, hblank⟩, hcontrol⟩ := hname.2 ch hch
    exact ⟨hslash, hback, eq_false_of_ne_true hblank, eq_false_of_ne_true hcontrol⟩
  · exact hafter ch hch

/-! ## What is asked -/

/-- The addresses of files that are given by names and endings. -/
def addresses (c : Catalog) (asked : List (String × String)) : List SourceRequest :=
  asked.map fun a => .get (c.url a.1 a.2)

/-- How often files with an ending were asked for. -/
def timesAsked (ending : String) (asked : List (String × String)) : Nat :=
  asked.countP (·.2 = ending)

/-- Files of programs, given by names and endings, as a lookup may ask for them. -/
structure Stops (limit : Nat) (asked : List (String × String)) : Prop where
  program : ∀ a ∈ asked, isProgramName a.1 ∧ a.2 ∈ endings
  modules : timesAsked "bin" asked ≤ limit
  links : timesAsked "lnk" asked ≤ limit
  glue : timesAsked "rt" asked ≤ 1

/-- The registry is asked what it has for a name, and then at most for one file. -/
def AsksRegistry (registryUrl name : String) (requests : List SourceRequest) : Prop :=
  ∃ rest, requests = .post registryUrl (PackageRegistry.question name) :: rest ∧
    (rest = [] ∨ ∃ url, rest = [.get url])

/-- Nothing is asked but the registry, if there is one. -/
def Consults (c : Catalog) (name : String) (requests : List SourceRequest) : Prop :=
  requests = [] ∨ ∃ registryUrl, c.registryUrl = some registryUrl ∧
    AsksRegistry registryUrl name requests

/-- First files of programs, at most so many, and then the registry. -/
def Seeks (c : Catalog) (name : String) (limit : Nat) (requests : List SourceRequest) : Prop :=
  ∃ asked consulted, requests = c.addresses asked ++ consulted ∧ Stops limit asked ∧
    Consults c name consulted

lemma Stops.nil (limit : Nat) : Stops limit [] :=
  ⟨by simp, by simp [timesAsked], by simp [timesAsked], by simp [timesAsked]⟩

/-- A module that was asked for in vain, and then a link. -/
lemma Stops.link {limit : Nat} {asked : List (String × String)} (h : Stops limit asked)
    (hcurrent : isProgramName current) :
    Stops (limit + 1) ((current, "bin") :: (current, "lnk") :: asked) where
  program := by simpa [endings, hcurrent] using h.program
  modules := by simpa [timesAsked] using h.modules
  links := by simpa [timesAsked] using h.links
  glue := by simpa [timesAsked] using h.glue

/-- A module, with or without its glue, and nothing after it. -/
lemma Stops.module (limit : Nat) (hcurrent : isProgramName current)
    {asked : List (String × String)} (h : asked = [] ∨ asked = [(current, "rt")]) :
    Stops (limit + 1) ((current, "bin") :: asked) := by
  rcases h with rfl | rfl
  · exact ⟨by simp [endings, hcurrent], by simp [timesAsked], by simp [timesAsked],
      by simp [timesAsked]⟩
  · exact ⟨by simp [endings, hcurrent], by simp [timesAsked], by simp [timesAsked],
      by simp [timesAsked]⟩

/-- Nothing but files of programs was asked for. -/
lemma Stops.seeks {limit : Nat} {asked : List (String × String)} (h : Stops limit asked) :
    Seeks c name limit (c.addresses asked) :=
  ⟨asked, [], (List.append_nil _).symm, h, .inl rfl⟩

/-- A link leads on. -/
lemma Seeks.link {limit : Nat} {requests : List SourceRequest} (h : Seeks c name limit requests)
    (hcurrent : isProgramName current) : Seeks c name (limit + 1)
      (.get (c.url current "bin") :: .get (c.url current "lnk") :: requests) := by
  obtain ⟨asked, consulted, rfl, hstops, hconsults⟩ := h
  exact ⟨_, consulted, rfl, hstops.link hcurrent, hconsults⟩

/-! ## The parts of a lookup -/

lemma fetches_cachedLink (name current : String) : Fetches (· = []) (cachedLink name current) := by
  rw [cachedLink]
  split
  · exact fetches_return rfl
  · refine fetches_ask_bind fun found => ?_
    cases found with
    | none => exact fetches_return rfl
    | some e => exact fetches_return rfl

lemma fetches_fetch (url : String) : Fetches (· = [.get url]) (fetch url) := by
  refine fetches_ask_bind fun answer => ?_
  cases answer with
  | ok bytes => exact fetches_return rfl
  | error e => exact fetches_return rfl

lemma fetches_fetchOptional (url : String) : Fetches (· = [.get url]) (fetchOptional url) := by
  refine fetches_ask_bind fun answer => ?_
  rcases answer with (_ | _ | _) | bytes <;> exact fetches_return rfl

lemma fetches_fetchFromRegistry (registryUrl name : String) :
    Fetches (AsksRegistry registryUrl name) (fetchFromRegistry registryUrl name) := by
  have hlisting : AsksRegistry registryUrl name
      [.post registryUrl (PackageRegistry.question name)] := ⟨[], rfl, .inl rfl⟩
  refine fetches_ask_bind fun answer => ?_
  cases answer with
  | error e => exact fetches_return hlisting
  | ok answer =>
    simp only
    split
    · exact fetches_return hlisting
    · exact fetches_return hlisting
    · split
      · exact fetches_return hlisting
      · exact fetches_bind (fetches_fetch _) ⟨_, rfl, .inr ⟨_, rfl⟩⟩ fun _ =>
          fetches_return ⟨_, rfl, .inr ⟨_, rfl⟩⟩

lemma fetches_lookUpInRegistry (c : Catalog) (name : String) :
    Fetches (Consults c name) (c.lookUpInRegistry name) := by
  rw [lookUpInRegistry]
  cases hurl : c.registryUrl with
  | none => exact fetches_return (.inl rfl)
  | some registryUrl =>
    have hconsults : ∀ requests, AsksRegistry registryUrl name requests →
        Consults c name requests := fun _ h => .inr ⟨registryUrl, hurl, h⟩
    refine fetches_bind_of (fetches_fetchFromRegistry registryUrl name) hconsults
      fun before hbefore bytes => ?_
    have hall : Consults c name (before ++ ([] ++ [])) := by
      simpa using hconsults before hbefore
    exact fetches_bind (fetches_return rfl) hall fun e => fetches_return hall

/-- **One stop of a lookup**: the module at `current` with its glue, or a link, or the registry. -/
lemma fetches_lookUpAt {next : String → Lookup CatalogEntry} {limit : Nat}
    (hcurrent : isProgramName current)
    (hnext : ∀ target, isProgramName target → Fetches (Seeks c name limit) (next target)) :
    Fetches (Seeks c name (limit + 1)) (c.lookUpAt name current next) := by
  refine fetches_bind (fetches_cachedLink name current) (Stops.nil _).seeks fun found => ?_
  cases found with
  | some e => exact fetches_return (Stops.nil _).seeks
  | none =>
    have hmodule := Stops.module limit hcurrent (.inl rfl)
    have hlink := (Stops.nil limit).link hcurrent
    refine fetches_bind (fetches_fetchOptional _) hmodule.seeks fun bin => ?_
    cases bin with
    | some bytes =>
      have hglue := Stops.module limit hcurrent (.inr rfl)
      exact fetches_bind (fetches_fetchOptional _) hglue.seeks fun glue =>
        fetches_return hglue.seeks
    | none =>
      refine fetches_bind (fetches_fetchOptional _) hlink.seeks fun link => ?_
      cases link with
      | none =>
        exact (fetches_lookUpInRegistry c name).imp fun rest hrest => ⟨_, rest, rfl, hlink, hrest⟩
      | some link =>
        simp only
        generalize linkTarget link = target
        split
        · rename_i htarget
          exact (hnext target htarget).imp fun rest hrest => hrest.link hcurrent
        · exact fetches_return hlink.seeks

/-- **Following links** asks for one module more than links are followed, and for as many links. -/
theorem fetches_follow (c : Catalog) (name : String) (links : Nat) (visited : List String)
    (hcurrent : isProgramName current) :
    Fetches (Seeks c name (links + 1)) (c.follow name links current visited) := by
  induction links generalizing current visited with
  | zero => exact fetches_lookUpAt hcurrent fun _ _ => fetches_return (Stops.nil 0).seeks
  | succ links ih =>
    refine fetches_lookUpAt hcurrent fun target htarget => ?_
    split
    · exact fetches_return (Stops.nil _).seeks
    · exact ih (target :: visited) htarget

/-! ## Whole lookups -/

/-- **A whole lookup**: nothing is asked for what is no program name, unless the cache has it. -/
theorem fetches_resolve (c : Catalog) (name : String) :
    Fetches (Seeks c name (maxLinks + 1)) (c.resolve name) := by
  refine fetches_ask_bind fun found => ?_
  cases found with
  | some e => exact fetches_return (Stops.nil _).seeks
  | none =>
    simp only
    split
    · exact fetches_return (Stops.nil _).seeks
    · rename_i hname
      refine fetches_bind_of (fetches_follow c name maxLinks [name] (by simpa using hname)) ?_ ?_
      · exact fun before hbefore => hbefore
      · intro before hbefore e
        refine fetches_ask_bind fun _ => fetches_return ?_
        simpa [Request.source?] using hbefore

variable {cache cache' : CatalogCache}

/-- What is no program name, and not in the cache, is not looked up. -/
lemma ran_resolve_nothing {log : Log} (hname : isProgramName name = false)
    (hfind : cache.find? name = none) (h : Ran (c.resolve name) cache log r cache') : log = [] := by
  rw [resolve, ran_cached_bind_iff, hfind] at h
  simp only [hname, Bool.not_false, if_true] at h
  rcases ran_bind_iff.1 h with ⟨e, -, hthrow⟩ | ⟨_, _, _, _, -, hthrow, -⟩
  · exact (ran_throw_iff.1 hthrow).1
  · exact nomatch (ran_throw_iff.1 hthrow).2.1

/-- **Looking up a name never leaves the program directory.**  All that is asked for before the
registry are files of program names, each in the program directory: at most nine modules, nine links
and one glue.  For a name that is no program name, and that the cache does not have, nothing is
asked at all. -/
theorem resolve_stays_below_directory {log : Log} (h : Ran (c.resolve name) cache log r cache') :
    (∃ asked consulted,
      log.map (·.1) = c.addresses asked ++ consulted ∧
      (∀ a ∈ asked, isProgramName a.1 ∧ a.2 ∈ ["bin", "rt", "lnk"] ∧
        c.url a.1 a.2 = c.directory ++ (a.1 ++ "." ++ a.2) ∧ IsFileName (a.1 ++ "." ++ a.2)) ∧
      timesAsked "bin" asked ≤ 9 ∧ timesAsked "lnk" asked ≤ 9 ∧ timesAsked "rt" asked ≤ 1 ∧
      Consults c name consulted) ∧
    (isProgramName name = false → cache.find? name = none → log = []) := by
  obtain ⟨whole, hruns, hfetched⟩ := exists_runs_of_ran h
  obtain ⟨asked, consulted, hrequests, hstops, hconsults⟩ := fetches_resolve c name hruns
  refine ⟨⟨asked, consulted, hfetched ▸ hrequests, fun a ha => ?_, hstops.modules, hstops.links,
    hstops.glue, hconsults⟩, fun hname hfind => ran_resolve_nothing hname hfind h⟩
  obtain ⟨hname, hending⟩ := hstops.program a ha
  exact ⟨hname, hending, url_eq_directory_append c a.1 a.2,
    isFileName_of_isProgramName hname hending⟩

/-- A link that points out of the directory. -/
theorem resolve_stays_below_directory_bad_link :
    ∃ log : Log, Ran (resolve ⟨"bin", none⟩ "up") Dict.empty log (.error (.badLink "up" "../up"))
        Dict.empty ∧
      log.map (·.1) = [.get "bin/up.bin", .get "bin/up.lnk"] ∧
      ∃ asked consulted, log.map (·.1) = addresses ⟨"bin", none⟩ asked ++ consulted ∧
        ∀ a ∈ asked, isProgramName a.1 := by
  have hname : isProgramName "up" := by decide +kernel
  have hout : isProgramName "../up" = false := by decide +kernel
  have htarget : linkTarget (Text.encode "../up\n") = "../up" := by decide +kernel
  have hreal : realContents (Text.encode "../up\n") = some (Text.encode "../up\n") := by
    decide +kernel
  have hbin : url ⟨"bin", none⟩ "up" "bin" = "bin/up.bin" := by decide +kernel
  have hlnk : url ⟨"bin", none⟩ "up" "lnk" = "bin/up.lnk" := by decide +kernel
  have hran : Ran (resolve ⟨"bin", none⟩ "up") Dict.empty
      [⟨.get "bin/up.bin", .error (.notFound "bin/up.bin")⟩,
        ⟨.get "bin/up.lnk", .ok (Text.encode "../up\n")⟩]
      (.error (.badLink "up" "../up")) Dict.empty := by
    rw [resolve, ran_cached_bind_iff, Dict.find?_empty]
    simp only [hname, Bool.not_true, Bool.false_eq_true, if_false]
    refine ran_bind_iff.2 (.inl ⟨_, rfl, ?_⟩)
    rw [maxLinks, follow, lookUpAt, hbin, hlnk]
    refine ran_get_bind_iff.2 ⟨_, _, rfl, ?_⟩
    refine ran_get_bind_iff.2 ⟨_, _, rfl, ?_⟩
    simp only [Task.bind_done, Function.comp_apply, ExceptT.bindCont, pure, ExceptT.pure,
      ExceptT.mk, hreal, htarget, hout, Bool.false_eq_true, if_false]
    exact ran_throw_iff.2 ⟨rfl, rfl, rfl⟩
  obtain ⟨⟨asked, consulted, hlog, hasked, -⟩, -⟩ := resolve_stays_below_directory hran
  exact ⟨_, hran, rfl, asked, consulted, hlog, fun a ha => (hasked a ha).1⟩

end GuestShell.Catalog
