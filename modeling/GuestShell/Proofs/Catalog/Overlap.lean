import GuestShell.Catalog.Overlap
import GuestShell.Proofs.Catalog.Cache
import GuestShell.Proofs.Catalog.Runs
import Mathlib.Logic.Relation

/-!
# Modules that are dropped while their name is looked up

Taking in modules asks for no file, so it is over in one turn.  Where that turn falls decides on
what the cache has for a name that is looked up at the same time.  A lookup goes through three
stages (`Stage`): it has not begun, it waits for a file, it is over.  It looks at the cache in its
first turn and writes to it in its last one, and what came in between is overwritten.

The main statement is `dropped_stays_unless_awaited`; `overlap_loses_dropped` is an order of turns
in which the dropped module is lost.
-/

namespace GuestShell.Catalog

variable {α β : Type} {c : Catalog} {cache : CatalogCache} {name : String}

/-! ## Turns -/

/-- A call that does not wait for a file goes on by itself. -/
lemma Turn.eq_advance {t : Activity α} {p : Activity α × CatalogCache} (h : Turn t cache p)
    (ht : isWaiting t = false) : p = advance t cache := by
  cases h with
  | polled => rfl
  | got => simp [isWaiting] at ht
  | posted => simp [isWaiting] at ht

lemma Turn.eq_done {r : Except ResolveError α} {p : Activity α × CatalogCache}
    (h : Turn (.done r) cache p) : p = (.done r, cache) :=
  h.eq_advance rfl

lemma not_isWaiting_of_advance {t : Activity α} {r : Except ResolveError α} {u : CatalogCache}
    (h : advance t cache = (.done r, u)) : isWaiting t = false := by
  rcases t with r | ⟨_ | _ | _ | _, next⟩
  · rfl
  · simp [advance] at h
  · simp [advance] at h
  · rfl
  · rfl

lemma advance_of_isWaiting {t : Activity α} (h : isWaiting t) : advance t cache = (t, cache) := by
  rcases t with r | ⟨_ | _ | _ | _, next⟩
  · rfl
  · rfl
  · rfl
  · simp [isWaiting] at h
  · simp [isWaiting] at h

lemma isWaiting_bind {t : Activity α} (h : isWaiting t)
    (f : Except ResolveError α → Activity β) : isWaiting (t.bind f) := by
  rcases t with r | ⟨_ | _ | _ | _, next⟩
  · simp [isWaiting] at h
  · rfl
  · rfl
  · simp [isWaiting] at h
  · simp [isWaiting] at h

/-- Going on with two calls one after the other. -/
lemma advance_bind (t : Activity α) (f : Except ResolveError α → Activity β)
    (cache : CatalogCache) :
    advance (t.bind f) cache = advance ((advance t cache).1.bind f) (advance t cache).2 := by
  induction t generalizing cache with
  | done r => rfl
  | ask request next ih =>
    cases request with
    | get url => rfl
    | post url body => rfl
    | cached name => exact ih _ cache
    | keep name e => exact ih () (cache.insert name e)

/-! ## Taking in modules -/

/-- The program that files supply for a name. -/
def dropped (files : List (String × Bytes)) (name : String) : Option CatalogEntry :=
  (advance (ingest files).run Dict.empty).2.find? name

/-- Modules are kept in one turn, which comes to the same end on every cache.  What it leaves for
the names that it tells does not depend on what was there before. -/
lemma advance_keepModules (files : List (String × Bytes)) (glue : Dict String Bytes)
    (cache₁ cache₂ : CatalogCache) :
    ∃ r u₁ u₂, advance (keepModules files glue).run cache₁ = (.done r, u₁) ∧
      advance (keepModules files glue).run cache₂ = (.done r, u₂) ∧
      ∀ names, r = .ok names → ∀ name,
        (name ∈ names ∨ ∃ e, cache₁.find? name = some e ∧ cache₂.find? name = some e) →
          ∃ e, u₁.find? name = some e ∧ u₂.find? name = some e := by
  induction files generalizing glue cache₁ cache₂ with
  | nil =>
    refine ⟨.ok [], cache₁, cache₂, rfl, rfl, ?_⟩
    intro names hnames name h
    obtain rfl := Except.ok.inj hnames
    simpa using h
  | cons file rest ih =>
    obtain ⟨name, bytes⟩ := file
    cases hcompile : compile name bytes ((glue.find? name).bind realContents) with
    | error e =>
      have hrun (u : CatalogCache) :
          advance (keepModules ((name, bytes) :: rest) glue).run u = (.done (.error e), u) := by
        rw [keepModules, hcompile]
        rfl
      refine ⟨.error e, cache₁, cache₂, hrun cache₁, hrun cache₂, ?_⟩
      intro names hnames
      simp at hnames
    | ok e =>
      have hrun (u u' : CatalogCache) (r : Except ResolveError (List String))
          (h : advance (keepModules rest (glue.erase name)).run (u.insert name e) = (.done r, u')) :
          advance (keepModules ((name, bytes) :: rest) glue).run u =
            (.done (r.map (name :: ·)), u') := by
        rw [keepModules, hcompile]
        refine (advance_bind (keepModules rest (glue.erase name)).run _ (u.insert name e)).trans ?_
        rw [h]
        cases r with
        | error f => rfl
        | ok names => rfl
      obtain ⟨r, u₁, u₂, h₁, h₂, hsame⟩ :=
        ih (glue.erase name) (cache₁.insert name e) (cache₂.insert name e)
      refine ⟨_, u₁, u₂, hrun _ _ r h₁, hrun _ _ r h₂, ?_⟩
      intro names hnames other hother
      cases r with
      | error f => simp [Except.map] at hnames
      | ok names' =>
        obtain rfl := Except.ok.inj hnames
        refine hsame names' rfl other ?_
        rw [Dict.find?_insert, Dict.find?_insert]
        split
        · exact .inr ⟨e, rfl, rfl⟩
        · rename_i hne
          exact hother.imp_left fun h => (List.mem_cons.1 h).resolve_left hne

/-- **Taking in modules is over in one turn**, and the names that it tells are bound to what the
files supply. -/
lemma advance_ingest (files : List (String × Bytes)) (cache : CatalogCache) :
    ∃ r u, advance (ingest files).run cache = (.done r, u) ∧
      ∀ names, r = .ok names → ∀ name ∈ names,
        ∃ e, dropped files name = some e ∧ u.find? name = some e := by
  obtain ⟨r, u₁, u₂, h₁, h₂, hsame⟩ := advance_keepModules
    (files.foldl Supplied.add ⟨[], Dict.empty⟩).modules
    (files.foldl Supplied.add ⟨[], Dict.empty⟩).glue Dict.empty cache
  refine ⟨r, u₂, h₂, fun names hnames name hname => ?_⟩
  rw [dropped, ingest, h₁]
  exact hsame names hnames name (.inl hname)

lemma not_isWaiting_ingest (files : List (String × Bytes)) :
    isWaiting (ingest files).run = false := by
  obtain ⟨r, u, hadvance, -⟩ := advance_ingest files Dict.empty
  exact not_isWaiting_of_advance hadvance

/-! ## The stages of a lookup -/

/-- What keeps nothing goes on to the next file or to the end, and the cache stays. -/
lemma advance_of_only {t : Activity α} (h : t.Only Request.leavesCache fun _ => True)
    (cache : CatalogCache) :
    ∃ t', advance t cache = (t', cache) ∧ t'.Only Request.leavesCache (fun _ => True) ∧
      ((∃ r, t' = .done r) ∨ isWaiting t') := by
  induction t with
  | done r => exact ⟨.done r, rfl, h, .inl ⟨r, rfl⟩⟩
  | ask request next ih =>
    cases request with
    | get url => exact ⟨_, rfl, h, .inr rfl⟩
    | post url body => exact ⟨_, rfl, h, .inr rfl⟩
    | cached name => exact ih _ (h.2 _)
    | keep name e => exact absurd h.1 id

/-- The end of a lookup: what was found is kept. -/
def keepFound (name : String) : Except ResolveError CatalogEntry → Activity CatalogEntry
  | .ok e => .ask (.keep name e) fun _ => .done (.ok e)
  | .error e => .done (.error e)

/-- What a lookup is while it waits for a file. -/
inductive Awaits (name : String) : Activity CatalogEntry → Prop
  | intro {t : Activity CatalogEntry} (honly : t.Only Request.leavesCache fun _ => True)
      (hwaits : isWaiting t) : Awaits name (t.bind (keepFound name))

lemma Awaits.waits {t : Activity CatalogEntry} (h : Awaits name t) : isWaiting t := by
  obtain ⟨-, hwaits⟩ := h
  exact isWaiting_bind hwaits _

/-- How far a lookup has come. -/
inductive Stage (c : Catalog) (name : String) : Activity CatalogEntry → Prop
  | begins : Stage c name (c.resolve name).run
  | awaits {t : Activity CatalogEntry} (h : Awaits name t) : Stage c name t
  | ends (r : Except ResolveError CatalogEntry) : Stage c name (.done r)

/-- Where a lookup has come from `cache` on, once it has looked there for its name in vain. -/
inductive Searches (name : String) (cache : CatalogCache) :
    Activity CatalogEntry × CatalogCache → Prop
  | awaits {t : Activity CatalogEntry} (h : Awaits name t) : Searches name cache (t, cache)
  | fails (e : ResolveError) : Searches name cache (.done (.error e), cache)
  | finds (e : CatalogEntry) : Searches name cache (.done (.ok e), cache.insert name e)

lemma searches_advance {t : Activity CatalogEntry} (h : t.Only Request.leavesCache fun _ => True)
    (name : String) (cache : CatalogCache) :
    Searches name cache (advance (t.bind (keepFound name)) cache) := by
  obtain ⟨t', hadvance, honly, ⟨r, rfl⟩ | hwaits⟩ := advance_of_only h cache
  · rw [advance_bind, hadvance]
    cases r with
    | error e => exact .fails e
    | ok e => exact .finds e
  · rw [advance_bind, hadvance, advance_of_isWaiting (isWaiting_bind hwaits _)]
    exact .awaits ⟨honly, hwaits⟩

lemma Awaits.turn {t : Activity CatalogEntry} {p : Activity CatalogEntry × CatalogCache}
    (h : Awaits name t) (hturn : Turn t cache p) : Searches name cache p := by
  obtain ⟨honly, hwaits⟩ := h
  rename_i t
  rcases t with r | ⟨_ | _ | _ | _, next⟩
  · simp [isWaiting] at hwaits
  · cases hturn with
    | polled => exact searches_advance honly name cache
    | got answer => exact searches_advance (honly.2 answer) name cache
  · cases hturn with
    | polled => exact searches_advance honly name cache
    | posted answer => exact searches_advance (honly.2 answer) name cache
  · simp [isWaiting] at hwaits
  · simp [isWaiting] at hwaits

lemma Searches.turn {p q : Activity CatalogEntry × CatalogCache} (h : Searches name cache p)
    (hturn : Turn p.1 p.2 q) : Searches name cache q := by
  cases h with
  | awaits h => exact h.turn hturn
  | fails e => exact hturn.eq_done ▸ .fails e
  | finds e => exact hturn.eq_done ▸ .finds e

lemma Searches.stage {p : Activity CatalogEntry × CatalogCache} (h : Searches name cache p) :
    Stage c name p.1 := by
  cases h with
  | awaits h => exact .awaits h
  | fails e => exact .ends _
  | finds e => exact .ends _

lemma not_isWaiting_resolve (c : Catalog) (name : String) :
    isWaiting (c.resolve name).run = false :=
  rfl

lemma advance_cached_bind (name : String) (f : Option CatalogEntry → Lookup α)
    (cache : CatalogCache) :
    advance (ask (.cached name) >>= f).run cache = advance (f (cache.find? name)).run cache :=
  rfl

/-- The first turn of a lookup whose name is in the cache is the last one. -/
lemma advance_resolve_cached {e : CatalogEntry} (h : cache.find? name = some e) :
    advance (c.resolve name).run cache = (.done (.ok e), cache) := by
  rw [resolve, advance_cached_bind, h]
  rfl

lemma advance_resolve_uncached (c : Catalog) (hname : isProgramName name)
    (hnone : cache.find? name = none) :
    advance (c.resolve name).run cache =
      advance ((c.follow name maxLinks name [name]).run.bind (keepFound name)) cache := by
  rw [resolve, advance_cached_bind, hnone]
  simp only [if_neg (show ¬(!isProgramName name) = true by simpa using hname)]
  refine congrArg (fun k => advance ((c.follow name maxLinks name [name]).run.bind k) cache)
    (funext fun r => ?_)
  cases r with
  | ok e => rfl
  | error e => rfl

lemma searches_resolve (c : Catalog) (hnone : cache.find? name = none) :
    Searches name cache (advance (c.resolve name).run cache) := by
  by_cases hname : isProgramName name
  · rw [advance_resolve_uncached c hname hnone]
    exact searches_advance (leavesCache_follow c name maxLinks name [name]) name cache
  · rw [resolve, advance_cached_bind, hnone]
    simp only [if_pos (show (!isProgramName name) = true by simpa using hname)]
    exact .fails (.notFound name)

lemma Stage.turn {t : Activity CatalogEntry} {p : Activity CatalogEntry × CatalogCache}
    (h : Stage c name t) (hturn : Turn t cache p) : Stage c name p.1 := by
  cases h with
  | begins =>
    rw [hturn.eq_advance (not_isWaiting_resolve c name)]
    cases hfind : cache.find? name with
    | some e =>
      rw [advance_resolve_cached hfind]
      exact .ends _
    | none => exact (searches_resolve c hfind).stage
  | awaits h => exact (h.turn hturn).stage
  | ends r =>
    rw [hturn.eq_done]
    exact .ends r

/-! ## Overlapping calls -/

namespace Overlap

/-- One overlap leads to another. -/
abbrev Reaches : Overlap α β → Overlap α β → Prop := Relation.ReflTransGen Step

/-- The turns of one call, while the other one is over. -/
abbrev Alone : Activity α × CatalogCache → Activity α × CatalogCache → Prop :=
  Relation.ReflTransGen fun p q => Turn p.1 p.2 q

/-- After the second call is over only the first one has turns that matter. -/
lemma alone_of_reaches {x y : Overlap α β} {r : Except ResolveError β} (h : Reaches x y)
    (hdone : x.second = .done r) :
    y.second = .done r ∧ Alone (x.first, x.cache) (y.first, y.cache) := by
  induction h with
  | refl => exact ⟨hdone, .refl⟩
  | tail _ step ih =>
    obtain ⟨hsecond, halone⟩ := ih
    cases step with
    | first turn => exact ⟨hsecond, halone.tail turn⟩
    | second turn =>
      rw [hsecond] at turn
      rw [turn.eq_done]
      exact ⟨rfl, halone⟩

end Overlap

open Overlap

/-- A lookup that has looked in vain before overwrites what the cache has for its name. -/
lemma Searches.alone {p q : Activity CatalogEntry × CatalogCache} (h : Searches name cache p)
    (halone : Alone p q) : Searches name cache q := by
  induction halone with
  | refl => exact h
  | tail _ turn ih => exact ih.turn turn

/-- A lookup that begins when its name is in the cache leaves it there. -/
lemma find?_of_alone_resolve {e : CatalogEntry} {q : Activity CatalogEntry × CatalogCache}
    (hfind : cache.find? name = some e) (halone : Alone ((c.resolve name).run, cache) q) :
    q.2.find? name = some e := by
  have hstays : q = ((c.resolve name).run, cache) ∨ q = (.done (.ok e), cache) := by
    induction halone with
    | refl => exact .inl rfl
    | tail _ turn ih =>
      refine .inr ?_
      rcases ih with rfl | rfl
      · exact (turn.eq_advance (not_isWaiting_resolve c name)).trans (advance_resolve_cached hfind)
      · exact turn.eq_done
  rcases hstays with rfl | rfl
  · exact hfind
  · exact hfind

lemma eq_of_alone_done {r : Except ResolveError α} {q : Activity α × CatalogCache}
    (halone : Alone (.done r, cache) q) : q = (.done r, cache) := by
  induction halone with
  | refl => rfl
  | tail _ turn ih =>
    subst ih
    exact turn.eq_done

lemma exists_ingest_turn {files : List (String × Bytes)}
    {x : Overlap CatalogEntry (List String)}
    (hreaches : Reaches (.start cache (c.resolve name) (ingest files)) x) :
    Stage c name x.first ∧ (x.second = (ingest files).run ∨
      ∃ y r u, Reaches (.start cache (c.resolve name) (ingest files)) y ∧
        y.second = (ingest files).run ∧ Stage c name y.first ∧
        advance (ingest files).run y.cache = (.done r, u) ∧ Reaches ⟨u, y.first, .done r⟩ x) := by
  induction hreaches with
  | refl => exact ⟨.begins, .inl rfl⟩
  | @tail x z hreaches step ih =>
    obtain ⟨hstage, hsecond⟩ := ih
    cases step with
    | first turn =>
      refine ⟨hstage.turn turn, hsecond.imp_right ?_⟩
      rintro ⟨y, r, u, hy, hbegins, hstage', hadvance, hx⟩
      exact ⟨y, r, u, hy, hbegins, hstage', hadvance, hx.tail (.first turn)⟩
    | second turn =>
      refine ⟨hstage, .inr ?_⟩
      rcases hsecond with hsecond | ⟨y, r, u, hy, hbegins, hstage', hadvance, hx⟩
      · rw [hsecond] at turn
        obtain ⟨r, u, hadvance, -⟩ := advance_ingest files x.cache
        refine ⟨x, r, u, hreaches, hsecond, hstage, hadvance, ?_⟩
        rw [turn.eq_advance (not_isWaiting_ingest files), hadvance]
      · exact ⟨y, r, u, hy, hbegins, hstage', hadvance, hx.tail (.second turn)⟩

/-- **A dropped module stays in the cache, unless a lookup of its name waits for a file at that
time.** Such a lookup overwrites it with what it finds, and leaves it if it finds nothing. -/
theorem dropped_stays_unless_awaited (c : Catalog) (name : String) (files : List (String × Bytes))
    (cache : CatalogCache) (x : Overlap CatalogEntry (List String))
    (found : Except ResolveError CatalogEntry) (names : List String)
    (hreaches : Reaches (.start cache (c.resolve name) (ingest files)) x)
    (hfirst : x.first = .done found) (hsecond : x.second = .done (.ok names))
    (hname : name ∈ names) :
    ∃ e y z, dropped files name = some e ∧
      Reaches (.start cache (c.resolve name) (ingest files)) y ∧ y.second = (ingest files).run ∧
      Overlap.Step y z ∧ z.second = .done (.ok names) ∧ Reaches z x ∧
      x.cache.find? name = some (if isWaiting y.first then found.toOption.getD e else e) := by
  obtain ⟨-, hunbegun | ⟨y, r, u, hy, hbegins, hstage, hadvance, hx⟩⟩ := exists_ingest_turn hreaches
  -- a call that tells a name has had a turn
  · obtain ⟨r, u, hadvance, hsupplied⟩ := advance_ingest files Dict.empty
    rw [← hunbegun, hsecond] at hadvance
    obtain ⟨hr, rfl⟩ := Prod.mk.inj hadvance
    obtain ⟨e, -, hfind⟩ := hsupplied names (Task.done.inj hr).symm name hname
    simp at hfind
  · obtain ⟨hover, halone⟩ := alone_of_reaches hx rfl
    obtain rfl : r = .ok names := Task.done.inj (hover.symm.trans hsecond)
    obtain ⟨r', u', hadvance', hsupplied⟩ := advance_ingest files y.cache
    obtain ⟨hr, rfl⟩ := Prod.mk.inj (hadvance.symm.trans hadvance')
    obtain ⟨e, hdropped, hfind⟩ := hsupplied names (Task.done.inj hr).symm name hname
    have hstep : Overlap.Step y ⟨u, y.first, .done (.ok names)⟩ := by
      have hturn := Overlap.Step.second (.polled y.second y.cache)
      rwa [hbegins, hadvance] at hturn
    refine ⟨e, y, _, hdropped, hy, hbegins, hstep, rfl, hx, ?_⟩
    simp only at halone
    rw [hfirst] at halone
    generalize y.first = t at hstage halone
    cases hstage with
    | begins =>
      rw [not_isWaiting_resolve]
      exact find?_of_alone_resolve hfind halone
    | awaits h =>
      rw [h.waits]
      generalize hend : ((Task.done found : Activity CatalogEntry), x.cache) = q at halone
      cases (Searches.awaits h).alone halone with
      | awaits h' =>
        obtain ⟨rfl, -⟩ := Prod.mk.inj hend
        exact absurd h'.waits Bool.false_ne_true
      | fails f =>
        obtain ⟨hfound, hcache⟩ := Prod.mk.inj hend
        rw [Task.done.inj hfound, hcache]
        exact hfind
      | finds e' =>
        obtain ⟨hfound, hcache⟩ := Prod.mk.inj hend
        rw [Task.done.inj hfound, hcache, Dict.find?_insert, if_pos rfl]
        rfl
    | ends r =>
      obtain ⟨-, hcache⟩ := Prod.mk.inj (eq_of_alone_done halone)
      rw [hcache]
      exact hfind

/-! ## A lookup that is overtaken -/

section

variable {url : String} {f : Option Bytes → Lookup α} {k : Except ResolveError α → Activity β}

lemma turn_fetchOptional_some {bytes : Bytes} (hreal : realContents bytes = some bytes)
    (u : CatalogCache) :
    Turn ((fetchOptional url >>= f).run.bind k) u (advance ((f (some bytes)).run.bind k) u) := by
  have hturn : Turn ((fetchOptional url >>= f).run.bind k) u
      (advance ((f (realContents bytes)).run.bind k) u) := .got (.ok bytes) u
  rwa [hreal] at hturn

lemma turn_fetchOptional_none (u : CatalogCache) :
    Turn ((fetchOptional url >>= f).run.bind k) u (advance ((f none).run.bind k) u) :=
  .got (.error (.notFound url)) u

end

/-- A lookup that finds a module of its name, and no glue, has three turns. -/
lemma turns_resolve (c : Catalog) (hname : isProgramName name) (hnone : cache.find? name = none)
    {bytes : Bytes} (hreal : realContents bytes = some bytes) {e : CatalogEntry}
    (hcompile : compile name bytes none = .ok e) (u v : CatalogCache) :
    ∃ t₁ t₂, Turn (c.resolve name).run cache (t₁, cache) ∧ Turn t₁ u (t₂, u) ∧
      Turn t₂ v (.done (.ok e), v.insert name e) := by
  obtain ⟨f, hfollow, hf⟩ : ∃ f : Option Bytes → Lookup CatalogEntry,
      c.follow name maxLinks name [name] = fetchOptional (c.url name "bin") >>= f ∧
        f (some bytes) = fetchOptional (c.url name "rt") >>= fun glue =>
          ExceptT.mk (return compile name bytes glue) := by
    rw [maxLinks, follow, lookUpAt, cachedLink, if_pos rfl]
    exact ⟨_, rfl, rfl⟩
  refine ⟨(fetchOptional (c.url name "bin") >>= f).run.bind (keepFound name),
    (f (some bytes)).run.bind (keepFound name), ?_, ?_, ?_⟩
  · have hturn := Turn.polled (c.resolve name).run cache
    rw [advance_resolve_uncached c hname hnone, hfollow] at hturn
    exact hturn
  · have hturn : Turn ((fetchOptional (c.url name "bin") >>= f).run.bind (keepFound name)) u
        (advance ((f (some bytes)).run.bind (keepFound name)) u) := turn_fetchOptional_some hreal u
    rw [hf] at hturn ⊢
    exact hturn
  · have hturn : Turn ((f (some bytes)).run.bind (keepFound name)) v
        (advance ((ExceptT.mk (return compile name bytes none) : Lookup CatalogEntry).run.bind
          (keepFound name)) v) := by
      rw [hf]
      exact turn_fetchOptional_none v
    rw [hcompile] at hturn
    exact hturn

/-- A module and its glue. -/
def gluedFiles : List (String × Bytes) := [("idle.bin", ModuleFile.header), ("idle.rt", [0x7b, 0x7d])]

/-- What they come to. -/
def gluedEntry : CatalogEntry := ⟨"idle", .libc, ⟨.nothing⟩, some [0x7b, 0x7d]⟩

lemma advance_gluedFiles (cache : CatalogCache) :
    advance (ingest gluedFiles).run cache =
      (.done (.ok ["idle"]), cache.insert "idle" gluedEntry) := by
  have hmodule : Text.dropEnding? ".bin" "idle.bin" = some "idle" := by decide +kernel
  have hother : Text.dropEnding? ".bin" "idle.rt" = none := by decide +kernel
  have hglue : Text.dropEnding? ".rt" "idle.rt" = some "idle" := by decide +kernel
  have hreal : ((Dict.insert Dict.empty "idle" [0x7b, 0x7d]).find? "idle").bind realContents =
      some [0x7b, 0x7d] := by
    rw [Dict.find?_insert, if_pos rfl]
    rfl
  simp only [ingest, gluedFiles, List.foldl, Supplied.add, hmodule, hother, hglue, List.nil_append]
  rw [keepModules, hreal, compile_header]
  rfl

lemma dropped_gluedFiles : dropped gluedFiles "idle" = some gluedEntry := by
  rw [dropped, advance_gluedFiles, Dict.find?_insert, if_pos rfl]

lemma turn_gluedFiles (cache : CatalogCache) :
    Turn (ingest gluedFiles).run cache
      (.done (.ok ["idle"]), cache.insert "idle" gluedEntry) := by
  have hturn := Turn.polled (ingest gluedFiles).run cache
  rwa [advance_gluedFiles] at hturn

/-- The end of the lookup and of the call that drops the glued module, in an order that loses it. -/
def overtaken : Overlap CatalogEntry (List String) :=
  ⟨(Dict.empty.insert "idle" gluedEntry).insert "idle" idleEntry, .done (.ok idleEntry),
    .done (.ok ["idle"])⟩

lemma reaches_overtaken :
    Reaches (.start Dict.empty (resolve ⟨"bin", none⟩ "idle") (ingest gluedFiles)) overtaken := by
  have hname : isProgramName "idle" := by decide +kernel
  have hcompile : compile "idle" ModuleFile.header none = .ok idleEntry := compile_header "idle" none
  obtain ⟨t₁, t₂, hbegins, hmodule, hglue⟩ := turns_resolve ⟨"bin", none⟩ hname
    (Dict.find?_empty "idle") (by rfl) hcompile (Dict.empty.insert "idle" gluedEntry)
    (Dict.empty.insert "idle" gluedEntry)
  -- the modules are dropped between the first turn of the lookup and its second
  exact .head (.first hbegins) (.head (.second (turn_gluedFiles Dict.empty))
    (.head (.first hmodule) (.head (.first hglue) .refl)))

lemma find?_overtaken : overtaken.cache.find? "idle" = some idleEntry := by
  rw [overtaken, Dict.find?_insert, if_pos rfl]

lemma gluedEntry_ne : gluedEntry ≠ idleEntry := by
  intro h
  exact absurd (congrArg CatalogEntry.glue h) nofun

/-- In that order the lookup was waiting when the module came. -/
theorem dropped_stays_unless_awaited_idle :
    Reaches (.start Dict.empty (resolve ⟨"bin", none⟩ "idle") (ingest gluedFiles)) overtaken ∧
      ∃ y, Reaches (.start Dict.empty (resolve ⟨"bin", none⟩ "idle") (ingest gluedFiles)) y ∧
        y.second = (ingest gluedFiles).run ∧ isWaiting y.first ∧ Reaches y overtaken := by
  obtain ⟨e, y, z, hdropped, hy, hbegins, hstep, -, hz, hfind⟩ :=
    dropped_stays_unless_awaited ⟨"bin", none⟩ "idle" gluedFiles Dict.empty overtaken
      (.ok idleEntry) ["idle"] reaches_overtaken rfl rfl (List.mem_singleton.2 rfl)
  refine ⟨reaches_overtaken, y, hy, hbegins, ?_, .head hstep hz⟩
  by_cases hwaits : isWaiting y.first
  · exact hwaits
  · rw [if_neg hwaits, ← hdropped, dropped_gluedFiles, find?_overtaken] at hfind
    exact absurd (Option.some.inj hfind).symm gluedEntry_ne

/-- **A dropped module is lost** if it comes while a lookup of its name waits for a file, and from
then on the name is answered with what was fetched. -/
theorem overlap_loses_dropped :
    Reaches (.start Dict.empty (resolve ⟨"bin", none⟩ "idle") (ingest gluedFiles)) overtaken ∧
      overtaken.first = .done (.ok idleEntry) ∧ overtaken.second = .done (.ok ["idle"]) ∧
      dropped gluedFiles "idle" = some gluedEntry ∧ gluedEntry ≠ idleEntry ∧
      ∀ p, Turn (resolve ⟨"bin", none⟩ "idle").run overtaken.cache p →
        p = (.done (.ok idleEntry), overtaken.cache) := by
  refine ⟨reaches_overtaken, rfl, rfl, dropped_gluedFiles, gluedEntry_ne, ?_⟩
  intro p hturn
  rw [hturn.eq_advance (not_isWaiting_resolve _ _), advance_resolve_cached find?_overtaken]

end GuestShell.Catalog
