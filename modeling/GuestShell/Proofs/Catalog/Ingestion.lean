import GuestShell.Proofs.Catalog.Cache
import GuestShell.Proofs.Dict.Bindings

/-!
# Supplied modules, one after another

Modules that are supplied as files are made ready and kept one after another.  What becomes of each
of them depends neither on the cache nor on what became of the others (`outcomes`), so a call keeps
the modules that stand before the first one that cannot be made ready, and none after it.  It does
not take them back when it fails: `failed_ingest_keeps_first` is a call that fails and leaves a
module behind, where `resolve` would have left the cache alone.

The main statement is `ingest_keeps_until_failure`.
-/

namespace GuestShell.Catalog

variable {cache cache' : CatalogCache} {log : Log} {r : Except ResolveError (List String)}

/-! ## Entries that are kept one after another -/

/-- Keeps entries one after another, each under its own name. -/
def keepAll (cache : CatalogCache) (entries : List CatalogEntry) : CatalogCache :=
  entries.foldl (fun cache e => cache.insert e.name e) cache

/-- The last entry of a name. -/
def lastNamed (name : String) (entries : List CatalogEntry) : Option CatalogEntry :=
  entries.reverse.find? fun e => e.name = name

/-- The last entry of a name stays; a name without an entry is as it was. -/
lemma find?_keepAll (cache : CatalogCache) (entries : List CatalogEntry) (name : String) :
    (keepAll cache entries).find? name = (lastNamed name entries).or (cache.find? name) := by
  induction entries generalizing cache with
  | nil => rfl
  | cons e entries ih =>
    have hhead : (cache.insert e.name e).find? name =
        ([e].find? fun e => e.name = name).or (cache.find? name) := by
      rw [Dict.find?_insert, List.find?_singleton]
      by_cases h : e.name = name
      · simp [h]
      · simp [h, Ne.symm h]
    rw [keepAll, List.foldl_cons, ← keepAll, ih, hhead, lastNamed, lastNamed, List.reverse_cons,
      List.find?_append, Option.or_assoc]

/-- Nothing is changed exactly if the last entry of each name was there before. -/
lemma keepAll_eq_self_iff {entries : List CatalogEntry} :
    keepAll cache entries = cache ↔
      ∀ name e, lastNamed name entries = some e → cache.find? name = some e := by
  constructor
  · intro h name e he
    rw [← h, find?_keepAll, he, Option.some_or]
  · refine fun h => Dict.eq_of_find?_eq fun name => ?_
    rw [find?_keepAll]
    cases he : lastNamed name entries with
    | none => rfl
    | some e => rw [Option.some_or, h name e he]

/-! ## Modules by themselves -/

/-- What becomes of each module; the first module of a name gets its glue. -/
def outcomes : List (String × Bytes) → Dict String Bytes → List (Except ResolveError CatalogEntry)
  | [], _ => []
  | (name, bytes) :: rest, glue =>
    compile name bytes ((glue.find? name).bind realContents) :: outcomes rest (glue.erase name)

/-- What becomes of the modules among the files. -/
def outcomesOf (files : List (String × Bytes)) : List (Except ResolveError CatalogEntry) :=
  let s := files.foldl Supplied.add ⟨[], Dict.empty⟩
  outcomes s.modules s.glue

/-- How a call ends that has kept entries: there is no other module, and it gives their names, or
the next module cannot be made ready, and it gives the reason. -/
def EndsAfter (kept : List CatalogEntry) (r : Except ResolveError (List String))
    (outcomes : List (Except ResolveError CatalogEntry)) : Prop :=
  (outcomes = kept.map .ok ∧ r = .ok (kept.map CatalogEntry.name)) ∨
    ∃ e rest, outcomes = kept.map .ok ++ .error e :: rest ∧ r = .error e

/-- One more module in front is kept, and its name is given first. -/
lemma EndsAfter.cons {kept : List CatalogEntry} {os : List (Except ResolveError CatalogEntry)}
    (h : EndsAfter kept r os) (e : CatalogEntry) :
    EndsAfter (e :: kept) ((fun names => e.name :: names) <$> r) (.ok e :: os) := by
  rcases h with ⟨rfl, rfl⟩ | ⟨f, rest, rfl, rfl⟩
  · exact .inl ⟨rfl, rfl⟩
  · exact .inr ⟨f, rest, rfl, rfl⟩

/-! ## Calls -/

/-- Keeping modules asks for no file.  It keeps the entries before the first module that cannot be
made ready, whatever was in the cache. -/
lemma exists_endsAfter (modules : List (String × Bytes)) (glue : Dict String Bytes) :
    ∃ kept r, EndsAfter kept r (outcomes modules glue) ∧
      ∀ cache, alone (keepModules modules glue) cache = .done (r, keepAll cache kept) := by
  induction modules generalizing glue with
  | nil => exact ⟨[], .ok [], .inl ⟨rfl, rfl⟩, fun _ => rfl⟩
  | cons head modules ih =>
    obtain ⟨name, bytes⟩ := head
    cases h : compile name bytes ((glue.find? name).bind realContents) with
    | error e =>
      refine ⟨[], .error e, .inr ⟨e, _, congrArg (· :: _) h, rfl⟩, fun cache => ?_⟩
      rw [keepModules, h, alone_bind]
      rfl
    | ok e =>
      obtain ⟨kept, r, hends, hrest⟩ := ih (glue.erase name)
      obtain rfl : e.name = name := (entitled_of_compile h).1
      refine ⟨e :: kept, _, by rw [outcomes, h]; exact hends.cons e, fun cache => ?_⟩
      have hkept : alone (keepModules ((e.name, bytes) :: modules) glue) cache =
          alone (keepModules modules (glue.erase e.name) >>= fun names => pure (e.name :: names))
            (cache.insert e.name e) := by
        rw [keepModules, h]
        rfl
      rw [hkept, alone_bind, hrest]
      cases r <;> rfl

/-- **Modules are kept until one cannot be made ready.**  What a call keeps and how it ends is told
by the modules alone.  The last entry that was kept for a name stays, and names without one are as
they were, so a call has left the cache alone exactly if all that stays of it was there before. -/
theorem ingest_keeps_until_failure (files : List (String × Bytes)) :
    ∃ kept r, EndsAfter kept r (outcomesOf files) ∧
      (∀ cache log r' cache', Ran (ingest files) cache log r' cache' ↔
        log = [] ∧ r' = r ∧ cache' = keepAll cache kept) ∧
      (∀ cache name,
        (keepAll cache kept).find? name = (lastNamed name kept).or (cache.find? name)) ∧
      ∀ cache, keepAll cache kept = cache ↔
        ∀ name e, lastNamed name kept = some e → cache.find? name = some e := by
  let s := files.foldl Supplied.add ⟨[], Dict.empty⟩
  obtain ⟨kept, r, hends, hcall⟩ := exists_endsAfter s.modules s.glue
  refine ⟨kept, r, hends, fun cache log r' cache' => ?_,
    fun cache name => find?_keepAll cache kept name, fun cache => keepAll_eq_self_iff⟩
  have hingest : alone (ingest files) cache = .done (r, keepAll cache kept) := hcall cache
  rw [Ran, hingest, Task.runs_done_pair_iff]

/-- The header of a module file and, after it, a file that is no module, on an empty cache: the call
fails, and the first module stays in the cache. -/
theorem failed_ingest_keeps_first :
    ∃ reason cache',
      Ran (ingest [("a.bin", ModuleFile.header), ("b.bin", Text.encode "garbage!")]) Dict.empty []
        (.error (.invalid "b" reason)) cache' ∧
      cache'.find? "a" ≠ (Dict.empty : CatalogCache).find? "a" := by
  have ha : Text.dropEnding? ".bin" "a.bin" = some "a" := by decide +kernel
  have hb : Text.dropEnding? ".bin" "b.bin" = some "b" := by decide +kernel
  have hgarbage : ModuleFile.inspect (Text.encode "garbage!") = .error .notAModule := by
    decide +kernel
  let reason := (EngineError.ofFlaw .notAModule).message
  have hinvalid (glue : Option Bytes) :
      compile "b" (Text.encode "garbage!") glue = .error (.invalid "b" reason) := by
    rw [compile, hgarbage]
  let idle : CatalogEntry := ⟨"a", Abi.detect .empty false, ⟨.nothing⟩, none⟩
  have hcall : alone (ingest [("a.bin", ModuleFile.header), ("b.bin", Text.encode "garbage!")])
      Dict.empty = .done (.error (.invalid "b" reason), Dict.empty.insert "a" idle) := by
    simp only [ingest, List.foldl_cons, List.foldl_nil, Supplied.add, ha, hb, List.nil_append,
      List.cons_append, keepModules, compile_header, hinvalid]
    rfl
  refine ⟨reason, Dict.empty.insert "a" idle, ?_, ?_⟩
  · rw [Ran, hcall]
    exact .done _
  · rw [Dict.find?_insert, if_pos rfl]
    exact Option.some_ne_none _

end GuestShell.Catalog
