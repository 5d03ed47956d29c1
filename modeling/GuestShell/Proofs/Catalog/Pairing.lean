import GuestShell.Proofs.Catalog.Ingestion
import Mathlib.Data.List.Forall2
import Mathlib.Data.List.Induction
import Mathlib.Data.List.Perm.Basic

/-!
# Supplied files are paired by name

A module that is supplied gets the glue of its name, wherever among the files the two stand.  `Paired`
says what entry that makes, by what the files are and not by how they are gone through: the first
pass sorts them (`modules_foldl_add`, `find?_glue_foldl_add`), and the second one uses the glue of each
name up, which no other name can notice (`outcomes_eq_map`).

So where the files have distinct names and every module can be made ready, each name of a module gets
the entry that is paired for it, and all orders of the files lead to the same cache
(`ingest_pairs_by_name`).
-/

namespace GuestShell

namespace Text

lemma dropEnding?_eq_some_iff {ending s name : String} :
    dropEnding? ending s = some name ↔ s = name ++ ending := by
  rw [dropEnding?]
  constructor
  · intro h
    split at h
    · rename_i hsuffix
      obtain ⟨before, hbefore⟩ := List.isSuffixOf_iff_suffix.1 hsuffix
      have hname : name.toList = before := by
        rw [← Option.some.inj h, String.toList_ofList, ← hbefore]
        simp
      rw [← String.toList_inj, String.toList_append, hname, hbefore]
    · cases h
  · rintro rfl
    have hsuffix : ending.toList.isSuffixOf (name ++ ending).toList = true := by
      rw [List.isSuffixOf_iff_suffix, String.toList_append]
      exact List.suffix_append ..
    rw [if_pos hsuffix, String.toList_append]
    simp

end Text

namespace Catalog

variable {files files' : List (String × Bytes)} {name : String} {e : CatalogEntry}

/-! ## What an entry is made of -/

lemma realContents_eq_some_iff {bytes g : Bytes} :
    realContents bytes = some g ↔ bytes = g ∧ g ≠ [] ∧ g.head? ≠ some 0x3c := by
  rw [realContents]
  constructor
  · intro h
    split at h
    · cases h
    · rename_i hreal
      obtain rfl := Option.some.inj h
      simpa [isErrorPage] using hreal
  · rintro ⟨rfl, hnonempty, hpage⟩
    rw [if_neg]
    simpa [isErrorPage] using ⟨hnonempty, hpage⟩

/-- The entry that files make for a name: the module of that name, with the glue of that name if
there is some, and if it is neither empty nor an error page. -/
structure Paired (files : List (String × Bytes)) (name : String) (e : CatalogEntry) : Prop where
  named : e.name = name
  module_ : ∃ bytes info, (name ++ ".bin", bytes) ∈ files ∧ ModuleFile.inspect bytes = .ok info ∧
    CompiledModule.ofBytes bytes = .ok e.module_ ∧ e.abi = Abi.detect info e.glue.isSome
  glue : ∀ g, e.glue = some g ↔ (name ++ ".rt", g) ∈ files ∧ g ≠ [] ∧ g.head? ≠ some 0x3c

/-- In which order the files are makes no difference. -/
lemma paired_perm (h : files'.Perm files) : Paired files' name e ↔ Paired files name e := by
  constructor
  · rintro ⟨hname, hmodule, hglue⟩
    exact ⟨hname, by simpa only [h.mem_iff] using hmodule, by simpa only [h.mem_iff] using hglue⟩
  · rintro ⟨hname, hmodule, hglue⟩
    exact ⟨hname, by simpa only [h.mem_iff] using hmodule, by simpa only [h.mem_iff] using hglue⟩

/-! ## The first pass -/

/-- The modules among files, under their names. -/
def modulesOf (files : List (String × Bytes)) : List (String × Bytes) :=
  files.filterMap fun file => (Text.dropEnding? ".bin" file.1).map fun name => (name, file.2)

lemma mem_modulesOf_iff {bytes : Bytes} :
    (name, bytes) ∈ modulesOf files ↔ (name ++ ".bin", bytes) ∈ files := by
  simp [modulesOf, Text.dropEnding?_eq_some_iff]

lemma modules_foldl_add (files : List (String × Bytes)) :
    (files.foldl Supplied.add ⟨[], Dict.empty⟩).modules = modulesOf files := by
  induction files using List.reverseRecOn with
  | nil => rfl
  | append_singleton files file ih =>
    rw [List.foldl_concat, modulesOf, List.filterMap_append, ← modulesOf, ← ih, Supplied.add]
    split
    · rename_i name hname
      simp [hname]
    · rename_i hname
      split <;> simp [hname]

/-- No file is a module and glue at once. -/
lemma dropEnding?_bin_append_rt (name : String) : Text.dropEnding? ".bin" (name ++ ".rt") = none := by
  rw [Option.eq_none_iff_forall_ne_some]
  intro other hother
  have hlast := congrArg (fun s => s.toList.getLast?) (Text.dropEnding?_eq_some_iff.1 hother)
  simp at hlast

lemma find?_glue_add (s : Supplied) (file : String × Bytes) (name : String) :
    (s.add file).glue.find? name =
      if file.1 = name ++ ".rt" then some file.2 else s.glue.find? name := by
  rw [Supplied.add]
  split
  · rename_i other hother
    have hne : file.1 ≠ name ++ ".rt" := fun heq => by
      rw [heq, dropEnding?_bin_append_rt] at hother
      cases hother
    rw [if_neg hne]
  · split
    · rename_i other hother
      rw [Text.dropEnding?_eq_some_iff] at hother
      rw [Dict.find?_insert, hother]
      by_cases heq : name = other
      · simp [heq]
      · simp [heq, Ne.symm heq]
    · rename_i hother
      have hne : file.1 ≠ name ++ ".rt" := fun heq => by
        rw [Text.dropEnding?_eq_some_iff.2 heq] at hother
        cases hother
      rw [if_neg hne]

/-- The glue of a name is the file that has this name. -/
lemma find?_glue_foldl_add (hdistinct : (files.map Prod.fst).Nodup) {g : Bytes} :
    (files.foldl Supplied.add ⟨[], Dict.empty⟩).glue.find? name = some g ↔
      (name ++ ".rt", g) ∈ files := by
  induction files using List.reverseRecOn with
  | nil => simp
  | append_singleton files file ih =>
    obtain ⟨fileName, bytes⟩ := file
    rw [List.map_append, List.nodup_append'] at hdistinct
    obtain ⟨hbefore, -, hdisjoint⟩ := hdistinct
    rw [List.foldl_concat, find?_glue_add, List.mem_append, List.mem_singleton]
    by_cases heq : fileName = name ++ ".rt"
    · have hnew : (name ++ ".rt", g) ∉ files := fun hmem =>
        hdisjoint (List.mem_map_of_mem hmem) (by simp [heq])
      simp [heq, hnew, eq_comm]
    · simp [heq, Ne.symm heq, ih hbefore]

/-! ## The second pass -/

/-- Where the names are distinct, using glue up makes no difference. -/
lemma outcomes_eq_map {modules : List (String × Bytes)} (hdistinct : (modules.map Prod.fst).Nodup)
    (glue : Dict String Bytes) : outcomes modules glue =
      modules.map fun m => compile m.1 m.2 ((glue.find? m.1).bind realContents) := by
  induction modules generalizing glue with
  | nil => rfl
  | cons m modules ih =>
    rw [List.map_cons, List.nodup_cons] at hdistinct
    rw [outcomes, ih hdistinct.2, List.map_cons]
    refine congrArg _ (List.map_congr_left fun other hother => ?_)
    have hne : other.1 ≠ m.1 := fun heq => hdistinct.1 (heq ▸ List.mem_map_of_mem hother)
    rw [Dict.find?_erase, if_neg hne]

/-- The last of entries with distinct names is the only one. -/
lemma lastNamed_eq_some_iff {kept : List CatalogEntry}
    (hdistinct : (kept.map CatalogEntry.name).Nodup) :
    lastNamed name kept = some e ↔ e ∈ kept ∧ e.name = name := by
  rw [lastNamed]
  constructor
  · intro h
    have hname := List.find?_some h
    exact ⟨List.mem_reverse.1 (List.mem_of_find?_eq_some h), by simpa using hname⟩
  · rintro ⟨hmem, rfl⟩
    cases hfind : kept.reverse.find? fun e' => e'.name = e.name with
    | none =>
      have hnone := List.find?_eq_none.1 hfind e (List.mem_reverse.2 hmem)
      simp at hnone
    | some e' =>
      have hname : e'.name = e.name := by simpa using List.find?_some hfind
      have hmem' := List.mem_reverse.1 (List.mem_of_find?_eq_some hfind)
      rw [List.inj_on_of_nodup_map hdistinct hmem' hmem hname]

/-! ## Both passes -/

/-- Every module among the files can be made ready. -/
def Ready (files : List (String × Bytes)) : Prop :=
  ∀ name bytes, (name ++ ".bin", bytes) ∈ files →
    (∃ info, ModuleFile.inspect bytes = .ok info) ∧ ∃ m, CompiledModule.ofBytes bytes = .ok m

/-- The names of the modules are what is left of the file names that end as a module's does. -/
lemma map_modulesOf (files : List (String × Bytes)) :
    ((modulesOf files).map Prod.fst).map (· ++ ".bin") =
      (files.map Prod.fst).filter (Text.endsWith · ".bin") := by
  induction files with
  | nil => rfl
  | cons file files ih =>
    have hends : Text.endsWith file.1 ".bin" = (Text.dropEnding? ".bin" file.1).isSome := by
      rw [Text.endsWith, Text.dropEnding?]
      split
      · assumption
      · exact Bool.eq_false_iff.2 ‹_›
    rw [modulesOf, List.filterMap_cons, ← modulesOf, List.map_cons, List.filter_cons, hends, ← ih]
    cases hname : Text.dropEnding? ".bin" file.1 with
    | none => simp
    | some name => simp [Text.dropEnding?_eq_some_iff.1 hname]

lemma nodup_modulesOf (hdistinct : (files.map Prod.fst).Nodup) :
    ((modulesOf files).map Prod.fst).Nodup := by
  refine List.Nodup.of_map (· ++ ".bin") ?_
  rw [map_modulesOf]
  exact hdistinct.filter _

/-- The entry that the two passes make for a module is the one that is paired for it. -/
lemma paired_iff (hdistinct : (files.map Prod.fst).Nodup) :
    Paired files name e ↔ ∃ bytes, (name, bytes) ∈ modulesOf files ∧
      compile name bytes (((files.foldl Supplied.add ⟨[], Dict.empty⟩).glue.find? name).bind
        realContents) = .ok e := by
  have hglue (g : Bytes) :
      ((files.foldl Supplied.add ⟨[], Dict.empty⟩).glue.find? name).bind realContents = some g ↔
        (name ++ ".rt", g) ∈ files ∧ g ≠ [] ∧ g.head? ≠ some 0x3c := by
    simp only [Option.bind_eq_some_iff, find?_glue_foldl_add hdistinct, realContents_eq_some_iff]
    constructor
    · rintro ⟨_, hmem, rfl, hreal⟩
      exact ⟨hmem, hreal⟩
    · rintro ⟨hmem, hreal⟩
      exact ⟨g, hmem, rfl, hreal⟩
  simp only [mem_modulesOf_iff, compile_eq_ok_iff]
  constructor
  · rintro ⟨hname, ⟨bytes, info, hmem, hmodule⟩, hpaired⟩
    refine ⟨bytes, hmem, hname, ?_, info, hmodule⟩
    ext g
    rw [hpaired, hglue]
  · rintro ⟨bytes, hmem, hname, heq, info, hmodule⟩
    exact ⟨hname, ⟨bytes, info, hmem, hmodule⟩, fun g => by rw [heq, hglue]⟩

/-- A call with such files keeps the entries that are paired for the names of the modules. -/
lemma exists_kept (hdistinct : (files.map Prod.fst).Nodup) (hready : Ready files) :
    ∃ kept : List CatalogEntry,
      (∀ cache, alone (ingest files) cache =
        .done (.ok (kept.map CatalogEntry.name), keepAll cache kept)) ∧
      (kept.map CatalogEntry.name).map (· ++ ".bin") =
        (files.map Prod.fst).filter (Text.endsWith · ".bin") ∧
      ∀ name e, lastNamed name kept = some e ↔ Paired files name e := by
  let s := files.foldl Supplied.add ⟨[], Dict.empty⟩
  let made (m : String × Bytes) := compile m.1 m.2 ((s.glue.find? m.1).bind realContents)
  obtain ⟨kept, r, hends, hcall⟩ := exists_endsAfter s.modules s.glue
  rw [modules_foldl_add, outcomes_eq_map (nodup_modulesOf hdistinct)] at hends
  rcases hends with ⟨hkept, rfl⟩ | ⟨f, rest, hfails, -⟩
  · have hall : List.Forall₂ (fun m e => made m = .ok e) (modulesOf files) kept := by
      have heq : List.Forall₂ Eq ((modulesOf files).map made) (kept.map Except.ok) := by
        rw [List.forall₂_eq_eq_eq]
        exact hkept
      rwa [List.forall₂_map_left_iff, List.forall₂_map_right_iff] at heq
    have hnames : (modulesOf files).map Prod.fst = kept.map CatalogEntry.name := by
      rw [← List.forall₂_eq_eq_eq, List.forall₂_map_left_iff, List.forall₂_map_right_iff]
      exact hall.imp fun m e hmade => (compile_eq_ok_iff.1 hmade).1.symm
    refine ⟨kept, hcall, by rw [← hnames, map_modulesOf], fun name e => ?_⟩
    have hmem : e ∈ kept ↔ ∃ m ∈ modulesOf files, made m = .ok e := by
      rw [← List.mem_map, hkept, List.mem_map]
      simp
    rw [lastNamed_eq_some_iff (hnames ▸ nodup_modulesOf hdistinct), hmem, paired_iff hdistinct]
    constructor
    · rintro ⟨⟨⟨name', bytes⟩, hm, hmade⟩, rfl⟩
      obtain rfl := (compile_eq_ok_iff.1 hmade).1
      exact ⟨bytes, hm, hmade⟩
    · rintro ⟨bytes, hm, hmade⟩
      exact ⟨⟨(name, bytes), hm, hmade⟩, (compile_eq_ok_iff.1 hmade).1⟩
  · -- every module can be made ready, so none of the outcomes is a failure
    have hmem : Except.error f ∈ (modulesOf files).map made := by
      rw [hfails]
      simp
    obtain ⟨⟨name, bytes⟩, hm, hmade⟩ := List.mem_map.1 hmem
    obtain ⟨⟨info, hinfo⟩, m, hmodule⟩ := hready name bytes (mem_modulesOf_iff.1 hm)
    simp only [made, compile, hinfo, hmodule] at hmade
    cases hmade

/-- **Supplied files are paired by name, whatever their order.**  Take files with distinct names all of
whose modules can be made ready, in any order.  The call asks for no file and gives the names of the
modules in that order.  Afterwards each name of a module has the entry that is paired for it, whatever it
had before, and every other name is as it was; the cache is the same for all orders. -/
theorem ingest_pairs_by_name (hdistinct : (files.map Prod.fst).Nodup) (hready : Ready files) :
    ∃ after : CatalogCache → CatalogCache,
      (∀ files', files'.Perm files → ∃ names : List String,
        names.map (· ++ ".bin") = (files'.map Prod.fst).filter (Text.endsWith · ".bin") ∧
        ∀ cache log r cache', Ran (ingest files') cache log r cache' ↔
          log = [] ∧ r = .ok names ∧ cache' = after cache) ∧
      ∀ cache name,
        (∀ bytes, (name ++ ".bin", bytes) ∈ files →
          ∃ e, (after cache).find? name = some e ∧ Paired files name e) ∧
        ((∀ bytes, (name ++ ".bin", bytes) ∉ files) →
          (after cache).find? name = cache.find? name) := by
  obtain ⟨kept, -, -, hlast⟩ := exists_kept hdistinct hready
  refine ⟨fun cache => keepAll cache kept, fun files' hperm => ?_, fun cache name => ⟨?_, ?_⟩⟩
  · have hready' : Ready files' := fun name bytes hmem => hready name bytes (hperm.mem_iff.1 hmem)
    obtain ⟨kept', hcall, hnames, hlast'⟩ :=
      exists_kept ((hperm.map _).nodup_iff.2 hdistinct) hready'
    refine ⟨_, hnames, fun cache log r cache' => ?_⟩
    have hsame : keepAll cache kept' = keepAll cache kept := by
      refine Dict.eq_of_find?_eq fun name => ?_
      have hentry : lastNamed name kept' = lastNamed name kept := by
        ext e
        rw [hlast', hlast, paired_perm hperm]
      rw [find?_keepAll, find?_keepAll, hentry]
    rw [Ran, hcall, Task.runs_done_pair_iff, hsame]
  · intro bytes hmem
    obtain ⟨⟨info, hinfo⟩, m, hmodule⟩ := hready name bytes hmem
    let glue := ((files.foldl Supplied.add ⟨[], Dict.empty⟩).glue.find? name).bind realContents
    have hpaired : Paired files name ⟨name, Abi.detect info glue.isSome, m, glue⟩ :=
      (paired_iff hdistinct).2
        ⟨bytes, mem_modulesOf_iff.2 hmem, compile_eq_ok_iff.2 ⟨rfl, rfl, info, hinfo, hmodule, rfl⟩⟩
    refine ⟨_, ?_, hpaired⟩
    rw [find?_keepAll, (hlast _ _).2 hpaired, Option.some_or]
  · intro hnone
    have hentry : lastNamed name kept = none := by
      rw [Option.eq_none_iff_forall_ne_some]
      intro e he
      obtain ⟨bytes, info, hmem, -⟩ := ((hlast name e).1 he).module_
      exact hnone bytes hmem
    rw [find?_keepAll, hentry, Option.none_or]

/-- Two modules; the glue of the first is real, that of the second is an error page. -/
def mixedFiles : List (String × Bytes) :=
  [("a.rt", [0x7b, 0x7d]), ("a.bin", ModuleFile.header), ("b.bin", ModuleFile.header),
    ("b.rt", [0x3c, 0x70])]

/-- They are supplied in the reverse order. -/
theorem ingest_pairs_by_name_mixed :
    (mixedFiles.map Prod.fst).Nodup ∧ Ready mixedFiles ∧
      ∃ cache', Ran (ingest mixedFiles.reverse) Dict.empty [] (.ok ["b", "a"]) cache' ∧
        (∃ e, cache'.find? "a" = some e ∧ e.glue = some [0x7b, 0x7d] ∧ e.abi = .libc) ∧
        ∃ e, cache'.find? "b" = some e ∧ e.glue = none := by
  have hdistinct : (mixedFiles.map Prod.fst).Nodup := by decide +kernel
  have hready : Ready mixedFiles := by
    intro name bytes hmem
    obtain rfl : bytes = ModuleFile.header := by
      have hglue (other : String) : name ++ ".bin" ≠ other ++ ".rt" := fun heq => by
        cases (dropEnding?_bin_append_rt other).symm.trans (Text.dropEnding?_eq_some_iff.2 heq.symm)
      rcases List.mem_cons.1 hmem with heq | hmem
      · exact absurd (Prod.mk.inj heq).1 (hglue "a")
      · simp only [List.mem_cons, Prod.mk.injEq, List.not_mem_nil, or_false] at hmem
        rcases hmem with ⟨-, hheader⟩ | ⟨-, hheader⟩ | ⟨hname, -⟩
        · exact hheader
        · exact hheader
        · exact absurd hname (hglue "b")
    obtain ⟨-, -, info, hinfo, hmodule, -⟩ := compile_eq_ok_iff.1 (compile_header name none)
    exact ⟨⟨info, hinfo⟩, _, hmodule⟩
  obtain ⟨after, hcalls, hafter⟩ := ingest_pairs_by_name hdistinct hready
  obtain ⟨names, hnames, hcall⟩ := hcalls _ (List.reverse_perm mixedFiles)
  obtain rfl : names = ["b", "a"] := by
    have hreverse : (mixedFiles.reverse.map Prod.fst).filter (Text.endsWith · ".bin") =
        ["b", "a"].map (· ++ ".bin") := by decide +kernel
    have hinjective : Function.Injective (· ++ ".bin") := fun _ _ => (String.append_left_inj _).1
    exact List.map_injective_iff.2 hinjective (hnames.trans hreverse)
  refine ⟨hdistinct, hready, after Dict.empty, (hcall ..).2 ⟨rfl, rfl, rfl⟩, ?_, ?_⟩
  · obtain ⟨e, he, hpaired⟩ := (hafter Dict.empty "a").1 ModuleFile.header (by simp [mixedFiles])
    have hglue := (hpaired.glue [0x7b, 0x7d]).2 ⟨by simp [mixedFiles], by simp, by decide⟩
    obtain ⟨_, _, -, -, -, habi⟩ := hpaired.module_
    exact ⟨e, he, hglue, by rw [habi, hglue]; rfl⟩
  · obtain ⟨e, he, hpaired⟩ := (hafter Dict.empty "b").1 ModuleFile.header (by simp [mixedFiles])
    refine ⟨e, he, Option.eq_none_iff_forall_ne_some.2 fun g hg => ?_⟩
    obtain ⟨hmem, -, hpage⟩ := (hpaired.glue g).1 hg
    simp [mixedFiles] at hmem
    simp [hmem] at hpage

end Catalog

end GuestShell
