import GuestShell.Proofs.FileTree.Operations
import Mathlib.Data.List.Nodup

/-!
# Files survive a snapshot

A snapshot lists the files of a tree in the order of their places (`mem_snapshot_iff`,
`ascending_snapshot`), and two lists in that order with the same members are the same list
(`Dict.eq_of_ascending`).

Loading can skip a file: where a directory stands in its place, or where something else stands in
the place of a directory on its way.  For the snapshot of a well-formed tree it never does.
Everything on the way to a file is a directory there, so what loading makes on the way is never in
the way of a later file (`Copied`, `Copied.loadFile`).  So the loaded tree has the same files,
and its snapshot is the same list (`snapshot_load_snapshot`).
-/

namespace GuestShell.FileTree

open GuestShell.Path

variable {s t u : FileTree}

/-! ## Snapshots as lists -/

/-- What a snapshot has of a place, if a file is there and the place is not hidden. -/
def savedFile? (hidden : List String) (e : Path × Node) : Option SavedFile :=
  match e.2 with
  | .file data modified =>
    if hidden.contains e.1.text then none else some ⟨e.1.text, modified, data⟩
  | _ => none

lemma snapshot_eq (t : FileTree) (hidden : List String) :
    t.snapshot hidden = t.nodes.entries.filterMap (savedFile? hidden) := rfl

lemma savedFile?_eq_some_iff {hidden : List String} {p : Path} {n : Node} {f : SavedFile} :
    savedFile? hidden (p, n) = some f ↔ ∃ data m, n = .file data m ∧ p.text ∉ hidden ∧
      f = ⟨p.text, m, data⟩ := by
  rcases n with ⟨data, m⟩ | m | d
  · by_cases hhidden : p.text ∈ hidden <;> simp [savedFile?, hhidden, eq_comm]
  · simp [savedFile?]
  · simp [savedFile?]

/-- A snapshot has the files of the tree that are not hidden. -/
lemma mem_snapshot_iff {hidden : List String} {f : SavedFile} :
    f ∈ t.snapshot hidden ↔ ∃ p data m, t.node? p = some (.file data m) ∧
      p.text ∉ hidden ∧ f = ⟨p.text, m, data⟩ := by
  simp only [snapshot_eq, List.mem_filterMap, Prod.exists, savedFile?_eq_some_iff]
  constructor
  · rintro ⟨p, n, hmem, data, m, rfl, hhidden, hf⟩
    exact ⟨p, data, m, Dict.mem_entries_iff.1 hmem, hhidden, hf⟩
  · rintro ⟨p, data, m, hn, hhidden, hf⟩
    exact ⟨p, _, Dict.mem_entries_iff.2 hn, data, m, rfl, hhidden, hf⟩

/-- A snapshot is in the order of its paths, and lists none twice. -/
lemma ascending_snapshot (t : FileTree) (hidden : List String) :
    (t.snapshot hidden).Pairwise fun f g => f.path < g.path := by
  rw [snapshot_eq]
  refine List.Pairwise.filterMap _ ?_ t.nodes.ascending
  rintro ⟨p, n⟩ ⟨q, k⟩ hlt f hf g hg
  obtain ⟨-, -, -, -, rfl⟩ := savedFile?_eq_some_iff.1 hf
  obtain ⟨-, -, -, -, rfl⟩ := savedFile?_eq_some_iff.1 hg
  exact hlt

/-- No path is in a snapshot twice. -/
lemma nodup_of_ascending {l : List SavedFile} (h : l.Pairwise fun f g => f.path < g.path) :
    (l.map SavedFile.path).Nodup := by
  refine List.pairwise_map.2 (h.imp fun hlt heq => ?_)
  rw [heq] at hlt
  exact String.lt_irrefl _ hlt

/-! ## Loading without losses -/

lemma load_append (now : Moment) (l k : List SavedFile) (t : FileTree) :
    load now (l ++ k) t = load now k (load now l t) :=
  List.foldl_append

/-- Nothing on the way is in the way, so the way can be made. -/
lemma exists_makeMissing (now : Moment) {ps : List Path}
    (h : ∀ p ∈ ps, ∀ n, t.node? p = some n → ∃ m, n = .directory m) :
    ∃ u, makeMissing now ps t = .ok () u := by
  induction ps generalizing t with
  | nil => exact ⟨t, rfl⟩
  | cons p ps ih =>
    rw [makeMissing, get_bind]
    cases hn : t.node? p with
    | none =>
      refine ih fun q hq n hqn => ?_
      rw [node?_withNode] at hqn
      split_ifs at hqn with heq
      · exact ⟨now, (Option.some.inj hqn).symm⟩
      · exact h q (List.mem_cons_of_mem p hq) n hqn
    | some n =>
      obtain ⟨m, rfl⟩ := h p List.mem_cons_self n hn
      exact ih fun q hq => h q (List.mem_cons_of_mem p hq)

/-- A tree with some of the files of another, and no directory where the other has none. -/
structure Copied (s : FileTree) (files : List SavedFile) (t : FileTree) : Prop where
  saved : ∀ p data m, (⟨p.text, m, data⟩ : SavedFile) ∈ files → s.node? p = some (.file data m)
  file_iff : ∀ p data m, t.node? p = some (.file data m) ↔ ⟨p.text, m, data⟩ ∈ files
  directory : ∀ p m, t.node? p = some (.directory m) → s.IsDirectory p
  no_device : ∀ p d, t.node? p ≠ some (.device d)

lemma copied_fresh (h : s.WellFormed) (born : Moment) : Copied s [] (fresh born) := by
  have hnode : ∀ p, (fresh born).node? p =
      if p = Path.root then some (.directory born) else none :=
    fun p => Dict.find?_insert Dict.empty Path.root p _
  refine ⟨by simp, fun p data m => ?_, fun p m hp => ?_, fun p d => ?_⟩
  · rw [hnode]
    split_ifs <;> simp
  · rw [hnode] at hp
    split_ifs at hp with heq
    exact heq ▸ h.rooted
  · rw [hnode]
    split_ifs <;> simp

/-- Where the other tree has a directory, the copy has one or nothing. -/
lemma Copied.eq_directory {files : List SavedFile} (hc : Copied s files t) {p : Path}
    (hp : s.IsDirectory p) {n : Node} (hn : t.node? p = some n) : ∃ m, n = .directory m := by
  obtain ⟨m, hm⟩ := hp
  rcases n with ⟨data, m'⟩ | m' | d
  · rw [hc.saved p data m' ((hc.file_iff p data m').1 hn)] at hm
    cases hm
  · exact ⟨m', rfl⟩
  · exact absurd hn (hc.no_device p d)

/-- Directories that the other tree has can be made in the copy. -/
lemma Copied.makeMissing (now : Moment) {files : List SavedFile} (hc : Copied s files t)
    {ps : List Path}
    (hps : ∀ p ∈ ps, s.IsDirectory p) :
    ∃ u, makeMissing now ps t = .ok () u ∧ Copied s files u := by
  obtain ⟨u, hu⟩ := exists_makeMissing now fun p hp n => hc.eq_directory (hps p hp)
  obtain ⟨-, hnode⟩ := makeMissing_ok hu
  refine ⟨u, hu, hc.saved, fun p data m => ?_, fun p m hp => ?_, fun p d hp => ?_⟩
  · rw [hnode, ← hc.file_iff]
    simp
  · rcases (hnode p _).1 hp with hp | ⟨-, hmem, -⟩
    · exact hc.directory p m hp
    · exact hps p hmem
  · rcases (hnode p _).1 hp with hp | ⟨-, -, hdev⟩
    · exact hc.no_device p d hp
    · cases hdev

/-- The way to a place of the other tree can be made in the copy. -/
lemma Copied.makeWay (h : s.WellFormed) (now : Moment) {files : List SavedFile}
    (hc : Copied s files t) {p : Path} {n : Node} (hp : s.node? p = some n) :
    ∃ u, makeWay now p t = .ok () u ∧ Copied s files u := by
  rw [FileTree.makeWay]
  cases hparent : p.parent? with
  | none => exact ⟨t, rfl, hc⟩
  | some q =>
    refine hc.makeMissing now fun r hr => ?_
    obtain ⟨hra, habove⟩ := isAbove_of_mem_way (h.anchored hp) hparent hr
    exact h.isDirectory_of_isAbove hra hp habove

/-- The copy with one more file of the other tree. -/
lemma Copied.withFile {files : List SavedFile} (hc : Copied s files t) {p : Path} {data : Bytes}
    {m : Moment} (hp : s.node? p = some (.file data m)) :
    Copied s (files ++ [⟨p.text, m, data⟩]) (t.withNode p (.file data m)) := by
  refine ⟨fun q data' m' hq => ?_, fun q data' m' => ?_, fun q m' hq => ?_, fun q d hq => ?_⟩
  · rcases List.mem_append.1 hq with hq | hq
    · exact hc.saved q data' m' hq
    · obtain ⟨htext, rfl, rfl⟩ := SavedFile.mk.inj (List.mem_singleton.1 hq)
      exact text_injective htext ▸ hp
  · rw [node?_withNode, List.mem_append, List.mem_singleton, SavedFile.mk.injEq]
    split_ifs with heq
    · subst heq
      constructor
      · intro hq
        obtain ⟨rfl, rfl⟩ := Node.file.inj (Option.some.inj hq)
        exact .inr ⟨rfl, rfl, rfl⟩
      · rintro (hq | ⟨-, rfl, rfl⟩)
        · rw [← hp, hc.saved _ _ _ hq]
        · rfl
    · have hne : q.text ≠ p.text := fun htext => heq (text_injective htext)
      rw [hc.file_iff]
      simp [hne]
  · rw [node?_withNode] at hq
    split_ifs at hq
    · cases hq
    · exact hc.directory q m' hq
  · rw [node?_withNode] at hq
    split_ifs at hq
    · cases hq
    · exact hc.no_device q d hq

/-- **One more file is never skipped**, and then the copy has it too. -/
theorem Copied.loadFile (h : s.WellFormed) (now : Moment) {files : List SavedFile}
    (hc : Copied s files t) {f : SavedFile} (hf : f ∈ s.snapshot []) :
    ∃ u, loadFile now f t = .ok () u ∧ Copied s (files ++ [f]) u := by
  obtain ⟨p, data, m, hp, -, rfl⟩ := mem_snapshot_iff.1 hf
  have hofText : ofText p.text = p := by
    rw [ofText_text, anchored_eq_self (h.anchored hp)]
  obtain ⟨u, hway, hcu⟩ := hc.makeWay h now hp
  have hcases := loadFile_cases now ⟨p.text, m, data⟩ t
  simp only [hofText, hway] at hcases
  rcases hcases with ⟨e, v, hv, -⟩ | ⟨v, hv, hrest⟩
  · cases hv
  obtain rfl : u = v := by injection hv
  rcases hrest with ⟨e, n, hn, hno, -⟩ | ⟨-, hrun⟩
  · -- what stands in the way is a directory or a device, and the copy has neither there
    rcases n with ⟨data', m'⟩ | m' | d
    · exact absurd rfl (hno data' m')
    · obtain ⟨m'', hdir⟩ := hcu.directory p m' hn
      rw [hp] at hdir
      cases hdir
    · exact absurd hn (hcu.no_device p d)
  · exact ⟨_, hrun, hcu.withFile hp⟩

/-- Whatever part of a snapshot is loaded, the files of that part are there. -/
lemma copied_load (h : s.WellFormed) (born now : Moment) {files : List SavedFile}
    (hsub : ∀ f ∈ files, f ∈ s.snapshot []) : Copied s files (load now files (fresh born)) := by
  induction files using List.reverseRecOn with
  | nil => exact copied_fresh h born
  | append_singleton files f ih =>
    have hc := ih fun g hg => hsub g (List.mem_append_left _ hg)
    obtain ⟨u, hrun, hcu⟩ := hc.loadFile h now (hsub f (by simp))
    rw [load_append]
    show Copied s (files ++ [f]) (after (loadFile now f) (load now files (fresh born)))
    rwa [after_ok hrun]

variable (h : s.WellFormed) (born now : Moment)

include h

/-- No file of a snapshot is skipped. -/
theorem exists_loadFile_of_snapshot {before rest : List SavedFile} {f : SavedFile}
    (hsplit : s.snapshot [] = before ++ f :: rest) :
    ∃ u, loadFile now f (load now before (fresh born)) = .ok () u := by
  have hc : Copied s before (load now before (fresh born)) :=
    copied_load h born now fun g hg => by simp [hsplit, hg]
  obtain ⟨u, hrun, -⟩ := hc.loadFile h now (f := f) (by simp [hsplit])
  exact ⟨u, hrun⟩

/-- **What is loaded from a snapshot has that snapshot.** -/
theorem snapshot_load_snapshot :
    (load now (s.snapshot []) (fresh born)).snapshot [] = s.snapshot [] := by
  have hc : Copied s (s.snapshot []) (load now (s.snapshot []) (fresh born)) :=
    copied_load h born now fun f hf => hf
  refine Dict.eq_of_ascending SavedFile.path (ascending_snapshot _ _) (ascending_snapshot _ _)
    fun f => ?_
  rw [mem_snapshot_iff]
  constructor
  · rintro ⟨p, data, m, hp, -, rfl⟩
    exact (hc.file_iff p data m).1 hp
  · intro hf
    obtain ⟨p, data, m, hp, -, rfl⟩ := mem_snapshot_iff.1 hf
    exact ⟨p, data, m, (hc.file_iff p data m).2 hf, List.not_mem_nil, rfl⟩

end GuestShell.FileTree
