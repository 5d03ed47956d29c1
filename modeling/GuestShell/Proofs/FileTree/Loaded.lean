import GuestShell.Proofs.FileTree.Failures

/-!
# What loading makes of a list of files

Loading goes through a list and skips what it cannot put into the tree; `accepted` has the files
that it does not skip.  Two facts tell the loaded tree from that list.

**Files.**  A place has the file that was accepted for it last, and else the file it had before
(`file?_load`).  Nothing that loading does on the way to one file touches another.

**Directories.**  Loading makes a directory only on the way to a file that it then puts there, since
it cannot fail any more once a directory was missing (`makeMissing_error`).  So it leaves no
directory empty (`Occupied.load`), and its directories are known from its files
(`isDirectory_load_iff`).
-/

namespace GuestShell.FileTree

open GuestShell.Path

variable {t u : FileTree} {now : Moment}

/-! ## The files that are not skipped -/

/-- The files that loading puts into the tree, in their order. -/
def accepted (now : Moment) : List SavedFile → FileTree → List SavedFile
  | [], _ => []
  | f :: files, t =>
    match loadFile now f t with
    | .ok _ u => f :: accepted now files u
    | .error _ u => accepted now files u

/-- The last of the files that go to a place. -/
def latest (p : Path) : List SavedFile → Option SavedFile
  | [] => none
  | f :: files => (latest p files).or (if ofText f.path = p then some f else none)

lemma mem_of_latest {p : Path} {files : List SavedFile} {f : SavedFile}
    (h : latest p files = some f) : f ∈ files ∧ ofText f.path = p := by
  induction files with
  | nil => cases h
  | cons g files ih =>
    rw [latest, Option.or_eq_some_iff] at h
    rcases h with h | ⟨-, h⟩
    · exact ⟨List.mem_cons_of_mem g (ih h).1, (ih h).2⟩
    · split_ifs at h with hp
      cases h
      exact ⟨List.mem_cons_self, hp⟩

lemma exists_latest {files : List SavedFile} {f : SavedFile} (h : f ∈ files) :
    ∃ g, latest (ofText f.path) files = some g := by
  induction files with
  | nil => cases h
  | cons g files ih =>
    rw [latest]
    cases hlatest : latest (ofText f.path) files with
    | some k => exact ⟨k, rfl⟩
    | none =>
      rcases List.mem_cons.1 h with rfl | h
      · exact ⟨f, by simp⟩
      · obtain ⟨k, hk⟩ := ih h
        rw [hlatest] at hk
        cases hk

/-! ## Files -/

/-- The contents at a place and the time of their last change, if a file is there. -/
def file? (t : FileTree) (p : Path) : Option (Bytes × Moment) :=
  match t.node? p with
  | some (.file data m) => some (data, m)
  | _ => none

lemma file?_eq_some_iff {p : Path} {data : Bytes} {m : Moment} :
    t.file? p = some (data, m) ↔ t.node? p = some (.file data m) := by
  rw [file?]
  split <;> simp_all

lemma node?_fresh {p : Path} (hp : p ≠ Path.root) : (fresh now).node? p = none := by
  rw [fresh, node?, Dict.find?_insert, if_neg hp]
  rfl

lemma file?_fresh (p : Path) : (fresh now).file? p = none := by
  by_cases hp : p = Path.root
  · subst hp
    rfl
  · rw [file?, node?_fresh hp]

/-- What a saved file is in a tree. -/
def contents (f : SavedFile) : Bytes × Moment := (f.bytes, f.timestamp)

lemma file?_withFile (t : FileTree) (p q : Path) (data : Bytes) (m : Moment) :
    (t.withNode p (.file data m)).file? q = if p = q then some (data, m) else t.file? q := by
  rw [file?, node?_withNode]
  by_cases hpq : p = q
  · rw [if_pos hpq.symm, if_pos hpq]
  · rw [if_neg (Ne.symm hpq), if_neg hpq]
    rfl

/-- A directory where nothing was changes no file. -/
lemma file?_withDirectory {p : Path} (hp : t.node? p = none) (q : Path) (m : Moment) :
    (t.withNode p (.directory m)).file? q = t.file? q := by
  rw [file?, file?, node?_withNode]
  split_ifs with hqp
  · rw [hqp, hp]
  · rfl

lemma file?_makeMissing (ps : List Path) (q : Path) :
    (after (makeMissing now ps) t).file? q = t.file? q :=
  makeMissing_keeps (P := fun u => u.file? q = t.file? q)
    (fun hnone h => (file?_withDirectory hnone q _).trans h) ps rfl

lemma file?_makeWay (now : Moment) (t : FileTree) (p q : Path) :
    (after (makeWay now p) t).file? q = t.file? q :=
  makeWay_keeps (P := fun u => u.file? q = t.file? q)
    (fun hnone h => (file?_withDirectory hnone q _).trans h) p rfl

lemma file?_of_loadFile_ok {f : SavedFile} (h : loadFile now f t = .ok () u) (q : Path) :
    u.file? q = if ofText f.path = q then some (contents f) else t.file? q := by
  rcases loadFile_cases now f t with ⟨e, v, -, hrun⟩ | ⟨v, hway, ⟨e, n, -, -, hrun⟩ | ⟨-, hrun⟩⟩
  · rw [h] at hrun
    cases hrun
  · rw [h] at hrun
    cases hrun
  · obtain rfl : u = v.withNode (ofText f.path) (.file f.bytes f.timestamp) := by
      rw [h] at hrun
      injection hrun
    have hkept := file?_makeWay now t (ofText f.path) q
    rw [after_ok hway] at hkept
    rw [file?_withFile, hkept]
    rfl

lemma file?_of_loadFile_error {f : SavedFile} {e : FileError} (h : loadFile now f t = .error e u)
    (q : Path) : u.file? q = t.file? q := by
  have hkept := file?_makeWay now t (ofText f.path) q
  rcases loadFile_cases now f t with ⟨e', v, hway, hrun⟩ | ⟨v, hway, ⟨e', n, -, -, hrun⟩ | ⟨-, hrun⟩⟩
  · rw [h] at hrun
    cases hrun
    rwa [after_error hway] at hkept
  · rw [h] at hrun
    cases hrun
    rwa [after_ok hway] at hkept
  · rw [h] at hrun
    cases hrun

/-- **A place has the file that was accepted for it last**, and else the file it had before. -/
theorem file?_load (files : List SavedFile) (t : FileTree) (p : Path) :
    (load now files t).file? p =
      ((latest p (accepted now files t)).map contents).or (t.file? p) := by
  induction files generalizing t with
  | nil => rfl
  | cons f files ih =>
    have hstep : load now (f :: files) t = load now files (after (loadFile now f) t) := rfl
    rw [hstep, ih, accepted, after]
    cases hf : loadFile now f t with
    | ok v u =>
      rw [file?_of_loadFile_ok hf, latest]
      cases latest p (accepted now files u) with
      | some g => rfl
      | none => by_cases hp : ofText f.path = p <;> simp [hp]
    | error e u => rw [file?_of_loadFile_error hf]

lemma file?_load_fresh (now : Moment) (files : List SavedFile) (p : Path) :
    (load now files (fresh now)).file? p =
      (latest p (accepted now files (fresh now))).map contents := by
  rw [file?_load, file?_fresh, Option.or_none]

/-! ## Directories -/

/-- No directory but the root is without a file. -/
def Occupied (t : FileTree) : Prop :=
  ∀ p, t.IsDirectory p → p ≠ Path.root →
    ∃ q data m, p.isAbove q = true ∧ t.node? q = some (.file data m)

lemma makeWay_error (h : t.WellFormed) {p : Path} (hp : p.adrift = false) {e : FileError}
    (hrun : makeWay now p t = .error e u) : u = t := by
  rw [makeWay] at hrun
  cases hparent : p.parent? with
  | none =>
    rw [hparent] at hrun
    cases hrun
  | some d =>
    rw [hparent] at hrun
    exact makeMissing_error h (isChain_way ((parent?_eq_some_iff hp).1 hparent).1) hrun

/-- What is new on the way to a place are directories above it. -/
lemma node?_of_makeWay {p q : Path} {n : Node} (hp : p.adrift = false)
    (hrun : makeWay now p t = .ok () u) (hq : u.node? q = some n) :
    t.node? q = some n ∨ t.node? q = none ∧ q.isAbove p = true := by
  rw [makeWay] at hrun
  cases hparent : p.parent? with
  | none =>
    rw [hparent] at hrun
    injection hrun with _ hu
    exact .inl (hu ▸ hq)
  | some d =>
    rw [hparent] at hrun
    rcases ((makeMissing_ok hrun).2 q n).1 hq with hold | ⟨hnone, hmem, -⟩
    · exact .inl hold
    · exact .inr ⟨hnone, (isAbove_of_mem_way hp hparent hmem).2⟩

lemma node?_makeWay_of_node? {p q : Path} {n : Node} (hrun : makeWay now p t = .ok () u)
    (hq : t.node? q = some n) : u.node? q = some n := by
  rw [makeWay] at hrun
  cases hparent : p.parent? with
  | none =>
    rw [hparent] at hrun
    injection hrun with _ hu
    exact hu ▸ hq
  | some d =>
    rw [hparent] at hrun
    exact ((makeMissing_ok hrun).2 q n).2 (.inl hq)

lemma not_isAbove_self (p : Path) : ¬p.isAbove p = true := by
  simp [isAbove]

namespace Occupied

lemma fresh (now : Moment) : (fresh now).Occupied := by
  rintro p ⟨m, hm⟩ hne
  rw [node?_fresh hne] at hm
  cases hm

/-- Loading one more file leaves no directory empty. -/
lemma loadFile (h : t.WellFormed) (ho : t.Occupied) (f : SavedFile) :
    (after (loadFile now f) t).Occupied := by
  have hp := adrift_ofText f.path
  rcases loadFile_cases now f t with ⟨e, u, hway, hrun⟩ | ⟨u, hway, ⟨e, n, hn, -, hrun⟩ | ⟨-, hrun⟩⟩
  · rw [after_error hrun, makeWay_error h hp hway]
    exact ho
  · -- what is in the file's place was there before, and so was the way to it
    rw [after_error hrun]
    rintro q ⟨m, hm⟩ hne
    have hplace : t.node? (ofText f.path) = some n :=
      (node?_of_makeWay hp hway hn).resolve_right fun hnew => not_isAbove_self _ hnew.2
    have hold : t.IsDirectory q := by
      rcases node?_of_makeWay hp hway hm with hold | ⟨hnone, habove⟩
      · exact ⟨m, hold⟩
      · have hq : q.adrift = false := by
          have hu := (edits_makeWay now hp h).wellFormed h
          rw [after_ok hway] at hu
          exact hu.anchored hm
        exact h.isDirectory_of_isAbove hq hplace habove
    obtain ⟨r, data, m', habove, hr⟩ := ho q hold hne
    exact ⟨r, data, m', habove, node?_makeWay_of_node? hway hr⟩
  · rw [after_ok hrun]
    rintro q ⟨m, hm⟩ hne
    rw [node?_withNode] at hm
    split_ifs at hm with hqp
    · cases hm
    have hnow : (u.withNode (ofText f.path) (.file f.bytes f.timestamp)).node? (ofText f.path) =
        some (.file f.bytes f.timestamp) := by rw [node?_withNode, if_pos rfl]
    rcases node?_of_makeWay hp hway hm with hold | ⟨-, habove⟩
    · obtain ⟨r, data, m', habove, hr⟩ := ho q ⟨m, hold⟩ hne
      by_cases hrp : r = ofText f.path
      · exact ⟨_, _, _, hrp ▸ habove, hnow⟩
      · refine ⟨r, data, m', habove, ?_⟩
        rw [node?_withNode, if_neg hrp]
        exact node?_makeWay_of_node? hway hr
    · exact ⟨_, _, _, habove, hnow⟩

/-- **Loading leaves no directory empty.** -/
theorem load (h : t.WellFormed) (ho : t.Occupied) (files : List SavedFile) :
    (load now files t).Occupied := by
  induction files generalizing t with
  | nil => exact ho
  | cons f files ih => exact ih ((edits_loadFile now f h).wellFormed h) (ho.loadFile h f)

end Occupied

lemma wellFormed_load (now : Moment) (files : List SavedFile) :
    (load now files (fresh now)).WellFormed :=
  (edits_load now files (WellFormed.fresh now)).wellFormed (WellFormed.fresh now)

/-- **The directories that loading makes are those above the files that it accepts.** -/
theorem isDirectory_load_iff (files : List SavedFile) {p : Path} (hp : p.adrift = false)
    (hne : p ≠ Path.root) : (load now files (fresh now)).IsDirectory p ↔
      ∃ f ∈ accepted now files (fresh now), p.isAbove (ofText f.path) = true := by
  have hloaded := wellFormed_load now files
  constructor
  · intro hdir
    have hoccupied : (load now files (fresh now)).Occupied :=
      Occupied.load (WellFormed.fresh now) (Occupied.fresh now) files
    obtain ⟨q, data, m, habove, hq⟩ := hoccupied p hdir hne
    have hfile := file?_eq_some_iff.2 hq
    rw [file?_load_fresh, Option.map_eq_some_iff] at hfile
    obtain ⟨f, hf, -⟩ := hfile
    obtain ⟨hmem, rfl⟩ := mem_of_latest hf
    exact ⟨f, hmem, habove⟩
  · rintro ⟨f, hmem, habove⟩
    obtain ⟨g, hg⟩ := exists_latest hmem
    have hfile := file?_load_fresh now files (ofText f.path)
    rw [hg] at hfile
    exact hloaded.isDirectory_of_isAbove hp (file?_eq_some_iff.1 hfile) habove

end GuestShell.FileTree
