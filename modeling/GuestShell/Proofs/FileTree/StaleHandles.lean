import GuestShell.Proofs.FileTree.Identity

/-!
# What becomes of a handle when its file is gone

A file stays what it is until it is removed or another comes to its place (`exists_file_step`), and
once it is gone it does not come back (`exists_file_of_step`).

While it is there, what is done through a handle that was opened on it is done to it and to no other
(`handle_stays_with_file`).  The handle does not know when it is gone.
-/

namespace GuestShell.FileTree

open GuestShell.Path Function

variable {α : Type} {t u : FileTree} {now born : Moment} {handle k i : Nat} {f : OpenFile}
  {p q : Path}

namespace Tracked

/-! ## Where files go -/

variable {s : Tracked}

/-- What a request can do to the files of `s`, at the time `now`; `file` is where they are then. -/
inductive FilesBy (now : Moment) (s : Tracked) (file : Path → Option Nat) : Deed → Prop
  | kept {deed : Deed} (h : file = s.file) : FilesBy now s file deed
  | loaded {files : List SavedFile} (h : file = (files.foldl (loadFile now) s).file) :
      FilesBy now s file (.operation (.load files))
  | made {path : String} {mode : OpenMode} (hnone : s.tree.node? (ofText path) = none)
      (h : file = (s.put (ofText path)).file) : FilesBy now s file (.operation (.openPath path mode))
  | lost {deed : Deed} (p : Path) (hends : deed.Ends p) (h : file = (s.lose p).file) :
      FilesBy now s file deed
  | carried {source target : String} (can : s.tree.CanMove (ofText source) (ofText target))
      (h : file = (s.carry (ofText source) (ofText target)).file) :
      FilesBy now s file (.operation (.rename source target))

/-- **Every request does one of these.** -/
theorem filesBy_step (now : Moment) (s : Tracked) (deed : Deed) :
    FilesBy now s (s.step now deed).file deed := by
  cases deed with
  | mount path device =>
    rw [step]
    cases h : FileTree.mount now (ofText path) device s.tree with
    | error e u =>
      rw [attempt_error h]
      exact .kept rfl
    | ok v u =>
      rw [attempt_ok h]
      exact .lost _ rfl rfl
  | operation op =>
    cases op with
    | load files => exact .loaded rfl
    | openPath path mode =>
      rw [step]
      rcases openPath_cases now (ofText path) mode s.tree with ⟨e, h⟩ | ⟨data, m, hn, h⟩ |
        ⟨hnone, -, -, h⟩
      · rw [attempt_error h]
        exact .kept rfl
      · have hplace : s.tree.hasPlace (ofText path) = true := hasPlace_iff.2 ⟨_, hn⟩
        rw [attempt_ok h, if_pos hplace]
        exact .kept rfl
      · have hplace : ¬s.tree.hasPlace (ofText path) = true := by simp [hasPlace, hnone]
        rw [attempt_ok h, if_neg hplace]
        exact .made hnone rfl
    | close handle =>
      rw [step]
      cases h : FileTree.close handle s.tree with
      | error e u =>
        rw [attempt_error h]
        exact .kept rfl
      | ok v u =>
        rw [attempt_ok h]
        exact .kept rfl
    | removeFile path =>
      rw [step]
      cases h : FileTree.removeFile (ofText path) s.tree with
      | error e u =>
        rw [attempt_error h]
        exact .kept rfl
      | ok v u =>
        rw [attempt_ok h]
        exact .lost _ rfl rfl
    | rename source target =>
      rw [step]
      rcases rename_cases (ofText source) (ofText target) s.tree with ⟨e, h⟩ | ⟨heq, h⟩ | ⟨can, h⟩
      · rw [attempt_error h]
        exact .kept rfl
      · rw [attempt_ok h, if_pos heq]
        exact .kept rfl
      · rw [attempt_ok h, if_neg can.apart]
        exact .carried can rfl
    | makeDirectories path => exact .kept rfl
    | setLength handle size => exact .kept rfl
    | read handle len => exact .kept rfl
    | write handle chunk => exact .kept rfl
    | seek handle origin => exact .kept rfl
    | makeDirectory path => exact .kept rfl
    | removeDirectory path => exact .kept rfl

lemma file_put_of_ne (s : Tracked) (hne : p ≠ q) : (s.put q).file p = s.file p :=
  update_of_ne hne _ _

lemma exists_file_of_put (hi : i < s.count) (hq : (s.put p).file q = some i) :
    ∃ r, s.file r = some i := by
  simp only [put, update_apply] at hq
  split_ifs at hq
  · exact absurd (Option.some.inj hq) (Nat.ne_of_gt hi)
  · exact ⟨q, hq⟩

/-! ### Loading -/

/-- A saved file that is loaded comes to be, or is skipped. -/
lemma loadFile_cases (now : Moment) (s : Tracked) (f : SavedFile) :
    ∃ u, s.loadFile now f = { s with tree := u } ∨
      s.loadFile now f = { s.put (ofText f.path) with tree := u } := by
  rw [loadFile]
  cases h : FileTree.loadFile now f s.tree with
  | ok v u => exact ⟨u, .inr (attempt_ok h _)⟩
  | error e u => exact ⟨u, .inl (attempt_error h _)⟩

lemma file_foldl_loadFile_of_ne {files : List SavedFile} (hne : ∀ f ∈ files, ofText f.path ≠ p) :
    (files.foldl (loadFile now) s).file p = s.file p := by
  induction files generalizing s with
  | nil => rfl
  | cons f files ih =>
    obtain ⟨hf, hfiles⟩ := List.forall_mem_cons.1 hne
    rw [List.foldl_cons, ih hfiles]
    obtain ⟨u, h | h⟩ := loadFile_cases now s f
    · rw [h]
    · rw [h]
      exact file_put_of_ne s hf.symm

lemma exists_file_of_foldl_loadFile {files : List SavedFile} (hi : i < s.count)
    (hq : (files.foldl (loadFile now) s).file q = some i) : ∃ r, s.file r = some i := by
  induction files generalizing s q with
  | nil => exact ⟨q, hq⟩
  | cons f files ih =>
    obtain ⟨u, h | h⟩ := loadFile_cases now s f
    · rw [List.foldl_cons, h] at hq
      exact ih (s := { s with tree := u }) hi hq
    · rw [List.foldl_cons, h] at hq
      obtain ⟨r, hr⟩ :=
        ih (s := { s.put (ofText f.path) with tree := u }) (Nat.lt_succ_of_lt hi) hq
      exact exists_file_of_put hi hr

/-! ### Staying and going -/

/-- **A file is there until it is removed or another comes to its place.** -/
theorem Sound.exists_file_step (h : s.Sound) (now : Moment) {deed : Deed} (hp : s.file p = some i)
    (hends : ¬deed.Ends p) : ∃ q, (s.step now deed).file q = some i := by
  obtain ⟨data, m, hn⟩ := h.node?_of_file hp
  cases filesBy_step now s deed with
  | kept hfile => exact ⟨p, hfile ▸ hp⟩
  | loaded hfile =>
    refine ⟨p, ?_⟩
    rw [hfile, file_foldl_loadFile_of_ne fun f hf heq => hends ⟨f, hf, heq⟩, hp]
  | made hnone hfile =>
    refine ⟨p, ?_⟩
    rw [hfile, file_put_of_ne s, hp]
    rintro rfl
    simp [hn] at hnone
  | lost q hq hfile =>
    have hne : p ≠ q := fun heq => hends (heq ▸ hq)
    exact ⟨p, (congrFun hfile p).trans ((update_of_ne hne _ _).trans hp)⟩
  | @carried source target can hfile =>
    have hs := adrift_ofText source
    have ht := adrift_ofText target
    have hmv := h.wellFormed.connected.transplantable hs ht can
    rw [hfile]
    simp only [Tracked.carry]
    by_cases hsp : covers (ofText source) p = true
    · refine ⟨moved (ofText source) (ofText target) p, ?_⟩
      rw [if_pos (hmv.covers_target p),
        moved_moved hs hmv.source_ne_root (h.wellFormed.anchored hn) hsp, hp]
    · -- what lies below the target would be in its way
      have htp : ¬covers (ofText target) p = true := fun htp => by
        rcases covers_iff_eq_or_isAbove.1 htp with heq | habove
        · exact hends ⟨can.apart, heq⟩
        · exact hmv.vacant p _ hn habove
      exact ⟨p, by rw [if_neg htp, if_neg hsp, hp]⟩

/-- **A file that is gone does not come back.** -/
theorem exists_file_of_step (now : Moment) {deed : Deed} (hi : i < s.count)
    (hq : (s.step now deed).file q = some i) : ∃ p, s.file p = some i := by
  cases filesBy_step now s deed with
  | kept hfile => exact ⟨q, hfile ▸ hq⟩
  | loaded hfile =>
    rw [hfile] at hq
    exact exists_file_of_foldl_loadFile hi hq
  | made hnone hfile =>
    rw [hfile] at hq
    exact exists_file_of_put hi hq
  | lost p _ hfile =>
    rw [hfile] at hq
    simp only [lose, update_apply] at hq
    split_ifs at hq
    exact ⟨q, hq⟩
  | carried can hfile =>
    rw [hfile] at hq
    simp only [carry] at hq
    split_ifs at hq
    · exact ⟨_, hq⟩
    · exact ⟨q, hq⟩

/-! ## Handles -/

/-- What can be reached from a fresh tree by requests, of which none buries anything. -/
inductive Reached (born : Moment) : Tracked → Prop
  | fresh : Reached born (.fresh born)
  | step {s : Tracked} (h : Reached born s) (now : Moment) (deed : Deed)
      (hdeed : ¬deed.Buries s.tree) : Reached born (s.step now deed)

/-- One request after another, each at a time of its own. -/
def run (calls : List (Moment × Operation)) (s : Tracked) : Tracked :=
  calls.foldl (fun s call => s.step call.1 (.operation call.2)) s

/-- Only mounts can bury anything. -/
lemma Reached.run (h : Reached born s) (calls : List (Moment × Operation)) :
    Reached born (Tracked.run calls s) := by
  induction calls generalizing s with
  | nil => exact h
  | cons call calls ih => exact ih (h.step call.1 (.operation call.2) id)

lemma Reached.sound (h : Reached born s) : s.Sound := by
  induction h with
  | fresh => exact .fresh born
  | step _ now deed hdeed ih => exact ih.step now hdeed

/-- If another file, or none, is at the place that a handle has, its own file is gone. -/
lemma Sound.gone (h : s.Sound) (hk : s.opening k = some i) (hf : s.tree.opened.get? k = some f)
    (hne : s.file f.path ≠ some i) (p : Path) : s.file p ≠ some i := by
  intro hp
  rw [h.follows k i f p hk hf hp] at hne
  exact hne hp

end Tracked

open Tracked

/-- **A handle stays with its file.**  While the file that it was opened on is there, it is at the
place that the handle has, under whatever name; and until it is removed or another comes to its place
it is there.  Whatever is done through the handle has to do with what is at its place, and with nothing
else.  Once the file is gone it does not come back. -/
theorem handle_stays_with_file {s : Tracked} (hs : Reached born s)
    (hf : s.tree.opened.get? k = some f) :
    ∃ i, s.opening k = some i ∧
      (∀ p, s.file p = some i → f.path = p ∧ ∃ data m, s.tree.node? p = some (.file data m)) ∧
      (∀ (now : Moment) (x : Access), x.Local now k f s.tree) ∧
      ∀ (now : Moment) (deed : Deed),
        (∀ p, s.file p = some i → ¬deed.Ends p → ∃ q, (s.step now deed).file q = some i) ∧
        ∀ q, (s.step now deed).file q = some i → ∃ p, s.file p = some i := by
  have h := hs.sound
  have hopening : (s.opening k).isSome = true := by rw [h.opened k, hf, Option.isSome_some]
  obtain ⟨i, hk⟩ := Option.isSome_iff_exists.1 hopening
  refine ⟨i, hk, fun p hp => ⟨h.follows k i f p hk hf hp, h.node?_of_file hp⟩, fun now x => ?_,
    fun now deed => ⟨fun p hp => h.exists_file_step now hp, fun q => ?_⟩⟩
  · exact x.isLocal now hf (h.anchored k f hf)
  · exact exists_file_of_step now (h.earlier k i hk)

/-- A handle on a file in a directory that is renamed. -/
def renamed : Tracked :=
  Tracked.run [(1, .load [⟨"/d/a", 1, [104, 105]⟩]), (2, .openPath "/d/a" {}),
    (3, .rename "/d" "/e")] (.fresh 0)

/-- Then the file is removed, under its new name. -/
def removed : Tracked := Tracked.run [(4, .removeFile "/e/a")] renamed

/-- The handle has gone along, and reads the file under its new name; once this is removed, nothing is
found. -/
theorem handle_stays_with_file_renamed :
    (∃ i, renamed.opening 0 = some i ∧ renamed.file (ofText "/e/a") = some i ∧
      ∀ e u, Access.ask 4 0 (.read 2) renamed.tree = .error e u → e.kind ≠ .notFound) ∧
    ∃ e, Access.ask 5 0 (.read 2) removed.tree = .error e removed.tree ∧ e.kind = .notFound := by
  have hrenamed : Reached 0 renamed := Reached.fresh.run _
  have hremoved : Reached 0 removed := hrenamed.run _
  have hopen : renamed.tree.opened.get? 0 = some ⟨ofText "/e/a", 0, true, false, false⟩ := by
    decide +kernel
  have hstill : removed.tree.opened.get? 0 = some ⟨ofText "/e/a", 0, true, false, false⟩ := by
    decide +kernel
  have hfile : renamed.file (ofText "/e/a") = some 0 := by decide +kernel
  have hfirst : renamed.opening 0 = some 0 := by decide +kernel
  have hnone : removed.tree.node? (ofText "/e/a") = none := by decide +kernel
  obtain ⟨i, hi, hplace, haccess, -⟩ := handle_stays_with_file hrenamed hopen
  obtain rfl : 0 = i := Option.some.inj (hfirst.symm.trans hi)
  obtain ⟨-, -, -, haccess', -⟩ := handle_stays_with_file hremoved hstill
  refine ⟨⟨0, hi, hfile, (haccess 4 (.read 2)).found (hplace _ hfile).2⟩,
    (haccess' 5 (.read 2)).missing rfl ?_⟩
  rintro ⟨data, m, hn⟩
  cases hnone.symm.trans hn

/-- A file was removed while it was open, and another was loaded in its place. -/
def replacedByFile : Tracked :=
  Tracked.run [(1, .load [⟨"/a", 1, [111, 108, 100]⟩]), (2, .openPath "/a" {}),
    (3, .removeFile "/a"), (4, .load [⟨"/a", 4, [110, 101, 119]⟩])] (.fresh 0)

/-- A file was removed while it was open, and a directory was made in its place. -/
def replacedByDirectory : Tracked :=
  Tracked.run [(1, .load [⟨"/a", 1, [111, 108, 100]⟩]), (2, .openPath "/a" {}),
    (3, .removeFile "/a"), (4, .makeDirectory "/a")] (.fresh 0)

/-- Two files were open when a device was mounted above them, and their directory was then moved onto
the device. -/
def buried : Tracked :=
  ((Tracked.run [(1, .load [⟨"/d/b/b/c", 1, [49]⟩, ⟨"/d/b/c", 1, [50]⟩]),
    (2, .openPath "/d/b/b/c" {}), (2, .openPath "/d/b/c" {})] (.fresh 0)).step 3
      (.mount "/d" .tty)).step 4 (.operation (.rename "/d/b" "/d"))

/-- A device was mounted on the root, and a directory with an open file was then moved onto it. -/
def uprooted : Tracked :=
  Tracked.run [(2, .load [⟨"/d/x", 2, [49]⟩]), (3, .openPath "/d/x" {}), (4, .rename "/d" "/")]
    ((Tracked.fresh 0).step 1 (.mount "/" .tty))

/-- **A handle whose file is gone finds another.**  It reads the file that came to the place, and tells
of a directory there.

Files that a device has buried part from their handles when they are moved: one handle finds nothing
any more, and the other the file of the first.  And below a root that is a device a file can come to
where it is read but not told of. -/
theorem stale_handle_finds_another :
    (replacedByFile.opening 0 = some 0 ∧ (∀ p, replacedByFile.file p ≠ some 0) ∧
      replacedByFile.file (ofText "/a") = some 1 ∧
      (answer (read 0 3) replacedByFile.tree).toOption = some [110, 101, 119]) ∧
    (replacedByDirectory.opening 0 = some 0 ∧ (∀ p, replacedByDirectory.file p ≠ some 0) ∧
      (answer (handleMetadata 0) replacedByDirectory.tree).toOption.map Metadata.isDirectory =
        some true) ∧
    (buried.opening 0 = some 0 ∧ buried.opening 1 = some 1 ∧
      (buried.tree.file? (ofText "/d/c")).map Prod.fst = some [49] ∧
      (answer (read 0 1) buried.tree).toOption = none ∧
      (answer (read 1 1) buried.tree).toOption = some [49]) ∧
    uprooted.opening 0 = some 0 ∧ (answer (read 0 1) uprooted.tree).toOption = some [49] ∧
      (answer (handleMetadata 0) uprooted.tree).toOption.map Metadata.size = none := by
  have hfile : replacedByFile.Sound := (Reached.fresh.run _).sound
  have hdirectory : replacedByDirectory.Sound := (Reached.fresh.run _).sound
  have hopen : replacedByFile.tree.opened.get? 0 = some ⟨ofText "/a", 0, true, false, false⟩ := by
    decide +kernel
  have hopen' : replacedByDirectory.tree.opened.get? 0 =
      some ⟨ofText "/a", 0, true, false, false⟩ := by decide +kernel
  have hopening : replacedByFile.opening 0 = some 0 := by decide +kernel
  have hopening' : replacedByDirectory.opening 0 = some 0 := by decide +kernel
  refine ⟨⟨hopening, hfile.gone hopening hopen (by decide +kernel), by decide +kernel⟩,
    ⟨hopening', hdirectory.gone hopening' hopen' (by decide +kernel), by decide +kernel⟩,
    by decide +kernel, by decide +kernel⟩

end GuestShell.FileTree
