import GuestShell.Proofs.FileTree.Outcomes
import GuestShell.Proofs.FileTree.WellFormed

/-!
# Every run of operations keeps a tree well formed

`Operation` lists what can be asked of a tree, each request with whatever arguments it takes: places
are texts, handles and lengths are any numbers.  A request that fails still leaves a tree behind, and
`Operation.apply` gives that tree.

`LeftBy` says once which trees each request can leave, and with what checked before (`leftBy_apply`).
What requests do to a tree, here and later, is read off it case by case.

Each operation comes to edits (`edits_apply`): most to a single one, while making the directories on
the way to a place and loading a list of files come to many.  So nothing that can be asked of a fresh
tree leads out of the well-formed ones (`wellFormed_run`).
-/

namespace GuestShell.FileTree

open GuestShell.Path Relation

variable {α : Type} {t u : FileTree} {now : Moment}

/-! ## Requests -/

/-- What can be asked of a tree. -/
inductive Operation where
  | load (files : List SavedFile)
  | makeDirectories (path : String)
  | setLength (handle size : Nat)
  | openPath (path : String) (mode : OpenMode)
  | close (handle : Nat)
  | read (handle len : Nat)
  | write (handle : Nat) (chunk : Bytes)
  | seek (handle : Nat) (origin : Origin)
  | makeDirectory (path : String)
  | removeFile (path : String)
  | removeDirectory (path : String)
  | rename (source target : String)

/-- The tree that a request leaves behind, whether it failed or not. -/
def Operation.apply (now : Moment) : Operation → FileTree → FileTree
  | .load files => FileTree.load now files
  | .makeDirectories path => after (FileTree.makeDirectories now (ofText path))
  | .setLength handle size => after (FileTree.setLength now handle size)
  | .openPath path mode => after (FileTree.openPath now (ofText path) mode)
  | .close handle => after (FileTree.close handle)
  | .read handle len => after (FileTree.read handle len)
  | .write handle chunk => after (FileTree.write now handle chunk)
  | .seek handle origin => after (FileTree.seek handle origin)
  | .makeDirectory path => after (FileTree.makeDirectory now (ofText path))
  | .removeFile path => after (FileTree.removeFile (ofText path))
  | .removeDirectory path => after (FileTree.removeDirectory (ofText path))
  | .rename source target => after (FileTree.rename (ofText source) (ofText target))

/-- One request after another, each at a time of its own. -/
def run (calls : List (Moment × Operation)) (t : FileTree) : FileTree :=
  calls.foldl (fun t call => call.2.apply call.1 t) t

lemma after_ok {a : Action α} {v : α} (h : a t = .ok v u) : after a t = u := by
  rw [after, h]

lemma after_error {a : Action α} {e : FileError} (h : a t = .error e u) : after a t = u := by
  rw [after, h]

lemma after_mount_ok {now : Moment} {p : Path} {d : Device} (h : makeWay now p t = .ok () u) :
    after (mount now p d) t = u.withNode p (.device d) := by
  rw [mount_eq, after, bind_ok h]
  rfl

lemma after_mount_error {now : Moment} {p : Path} {d : Device} {e : FileError}
    (h : makeWay now p t = .error e u) : after (mount now p d) t = u := by
  rw [mount_eq, after_error (bind_error h)]

/-! ## What a request leaves -/

/-- What a request at the time `now` can leave of the tree `t`.  Either that is the tree as it was, or
all that the request asks for is there, and it is the tree that the request is to make.  Loading and
making directories can stop on the way, so they are told as they are. -/
inductive LeftBy (now : Moment) (t : FileTree) : Operation → FileTree → Prop
  | kept (op : Operation) : LeftBy now t op t
  | loaded (files : List SavedFile) : LeftBy now t (.load files) (FileTree.load now files t)
  | wayMade (path : String) :
    LeftBy now t (.makeDirectories path) (after (FileTree.makeDirectories now (ofText path)) t)
  | resized {handle size : Nat} {f : OpenFile} {data : Bytes} {m : Moment}
    (opened : t.opened.get? handle = some f) (file : t.node? f.path = some (.file data m))
    (room : size ≤ maxLength) :
    LeftBy now t (.setLength handle size)
      (t.withNode f.path (.file (FileTree.resized data size) now))
  | found {path : String} {mode : OpenMode} {data : Bytes} {m : Moment}
    (file : t.node? (ofText path) = some (.file data m)) :
    LeftBy now t (.openPath path mode)
      ((if mode.truncate then t.withNode (ofText path) (.file [] now) else t).withOpened
        (ofText path) mode)
  | created {path : String} {mode : OpenMode} (absent : t.node? (ofText path) = none)
    (held : t.IsHeld (ofText path)) :
    LeftBy now t (.openPath path mode)
      ((t.withNode (ofText path) (.file [] now)).withOpened (ofText path) mode)
  | closed (handle : Nat) :
    LeftBy now t (.close handle) { t with opened := t.opened.remove handle }
  | read {handle len : Nat} {f : OpenFile} {data : Bytes} {m : Moment}
    (opened : t.opened.get? handle = some f) (file : t.node? f.path = some (.file data m)) :
    LeftBy now t (.read handle len)
      (t.withPosition handle (f.position + ((data.drop f.position).take len).length))
  | written {handle position : Nat} {chunk : Bytes} {f : OpenFile} {data : Bytes} {m : Moment}
    (opened : t.opened.get? handle = some f) (file : t.node? f.path = some (.file data m))
    (start : position = if f.append then data.length else f.position)
    (room : position + chunk.length ≤ maxLength) :
    LeftBy now t (.write handle chunk)
      ((t.withNode f.path (.file (overwritten data position chunk) now)).withPosition handle
        (position + chunk.length))
  | sought {handle position : Nat} {origin : Origin} {f : OpenFile} {data : Bytes} {m : Moment}
    (opened : t.opened.get? handle = some f) (file : t.node? f.path = some (.file data m))
    (place : Origin.position? data.length f.position origin = some position) :
    LeftBy now t (.seek handle origin) (t.withPosition handle position)
  | directoryMade {path : String} (absent : t.node? (ofText path) = none)
    (held : t.IsHeld (ofText path)) :
    LeftBy now t (.makeDirectory path) (t.withNode (ofText path) (.directory now))
  | fileRemoved {path : String} {data : Bytes} {m : Moment}
    (file : t.node? (ofText path) = some (.file data m)) :
    LeftBy now t (.removeFile path) (t.withoutNode (ofText path))
  | directoryRemoved {path : String} (inner : ofText path ≠ Path.root)
    (directory : t.IsDirectory (ofText path)) (vacant : t.hasBelow (ofText path) = false) :
    LeftBy now t (.removeDirectory path) (t.withoutNode (ofText path))
  | moved {source target : String} (can : t.CanMove (ofText source) (ofText target)) :
    LeftBy now t (.rename source target) (t.transplanted (ofText source) (ofText target))

/-- **Every request leaves one of these trees.** -/
theorem leftBy_apply (now : Moment) (op : Operation) (t : FileTree) :
    LeftBy now t op (op.apply now t) := by
  cases op with
  | load files => exact .loaded files
  | makeDirectories path => exact .wayMade path
  | setLength handle size =>
    rw [Operation.apply]
    rcases setLength_cases now handle size t with ⟨e, hrun⟩ | ⟨f, data, m, hf, hn, hroom, hrun⟩
    · rw [after_error hrun]
      exact .kept _
    · rw [after_ok hrun]
      exact .resized hf hn hroom
  | openPath path mode =>
    rw [Operation.apply]
    rcases openPath_cases now (ofText path) mode t with
      ⟨e, hrun⟩ | ⟨data, m, hn, hrun⟩ | ⟨hnone, held, -, hrun⟩
    · rw [after_error hrun]
      exact .kept _
    · rw [after_ok hrun]
      exact .found hn
    · rw [after_ok hrun]
      exact .created hnone held
  | close handle =>
    rw [Operation.apply]
    rcases close_cases handle t with hrun | hrun
    · rw [after_error hrun]
      exact .kept _
    · rw [after_ok hrun]
      exact .closed handle
  | read handle len =>
    rw [Operation.apply]
    rcases read_cases handle len t with ⟨e, hrun⟩ | ⟨f, data, m, hf, hn, hrun⟩
    · rw [after_error hrun]
      exact .kept _
    · rw [after_ok hrun]
      exact .read hf hn
  | write handle chunk =>
    rw [Operation.apply]
    rcases write_cases now handle chunk t with
      ⟨e, hrun⟩ | ⟨f, data, m, position, hf, hn, hstart, hroom, hrun⟩
    · rw [after_error hrun]
      exact .kept _
    · rw [after_ok hrun]
      exact .written hf hn hstart hroom
  | seek handle origin =>
    rw [Operation.apply]
    rcases seek_cases handle origin t with ⟨e, hrun⟩ | ⟨f, data, m, p, hf, hn, hp, hrun⟩
    · rw [after_error hrun]
      exact .kept _
    · rw [after_ok hrun]
      exact .sought hf hn hp
  | makeDirectory path =>
    rw [Operation.apply]
    rcases makeDirectory_cases now (ofText path) t with ⟨e, hrun⟩ | ⟨hnone, held, hrun⟩
    · rw [after_error hrun]
      exact .kept _
    · rw [after_ok hrun]
      exact .directoryMade hnone held
  | removeFile path =>
    rw [Operation.apply]
    rcases removeFile_cases (ofText path) t with ⟨e, hrun⟩ | ⟨data, m, hn, hrun⟩
    · rw [after_error hrun]
      exact .kept _
    · rw [after_ok hrun]
      exact .fileRemoved hn
  | removeDirectory path =>
    rw [Operation.apply]
    rcases removeDirectory_cases (ofText path) t with ⟨e, hrun⟩ | ⟨hroot, hdir, hbelow, hrun⟩
    · rw [after_error hrun]
      exact .kept _
    · rw [after_ok hrun]
      exact .directoryRemoved hroot hdir hbelow
  | rename source target =>
    rw [Operation.apply]
    rcases rename_cases (ofText source) (ofText target) t with
      ⟨e, hrun⟩ | ⟨-, hrun⟩ | ⟨can, hrun⟩
    · rw [after_error hrun]
      exact .kept _
    · rw [after_ok hrun]
      exact .kept _
    · rw [after_ok hrun]
      exact .moved can

/-! ## What making directories and loading keep -/

section Keeps

variable {P : FileTree → Prop}
  (hmade : ∀ {t : FileTree} {p : Path}, t.node? p = none → P t → P (t.withNode p (.directory now)))

include hmade

/-- What each directory keeps that is made where nothing is, making all of them keeps. -/
lemma makeMissing_keeps (ps : List Path) (h : P t) : P (after (makeMissing now ps) t) := by
  induction ps generalizing t with
  | nil => exact h
  | cons p ps ih =>
    rcases makeMissing_cons now p ps t with ⟨-, hrun⟩ | ⟨e, hrun⟩ | ⟨hnone, hrun⟩
    · rw [after, hrun]
      exact ih h
    · rwa [after_error hrun]
    · rw [after, hrun]
      exact ih (hmade hnone h)

lemma makeWay_keeps (p : Path) (h : P t) : P (after (makeWay now p) t) := by
  rw [makeWay]
  cases p.parent? with
  | none => exact h
  | some q => exact makeMissing_keeps hmade q.way h

lemma mount_keeps {p : Path} {d : Device}
    (hput : ∀ {u : FileTree}, P u → P (u.withNode p (.device d))) (h : P t) :
    P (after (mount now p d) t) := by
  have hway := makeWay_keeps hmade p h
  cases hrun : makeWay now p t with
  | ok _ u =>
    rw [after_ok hrun] at hway
    rw [after_mount_ok hrun]
    exact hput hway
  | error e u =>
    rw [after_error hrun] at hway
    rwa [after_mount_error hrun]

lemma loadFile_keeps {f : SavedFile}
    (hput : ∀ {u : FileTree}, P u → P (u.withNode (ofText f.path) (.file f.bytes f.timestamp)))
    (h : P t) : P (after (loadFile now f) t) := by
  have hway := makeWay_keeps hmade (ofText f.path) h
  rcases loadFile_cases now f t with ⟨e, u, hu, hrun⟩ | ⟨u, hu, ⟨_, _, -, -, hrun⟩ | ⟨-, hrun⟩⟩
  · rwa [after_error hrun, ← after_error hu]
  · rwa [after_error hrun, ← after_ok hu]
  · rw [after_ok hu] at hway
    rw [after_ok hrun]
    exact hput hway

/-- What also each of the files keeps that is put somewhere, loading all of them keeps. -/
lemma load_keeps {files : List SavedFile}
    (hput : ∀ f ∈ files, ∀ {u : FileTree}, P u →
      P (u.withNode (ofText f.path) (.file f.bytes f.timestamp)))
    (h : P t) : P (load now files t) := by
  induction files generalizing t with
  | nil => exact h
  | cons f files ih =>
    obtain ⟨hf, hfiles⟩ := List.forall_mem_cons.1 hput
    exact ih hfiles (loadFile_keeps hmade hf h)

end Keeps

/-! ## Making directories -/

/-- Directories made one inside the other, from one that is there. -/
lemma edits_makeMissing (now : Moment) {r : Path} {ps : List Path}
    (chain : (r :: ps).IsChain fun p q => q.adrift = false ∧ q.parent? = some p)
    (hr : t.IsDirectory r) : Edits t (after (makeMissing now ps) t) := by
  induction ps generalizing r t with
  | nil => exact .refl
  | cons p ps ih =>
    obtain ⟨⟨hp, hparent⟩, chain⟩ := List.isChain_cons_cons.1 chain
    rcases makeMissing_cons now p ps t with ⟨hdir, hrun⟩ | ⟨e, hrun⟩ | ⟨hnone, hrun⟩
    · have := ih chain hdir
      rwa [after, ← hrun] at this
    · rw [after_error hrun]
    · have held : t.IsHeld p := fun q hq => Option.some.inj (hparent.symm.trans hq) ▸ hr
      have made : (t.withNode p (.directory now)).IsDirectory p :=
        ⟨now, by rw [node?_withNode, if_pos rfl]⟩
      have := ih chain made
      rw [after, ← hrun] at this
      exact .head (.added p _ hp hnone held rfl) this

lemma edits_makeDirectories (now : Moment) {p : Path} (hp : p.adrift = false)
    (h : t.WellFormed) : Edits t (after (makeDirectories now p) t) :=
  edits_makeMissing now (isChain_way hp) h.rooted

lemma edits_makeWay (now : Moment) {p : Path} (hp : p.adrift = false) (h : t.WellFormed) :
    Edits t (after (makeWay now p) t) := by
  rw [makeWay]
  cases hparent : p.parent? with
  | none => exact .refl
  | some q => exact edits_makeDirectories now ((parent?_eq_some_iff hp).1 hparent).1 h

/-- Once the way to a place is made, a directory holds the place. -/
lemma isHeld_of_makeWay {now : Moment} {p : Path} (hp : p.adrift = false) (h : t.WellFormed)
    (hway : makeWay now p t = .ok () u) : u.IsHeld p := by
  intro q hq
  have hu : u.WellFormed := by
    have := (edits_makeWay now hp h).wellFormed h
    rwa [after_ok hway] at this
  rw [makeWay, hq] at hway
  rcases List.mem_cons.1 (mem_root_cons_way ((parent?_eq_some_iff hp).1 hq).1) with rfl | hmem
  · exact hu.rooted
  · exact (makeMissing_ok hway).1 q hmem

/-! ## Loading -/

lemma edits_loadFile (now : Moment) (f : SavedFile) (h : t.WellFormed) :
    Edits t (after (loadFile now f) t) := by
  have hp := adrift_ofText f.path
  have hway := edits_makeWay now hp h
  rcases loadFile_cases now f t with ⟨e, u, hu, hrun⟩ | ⟨u, hu, ⟨e, n, -, -, hrun⟩ | ⟨hfree, hrun⟩⟩
  · rwa [after_error hrun, ← after_error hu]
  · rwa [after_error hrun, ← after_ok hu]
  · rw [after_ok hrun]
    rw [after_ok hu] at hway
    refine hway.tail ?_
    cases hn : u.node? (ofText f.path) with
    | none => exact .added _ _ hp hn (isHeld_of_makeWay hp h hu) rfl
    | some n =>
      obtain ⟨data, m, rfl⟩ := hfree n hn
      exact .rewritten _ _ _ _ _ hn rfl

lemma edits_load (now : Moment) (files : List SavedFile) (h : t.WellFormed) :
    Edits t (load now files t) := by
  induction files generalizing t with
  | nil => exact .refl
  | cons f files ih =>
    have := edits_loadFile now f h
    exact this.trans (ih (this.wellFormed h))

/-! ## Every request -/

lemma LeftBy.edits {op : Operation} (hleft : LeftBy now t op u) (h : t.WellFormed) : Edits t u := by
  cases hleft with
  | kept => exact .refl
  | loaded files => exact edits_load now files h
  | wayMade path => exact edits_makeDirectories now (adrift_ofText path) h
  | resized _ file => exact .single (.rewritten _ _ _ _ _ file rfl)
  | found file =>
    split_ifs
    · exact .single (.rewritten _ _ _ _ _ file rfl)
    · exact .single (.kept rfl)
  | created absent held => exact .single (.added _ _ (adrift_ofText _) absent held rfl)
  | closed | read | sought => exact .single (.kept rfl)
  | written _ file => exact .single (.rewritten _ _ _ _ _ file rfl)
  | directoryMade absent held => exact .single (.added _ _ (adrift_ofText _) absent held rfl)
  | fileRemoved file => exact .single (.removed _ (adrift_ofText _) (.inl ⟨_, _, file⟩) rfl)
  | directoryRemoved inner _ vacant =>
    exact .single (.removed _ (adrift_ofText _) (.inr ⟨inner, vacant⟩) rfl)
  | moved can => exact .single (.moved _ _ (adrift_ofText _) (adrift_ofText _) can rfl)

/-- **Whatever is asked of a well-formed tree comes to edits.** -/
theorem edits_apply (now : Moment) (op : Operation) (h : t.WellFormed) :
    Edits t (op.apply now t) :=
  (leftBy_apply now op t).edits h

namespace WellFormed

/-- The tree that begins every run is well formed. -/
lemma fresh (now : Moment) : (fresh now).WellFormed := by
  have hnode : ∀ p n, (FileTree.fresh now).node? p = some n ↔
      p = Path.root ∧ n = .directory now := by
    intro p n
    have := Dict.find?_insert Dict.empty Path.root p (Node.directory now)
    rw [FileTree.fresh, node?, this]
    split_ifs with hp
    · simp [hp, eq_comm]
    · simp [hp]
  refine of_nodes ?_ ⟨now, (hnode _ _).2 ⟨rfl, rfl⟩⟩ ?_
  · intro p n hp
    rw [((hnode p n).1 hp).1, adrift_root]
  · intro p n hp q hq
    rw [((hnode p n).1 hp).1, parent?_root] at hq
    cases hq

lemma run (h : t.WellFormed) (calls : List (Moment × Operation)) : (run calls t).WellFormed := by
  induction calls generalizing t with
  | nil => exact h
  | cons call calls ih => exact ih ((edits_apply call.1 call.2 h).wellFormed h)

end WellFormed

/-- **From a fresh tree, every sequence of requests leads to a well-formed one.** -/
theorem wellFormed_run (now : Moment) (calls : List (Moment × Operation)) :
    (run calls (fresh now)).WellFormed :=
  (WellFormed.fresh now).run calls

end GuestShell.FileTree
