import GuestShell.Proofs.FileTree.Frames
import GuestShell.Proofs.FileTree.Loaded
import Mathlib.Logic.Function.Basic

/-!
# Which file a handle is opened on

Nothing in a tree tells a file from one that takes its place later: there are only places.  Here each
file gets a number when it comes to be, and beside the tree it is written down which file is where and
which file each handle was opened on (`Tracked`).  A rename carries the files along.

A handle keeps a place and not a file.  That it stays with its file while the file is there
(`Sound.follows`) is an invariant of every request: renames take files and handles to the same places,
and a file that comes to be is none that a handle was opened on before.  Once the file is gone, the
handle stays with the place, and whatever comes to be there is what it acts on
(`stale_handle_finds_another`).

A device that is mounted on a directory buries what is in it.  Below it files lie in no directory, and
renames can then take them and their handles apart, so these mounts are left out (`Deed.Buries`).
-/

namespace GuestShell.FileTree

open GuestShell.Path Function

variable {α : Type} {t u : FileTree} {now born : Moment} {handle k i : Nat} {f : OpenFile}
  {p q : Path}

/-! ## Files by number -/

/-- What can be asked of a tree, and the mounting of devices. -/
inductive Deed where
  | operation (op : Operation)
  | mount (path : String) (device : Device)

/-- The tree afterwards. -/
def Deed.apply (now : Moment) : Deed → FileTree → FileTree
  | .operation op => op.apply now
  | .mount path device => after (FileTree.mount now (ofText path) device)

/-- A tree, and beside it which files it has. -/
structure Tracked where
  tree : FileTree
  /-- The file at a place. -/
  file : Path → Option Nat
  /-- How many files there have been. -/
  count : Nat
  /-- The file that a handle was opened on. -/
  opening : Nat → Option Nat

namespace Tracked

/-- A fresh tree has no file. -/
def fresh (now : Moment) : Tracked := ⟨FileTree.fresh now, fun _ => none, 0, fun _ => none⟩

/-- A file comes to be at a place, instead of any that was there. -/
def put (s : Tracked) (p : Path) : Tracked :=
  { s with file := update s.file p (some s.count), count := s.count + 1 }

/-- There is no file at a place any more. -/
def lose (s : Tracked) (p : Path) : Tracked := { s with file := update s.file p none }

/-- Files move along with their places. -/
def carry (s : Tracked) (source target : Path) : Tracked :=
  { s with file := fun q =>
      if covers target q then s.file (moved target source q)
      else if covers source q then none else s.file q }

/-- A handle is opened on the file at a place. -/
def assign (s : Tracked) (handle : Nat) (p : Path) : Tracked :=
  { s with opening := update s.opening handle (s.file p) }

/-- A handle is closed. -/
def release (s : Tracked) (handle : Nat) : Tracked :=
  { s with opening := update s.opening handle none }

/-- What an action does to the tree, and, if it goes through, to what is beside it. -/
def attempt (s : Tracked) (a : Action α) (beside : α → Tracked → Tracked) : Tracked :=
  match a s.tree with
  | .ok v u => { beside v s with tree := u }
  | .error _ u => { s with tree := u }

/-- A saved file that is loaded is a file that comes to be. -/
def loadFile (now : Moment) (s : Tracked) (f : SavedFile) : Tracked :=
  s.attempt (FileTree.loadFile now f) fun _ s => s.put (ofText f.path)

/-- One request. -/
def step (now : Moment) (s : Tracked) : Deed → Tracked
  | .operation (.load files) => files.foldl (loadFile now) s
  | .operation (.openPath path mode) =>
    s.attempt (FileTree.openPath now (ofText path) mode) fun handle s =>
      (if s.tree.hasPlace (ofText path) then s else s.put (ofText path)).assign handle (ofText path)
  | .operation (.close handle) => s.attempt (FileTree.close handle) fun _ s => s.release handle
  | .operation (.removeFile path) =>
    s.attempt (FileTree.removeFile (ofText path)) fun _ s => s.lose (ofText path)
  | .operation (.rename source target) =>
    s.attempt (FileTree.rename (ofText source) (ofText target)) fun _ s =>
      if ofText source = ofText target then s else s.carry (ofText source) (ofText target)
  | .operation op => { s with tree := op.apply now s.tree }
  | .mount path device =>
    s.attempt (FileTree.mount now (ofText path) device) fun _ s => s.lose (ofText path)

lemma attempt_ok {s : Tracked} {a : Action α} {v : α} (h : a s.tree = .ok v u)
    (beside : α → Tracked → Tracked) : s.attempt a beside = { beside v s with tree := u } := by
  rw [attempt, h]

lemma attempt_error {s : Tracked} {a : Action α} {e : FileError} (h : a s.tree = .error e u)
    (beside : α → Tracked → Tracked) : s.attempt a beside = { s with tree := u } := by
  rw [attempt, h]

lemma tree_attempt (s : Tracked) (a : Action α) (beside : α → Tracked → Tracked) :
    (s.attempt a beside).tree = after a s.tree := by
  rw [attempt, after]
  cases a s.tree <;> rfl

lemma tree_foldl_loadFile (files : List SavedFile) (s : Tracked) :
    (files.foldl (loadFile now) s).tree = load now files s.tree := by
  induction files generalizing s with
  | nil => rfl
  | cons f files ih =>
    rw [List.foldl_cons, ih, loadFile, tree_attempt]
    rfl

/-- What is written down beside the tree has no part in what becomes of it. -/
theorem tree_step (now : Moment) (s : Tracked) (deed : Deed) :
    (s.step now deed).tree = deed.apply now s.tree := by
  cases deed with
  | mount path device => exact tree_attempt _ _ _
  | operation op =>
    cases op with
    | load files => exact tree_foldl_loadFile files s
    | openPath path mode => exact tree_attempt _ _ _
    | close handle => exact tree_attempt _ _ _
    | removeFile path => exact tree_attempt _ _ _
    | rename source target => exact tree_attempt _ _ _
    | _ => rfl

end Tracked

/-! ## Requests that leave files where they are -/

/-- Whether a request can make, take away or move files. -/
def Operation.turnsFiles : Operation → Bool
  | .load _ | .openPath .. | .removeFile _ | .rename .. => true
  | _ => false

lemma isSome_file?_of_node?_eq (h : u.node? p = t.node? p) :
    (u.file? p).isSome = (t.file? p).isSome := by
  rw [file?, file?, h]

lemma isSome_file?_withFile (t : FileTree) (p : Path) (data : Bytes) (m : Moment) (q : Path) :
    ((t.withNode p (.file data m)).file? q).isSome =
      if q = p then true else (t.file? q).isSome := by
  rw [file?, node?_withNode]
  split_ifs <;> rfl

/-- A file whose contents are changed is still there. -/
lemma isSome_file?_rewritten {data data' : Bytes} {m m' : Moment}
    (hn : t.node? p = some (.file data m)) (q : Path) :
    ((t.withNode p (.file data' m')).file? q).isSome = (t.file? q).isSome := by
  rw [file?_withFile]
  split_ifs with hpq
  · rw [← hpq, file?_eq_some_iff.2 hn]
    rfl
  · rfl

lemma LeftBy.isSome_file? {op : Operation} (h : LeftBy now t op u) (hop : op.turnsFiles = false)
    (p : Path) : (u.file? p).isSome = (t.file? p).isSome := by
  cases h with
  | loaded | found | created | fileRemoved | moved => cases hop
  | kept | closed | read | sought => exact isSome_file?_of_node?_eq rfl
  | wayMade path => exact congrArg Option.isSome (file?_makeMissing _ p)
  | resized _ file => exact isSome_file?_rewritten file p
  | written _ file => exact (isSome_file?_of_node?_eq rfl).trans (isSome_file?_rewritten file p)
  | directoryMade absent => rw [file?_withDirectory absent]
  | directoryRemoved _ directory =>
    obtain ⟨m, hdir⟩ := directory
    rw [file?, node?_withoutNode]
    split_ifs with hp
    · rw [hp, file?, hdir]
    · rfl

/-- What takes no file away and puts none anywhere leaves files where they are. -/
lemma isSome_file?_apply (now : Moment) {op : Operation} (hop : op.turnsFiles = false)
    (t : FileTree) (p : Path) : ((op.apply now t).file? p).isSome = (t.file? p).isSome :=
  (leftBy_apply now op t).isSome_file? hop p

/-! ## The invariant -/

namespace Tracked

/-- What is written down beside the tree is right, and a handle stays with its file. -/
structure Sound (s : Tracked) : Prop where
  wellFormed : s.tree.WellFormed
  numbers : s.tree.opened.Sound
  anchored : ∀ k f, s.tree.opened.get? k = some f → f.path.adrift = false
  files : ∀ p, (s.file p).isSome = (s.tree.file? p).isSome
  unique : ∀ p q i, s.file p = some i → s.file q = some i → p = q
  old : ∀ p i, s.file p = some i → i < s.count
  opened : ∀ k, (s.opening k).isSome = (s.tree.opened.get? k).isSome
  earlier : ∀ k i, s.opening k = some i → i < s.count
  /-- While the file that a handle was opened on is there, the handle has its place. -/
  follows : ∀ k i f p, s.opening k = some i → s.tree.opened.get? k = some f → s.file p = some i →
    f.path = p

/-- Open files are at the same places in both trees. -/
def SamePlaces (t u : FileTree) : Prop :=
  ∀ k, (u.opened.get? k).map OpenFile.path = (t.opened.get? k).map OpenFile.path

lemma SamePlaces.of_opened_eq (h : u.opened = t.opened) : SamePlaces t u := fun _ => by rw [h]

namespace SamePlaces

variable (h : SamePlaces t u)

include h

lemma exists_path (hf : u.opened.get? k = some f) :
    ∃ g, t.opened.get? k = some g ∧ g.path = f.path := by
  have hk := h k
  rw [hf, Option.map_some] at hk
  exact Option.map_eq_some_iff.1 hk.symm

lemma isSome (k : Nat) : (u.opened.get? k).isSome = (t.opened.get? k).isSome := by
  rw [← Option.isSome_map, h k, Option.isSome_map]

end SamePlaces

namespace Sound

lemma fresh (now : Moment) : (Tracked.fresh now).Sound where
  wellFormed := .fresh now
  numbers := Slots.sound_empty
  anchored k f hf := by simp [Tracked.fresh, FileTree.fresh] at hf
  files p := by
    show (none : Option Nat).isSome = ((FileTree.fresh now).file? p).isSome
    rw [file?_fresh]
    rfl
  unique p q i hp := by cases hp
  old p i hp := by cases hp
  opened k := by simp [Tracked.fresh, FileTree.fresh]
  earlier k i hk := by cases hk
  follows k i f p hk := by cases hk

variable {s : Tracked} (h : s.Sound)

include h

/-- Handles stay at their places, and no file that was there before is at another place now. -/
lemma stays {s' : Tracked} (hu : s'.tree.WellFormed) (hnumbers : s'.tree.opened.Sound)
    (hplaces : SamePlaces s.tree s'.tree) (hopening : s'.opening = s.opening)
    (hcount : s.count ≤ s'.count) (hfiles : ∀ p, (s'.file p).isSome = (s'.tree.file? p).isSome)
    (hunique : ∀ p q i, s'.file p = some i → s'.file q = some i → p = q)
    (hold : ∀ p i, s'.file p = some i → i < s'.count)
    (hkept : ∀ p i, i < s.count → s'.file p = some i → s.file p = some i) : s'.Sound where
  wellFormed := hu
  numbers := hnumbers
  anchored k f hf := by
    obtain ⟨g, hg, hpath⟩ := hplaces.exists_path hf
    exact hpath ▸ h.anchored k g hg
  files := hfiles
  unique := hunique
  old := hold
  opened k := by rw [hopening, h.opened k, hplaces.isSome k]
  earlier k i hk := (h.earlier k i (hopening ▸ hk)).trans_le hcount
  follows k i f p hk hf hp := by
    obtain ⟨g, hg, hpath⟩ := hplaces.exists_path hf
    have hk := hopening ▸ hk
    exact hpath.symm.trans (h.follows k i g p hk hg (hkept p i (h.earlier k i hk) hp))

/-- Nothing happened to files or to the places of handles. -/
lemma kept (hu : u.WellFormed) (hnumbers : u.opened.Sound)
    (hfiles : ∀ p, (u.file? p).isSome = (s.tree.file? p).isSome) (hplaces : SamePlaces s.tree u) :
    Sound { s with tree := u } :=
  h.stays hu hnumbers hplaces rfl le_rfl (fun p => (h.files p).trans (hfiles p).symm) h.unique h.old
    fun _ _ _ hp => hp

/-- A file came to be. -/
lemma put (hu : u.WellFormed) (hnumbers : u.opened.Sound)
    (hfiles : ∀ q, (u.file? q).isSome = if q = p then true else (s.tree.file? q).isSome)
    (hplaces : SamePlaces s.tree u) : Sound { s.put p with tree := u } := by
  have hnew : ∀ q i, (s.put p).file q = some i → s.file q = some i ∨ i = s.count ∧ q = p := by
    intro q i hq
    simp only [Tracked.put, update_apply] at hq
    split_ifs at hq with hqp
    · exact .inr ⟨(Option.some.inj hq).symm, hqp⟩
    · exact .inl hq
  have hkept : ∀ q i, i < s.count → (s.put p).file q = some i → s.file q = some i :=
    fun q i hi hq => (hnew q i hq).resolve_right fun hp => Nat.ne_of_lt hi hp.1
  refine h.stays hu hnumbers hplaces rfl (Nat.le_succ _) (fun q => ?_) (fun q r i hq hr => ?_)
    (fun q i hq => ?_) hkept
  · rw [hfiles q]
    simp only [Tracked.put, update_apply]
    split_ifs
    · rfl
    · exact h.files q
  · rcases hnew q i hq with hi | ⟨rfl, rfl⟩
    · exact h.unique q r i hi (hkept r i (h.old q i hi) hr)
    · exact ((hnew r _ hr).resolve_left fun hi => Nat.lt_irrefl _ (h.old r _ hi)).2.symm
  · rcases hnew q i hq with hi | ⟨rfl, -⟩
    · exact Nat.lt_succ_of_lt (h.old q i hi)
    · exact Nat.lt_succ_self _

/-- A file is no more. -/
lemma lose (hu : u.WellFormed) (hnumbers : u.opened.Sound)
    (hfiles : ∀ q, (u.file? q).isSome = if q = p then false else (s.tree.file? q).isSome)
    (hplaces : SamePlaces s.tree u) : Sound { s.lose p with tree := u } := by
  have hkept : ∀ q i, (s.lose p).file q = some i → s.file q = some i := by
    intro q i hq
    simp only [Tracked.lose, update_apply] at hq
    split_ifs at hq
    exact hq
  refine h.stays hu hnumbers hplaces rfl le_rfl (fun q => ?_)
    (fun q r i hq hr => h.unique q r i (hkept q i hq) (hkept r i hr))
    (fun q i hq => h.old q i (hkept q i hq)) fun q i _ hq => hkept q i hq
  rw [hfiles q]
  simp only [Tracked.lose, update_apply]
  split_ifs
  · rfl
  · exact h.files q

/-- A handle was opened on a file. -/
lemma assign {f : OpenFile} (hp : p.adrift = false) (hf : f.path = p) (hi : s.file p = some i) :
    Sound { s.assign s.tree.opened.next p with
      tree := { s.tree with opened := s.tree.opened.insert f } } := by
  have hget : ∀ k, (s.tree.opened.insert f).get? k =
      if k = s.tree.opened.next then some f else s.tree.opened.get? k :=
    fun k => h.numbers.get?_insert
  constructor
  case wellFormed => exact h.wellFormed.of_nodes_eq rfl
  case numbers => exact h.numbers.insert
  case anchored =>
    intro k g hg
    rw [hget] at hg
    split_ifs at hg
    · obtain rfl := Option.some.inj hg
      exact hf ▸ hp
    · exact h.anchored k g hg
  case files => exact h.files
  case unique => exact h.unique
  case old => exact h.old
  case opened =>
    intro k
    simp only [Tracked.assign, update_apply, hget]
    split_ifs
    · rw [hi]
      rfl
    · exact h.opened k
  case earlier =>
    intro k j hk
    simp only [Tracked.assign, update_apply] at hk
    split_ifs at hk
    · exact h.old p j hk
    · exact h.earlier k j hk
  case follows =>
    intro k j g q hk hg hq
    simp only [Tracked.assign, update_apply] at hk
    rw [hget] at hg
    split_ifs at hk hg
    · obtain rfl := Option.some.inj hg
      exact hf.trans (h.unique p q j hk hq)
    · exact h.follows k j g q hk hg hq

/-- A handle was closed. -/
lemma release (k : Nat) : Sound { s.release k with
    tree := { s.tree with opened := s.tree.opened.remove k } } := by
  have hget : ∀ l, (s.tree.opened.remove k).get? l =
      if l = k then none else s.tree.opened.get? l := fun l => Slots.get?_remove
  constructor
  case wellFormed => exact h.wellFormed.of_nodes_eq rfl
  case numbers => exact h.numbers.remove
  case anchored =>
    intro l g hg
    rw [hget] at hg
    split_ifs at hg
    exact h.anchored l g hg
  case files => exact h.files
  case unique => exact h.unique
  case old => exact h.old
  case opened =>
    intro l
    simp only [Tracked.release, update_apply, hget]
    split_ifs
    · rfl
    · exact h.opened l
  case earlier =>
    intro l j hl
    simp only [Tracked.release, update_apply] at hl
    split_ifs at hl
    exact h.earlier l j hl
  case follows =>
    intro l j g q hl hg hq
    simp only [Tracked.release, update_apply] at hl
    rw [hget] at hg
    split_ifs at hl hg
    exact h.follows l j g q hl hg hq

/-- Files and handles went to the same places. -/
lemma carry {source target : Path} (hmv : s.tree.Transplantable source target)
    (hu : (s.tree.transplanted source target).WellFormed) :
    Sound { s.carry source target with tree := s.tree.transplanted source target } := by
  have hs := hmv.source_anchored
  have ht := hmv.target_anchored
  have hsroot := hmv.source_ne_root
  have htroot := hmv.target_ne_root
  -- a file that is at the target came from the source, any other is where it was
  have hfile : ∀ q j, (s.carry source target).file q = some j →
      (covers target q = true ∧ s.file (moved target source q) = some j) ∨
        (¬covers target q = true ∧ ¬covers source q = true ∧ s.file q = some j) := by
    intro q j hq
    simp only [Tracked.carry] at hq
    split_ifs at hq with htq hsq
    · exact .inl ⟨htq, hq⟩
    · exact .inr ⟨htq, hsq, hq⟩
  have hback : ∀ q, covers target q = true → moved source target (moved target source q) = q :=
    fun q htq => moved_moved ht htroot (adrift_of_covers ht htroot htq) htq
  have hget : ∀ k g, (s.tree.transplanted source target).opened.get? k = some g →
      ∃ f, s.tree.opened.get? k = some f ∧
        g.path = if covers source f.path then moved source target f.path else f.path := by
    intro k g hg
    rw [transplanted, Slots.get?_map] at hg
    obtain ⟨f, hf, rfl⟩ := Option.map_eq_some_iff.1 hg
    refine ⟨f, hf, ?_⟩
    split_ifs <;> rfl
  constructor
  case wellFormed => exact hu
  case numbers => exact h.numbers.map
  case anchored =>
    intro k g hg
    obtain ⟨f, hf, hpath⟩ := hget k g hg
    rw [hpath]
    split_ifs
    · exact adrift_moved ht htroot
    · exact h.anchored k f hf
  case files =>
    intro q
    simp only [Tracked.carry, file?, hmv.node?_transplanted]
    split_ifs
    · exact h.files _
    · rfl
    · exact h.files q
  case unique =>
    intro q r j hq hr
    rcases hfile q j hq with ⟨htq, hq⟩ | ⟨htq, hsq, hq⟩ <;>
      rcases hfile r j hr with ⟨htr, hr⟩ | ⟨htr, hsr, hr⟩
    · rw [← hback q htq, ← hback r htr, h.unique _ _ j hq hr]
    · exact absurd (h.unique _ _ j hq hr ▸ covers_moved hs hsroot) hsr
    · exact absurd (h.unique _ _ j hr hq ▸ covers_moved hs hsroot) hsq
    · exact h.unique q r j hq hr
  case old =>
    intro q j hq
    rcases hfile q j hq with ⟨-, hq⟩ | ⟨-, -, hq⟩ <;> exact h.old _ j hq
  case opened =>
    intro k
    rw [transplanted, Slots.get?_map, Option.isSome_map]
    exact h.opened k
  case earlier => exact h.earlier
  case follows =>
    intro k j g q hk hg hq
    obtain ⟨f, hf, hpath⟩ := hget k g hg
    rcases hfile q j hq with ⟨htq, hq⟩ | ⟨-, hsq, hq⟩
    · have hplace := h.follows k j f _ hk hf hq
      rw [hpath, hplace, if_pos (covers_moved hs hsroot), hback q htq]
    · have hplace := h.follows k j f q hk hf hq
      rw [hpath, hplace, if_neg hsq]

end Sound

end Tracked

/-! ## Every request -/

/-- A device is mounted on the root or on a directory in which something is. -/
def Deed.Buries (t : FileTree) : Deed → Prop
  | .operation _ => False
  | .mount path _ => ofText path = root ∨ t.hasBelow (ofText path) = true

/-- The file at a place is removed, or another comes there. -/
def Deed.Ends (p : Path) : Deed → Prop
  | .operation (.load files) => ∃ f ∈ files, ofText f.path = p
  | .operation (.removeFile path) => ofText path = p
  | .operation (.rename source target) => ofText source ≠ ofText target ∧ ofText target = p
  | .mount path _ => ofText path = p
  | _ => False

lemma mount_ok {d : Device} (h : makeWay now p t = .ok () u) :
    mount now p d t = .ok () (u.withNode p (.device d)) := by
  rw [mount_eq]
  exact bind_ok h

lemma mount_error {d : Device} {e : FileError} (h : makeWay now p t = .error e u) :
    mount now p d t = .error e u := by
  rw [mount_eq]
  exact bind_error h

/-- Making the way to a place puts nothing below it. -/
lemma hasBelow_of_makeWay (hp : p.adrift = false) (h : t.WellFormed)
    (hrun : makeWay now p t = .ok () u) (hbelow : t.hasBelow p = false) :
    u.hasBelow p = false := by
  have hu : u.WellFormed := by
    have := (edits_makeWay now hp h).wellFormed h
    rwa [after_ok hrun] at this
  refine hasBelow_eq_false_iff.2 fun q n hq habove => ?_
  rcases node?_of_makeWay hp hrun hq with hold | ⟨-, hqp⟩
  · exact hasBelow_eq_false_iff.1 hbelow q n hold habove
  · have hqa := hu.anchored hq
    have hpq := ((isAbove_iff hp hqa).1 habove).1.length_le
    obtain ⟨hpre, hne⟩ := (isAbove_iff hqa hp).1 hqp
    exact hne (ext_parts hqa hp (hpre.eq_of_length (Nat.le_antisymm hpre.length_le hpq)))

namespace Tracked

namespace Sound

variable {s : Tracked} (h : s.Sound)

include h

/-- Making the way to a place leaves files and handles alone, also if it stops on the way. -/
lemma wayMade (now : Moment) (hp : p.adrift = false) :
    Sound { s with tree := after (makeWay now p) s.tree } := by
  have hopened : (after (makeWay now p) s.tree).opened = s.tree.opened := opened_makeWay p
  exact h.kept ((edits_makeWay now hp h.wellFormed).wellFormed h.wellFormed)
    (hopened ▸ h.numbers) (fun q => by rw [file?_makeWay]) (.of_opened_eq hopened)

lemma loadFile (f : SavedFile) : (s.loadFile now f).Sound := by
  have hp := adrift_ofText f.path
  have hway := h.wayMade now hp
  rcases loadFile_cases now f s.tree with ⟨e, u, hu, hrun⟩ | ⟨u, hu, ⟨e, n, -, -, hrun⟩ | ⟨-, hrun⟩⟩
  · rw [Tracked.loadFile, attempt_error hrun]
    rwa [after_error hu] at hway
  · rw [Tracked.loadFile, attempt_error hrun]
    rwa [after_ok hu] at hway
  · have hloaded := (edits_loadFile now f h.wellFormed).wellFormed h.wellFormed
    rw [after_ok hrun] at hloaded
    rw [after_ok hu] at hway
    rw [Tracked.loadFile, attempt_ok hrun]
    exact hway.put hloaded hway.numbers (isSome_file?_withFile _ _ _ _) (.of_opened_eq rfl)

lemma foldl_loadFile (files : List SavedFile) : (files.foldl (Tracked.loadFile now) s).Sound := by
  induction files generalizing s with
  | nil => exact h
  | cons f files ih => exact ih (h.loadFile f)

lemma node?_of_file (hp : s.file p = some i) :
    ∃ data m, s.tree.node? p = some (.file data m) := by
  have hsome : (s.tree.file? p).isSome = true := by rw [← h.files p, hp, Option.isSome_some]
  obtain ⟨⟨data, m⟩, hfile⟩ := Option.isSome_iff_exists.1 hsome
  exact ⟨data, m, file?_eq_some_iff.1 hfile⟩

lemma exists_file {data : Bytes} {m : Moment} (hn : s.tree.node? p = some (.file data m)) :
    ∃ i, s.file p = some i := by
  rw [← Option.isSome_iff_exists, h.files p, file?_eq_some_iff.2 hn]
  rfl

lemma openPath (path : String) (mode : OpenMode) :
    (s.step now (.operation (.openPath path mode))).Sound := by
  have hp := adrift_ofText path
  rw [step]
  rcases openPath_cases now (ofText path) mode s.tree with ⟨e, hrun⟩ | ⟨data, m, hn, hrun⟩ |
    ⟨hnone, held, -, hrun⟩
  · rw [attempt_error hrun]
    exact h
  · have hplace : s.tree.hasPlace (ofText path) = true := hasPlace_iff.2 ⟨_, hn⟩
    obtain ⟨i, hi⟩ := h.exists_file hn
    rw [attempt_ok hrun, if_pos hplace]
    cases mode.truncate with
    | false => exact h.assign hp rfl hi
    | true =>
      have hemptied : (s.tree.withNode (ofText path) (.file [] now)).WellFormed :=
        (Edit.rewritten _ _ _ _ _ hn rfl).wellFormed h.wellFormed
      exact (h.kept hemptied h.numbers (isSome_file?_rewritten hn) (.of_opened_eq rfl)).assign hp
        rfl hi
  · have hplace : ¬s.tree.hasPlace (ofText path) = true := by simp [hasPlace, hnone]
    have hmade : (s.tree.withNode (ofText path) (.file [] now)).WellFormed :=
      (Edit.added _ _ hp hnone held rfl).wellFormed h.wellFormed
    rw [attempt_ok hrun, if_neg hplace]
    exact (h.put hmade h.numbers (isSome_file?_withFile _ _ _ _) (.of_opened_eq rfl)).assign hp rfl
      (update_self ..)

lemma mount {path : String} {d : Device}
    (hburies : ¬Deed.Buries s.tree (.mount path d)) : (s.step now (.mount path d)).Sound := by
  have hp := adrift_ofText path
  have hway := h.wayMade now hp
  simp only [Deed.Buries, not_or, Bool.not_eq_true] at hburies
  rw [step]
  cases hrun : makeWay now (ofText path) s.tree with
  | error e u =>
    rw [attempt_error (mount_error hrun)]
    rwa [after_error hrun] at hway
  | ok v u =>
    rw [after_ok hrun] at hway
    rw [attempt_ok (mount_ok hrun)]
    have hbelow := hasBelow_of_makeWay hp h.wellFormed hrun hburies.2
    refine hway.lose (hway.wellFormed.replaced hp hburies.1 hbelow
      (isHeld_of_makeWay hp h.wellFormed hrun)) hway.numbers (fun q => ?_) (.of_opened_eq rfl)
    rw [file?, node?_withNode]
    split_ifs <;> rfl

/-- What neither turns files nor handles changes nothing beside the tree. -/
lemma other {op : Operation} (hfiles : op.turnsFiles = false) (hhandles : op.turnsHandles = false) :
    Sound { s with tree := op.apply now s.tree } := by
  have hopened := openedBy_apply now op s.tree
  refine h.kept ((edits_apply now op h.wellFormed).wellFormed h.wellFormed)
    (hopened.sound h.numbers) (isSome_file?_apply now hfiles s.tree)
    (hopened.path_eq hhandles ?_)
  rintro source target rfl
  cases hfiles

/-- **Every request keeps it**, unless it buries something. -/
theorem step (now : Moment) {deed : Deed} (hdeed : ¬deed.Buries s.tree) :
    (s.step now deed).Sound := by
  cases deed with
  | mount path device => exact h.mount hdeed
  | operation op =>
    cases op with
    | load files => exact h.foldl_loadFile files
    | openPath path mode => exact h.openPath path mode
    | close handle =>
      rw [Tracked.step]
      rcases close_cases handle s.tree with hrun | hrun
      · rw [attempt_error hrun]
        exact h
      · rw [attempt_ok hrun]
        exact h.release handle
    | removeFile path =>
      have hremoved := (edits_apply now (.removeFile path) h.wellFormed).wellFormed h.wellFormed
      rw [Operation.apply] at hremoved
      rw [Tracked.step]
      rcases removeFile_cases (ofText path) s.tree with ⟨e, hrun⟩ | ⟨data, m, hn, hrun⟩
      · rw [attempt_error hrun]
        exact h
      · rw [after_ok hrun] at hremoved
        rw [attempt_ok hrun]
        refine h.lose hremoved h.numbers (fun q => ?_) (.of_opened_eq rfl)
        rw [file?, node?_withoutNode]
        split_ifs <;> rfl
    | rename source target =>
      rw [Tracked.step]
      rcases rename_cases (ofText source) (ofText target) s.tree with
        ⟨e, hrun⟩ | ⟨heq, hrun⟩ | ⟨can, hrun⟩
      · rw [attempt_error hrun]
        exact h
      · rw [attempt_ok hrun, if_pos heq]
        exact h
      · have hs := adrift_ofText source
        have ht := adrift_ofText target
        rw [attempt_ok hrun, if_neg can.apart]
        exact h.carry (h.wellFormed.connected.transplantable hs ht can)
          (h.wellFormed.transplanted hs ht can)
    | makeDirectories path => exact h.other rfl rfl
    | setLength handle size => exact h.other rfl rfl
    | read handle len => exact h.other rfl rfl
    | write handle chunk => exact h.other rfl rfl
    | seek handle origin => exact h.other rfl rfl
    | makeDirectory path => exact h.other rfl rfl
    | removeDirectory path => exact h.other rfl rfl

end Sound

end Tracked

end GuestShell.FileTree
