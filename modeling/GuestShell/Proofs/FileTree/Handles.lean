import GuestShell.Proofs.FileTree.Operations
import GuestShell.Proofs.Slots.Numbers

/-!
# Handles, and what a failure leaves behind

An operation that fails leaves the tree as it was (`Atomic`).  The exceptions are those that make the
way to a place first.

`OpenedBy` says once what each request can do to the table of open files.  Opening and closing decide
which handles are open, and nothing else does (`sameHandles_apply`).  So a handle stays open while a
file is used, and the tree never says of it that it is no handle (`Access.run_ne_badHandle`).
-/

namespace GuestShell.FileTree

variable {α β : Type} {t u v : FileTree} {now : Moment} {handle : Nat}

/-! ## Failures -/

/-- If the action fails, it leaves the tree as it was. -/
def Atomic (a : Action α) : Prop := ∀ t e u, a t = .error e u → u = t

lemma atomic_of_cases {a : Action α}
    (h : ∀ t, (∃ e, a t = .error e t) ∨ ∃ v u, a t = .ok v u) : Atomic a := by
  intro t e u herror
  rcases h t with ⟨e', hrun⟩ | ⟨v, u', hrun⟩
  · rw [hrun] at herror
    cases herror
    rfl
  · rw [hrun] at herror
    cases herror

lemma atomic_openPath (p : Path) (mode : OpenMode) : Atomic (openPath now p mode) := by
  refine atomic_of_cases fun t => ?_
  rcases openPath_cases now p mode t with h | ⟨_, _, -, h⟩ | ⟨-, -, -, h⟩
  · exact .inl h
  · exact .inr ⟨_, _, h⟩
  · exact .inr ⟨_, _, h⟩

lemma atomic_read (handle len : Nat) : Atomic (read handle len) :=
  atomic_of_cases fun t => (read_cases handle len t).imp_right fun ⟨_, _, _, _, _, h⟩ => ⟨_, _, h⟩

lemma atomic_write (handle : Nat) (chunk : Bytes) : Atomic (write now handle chunk) :=
  atomic_of_cases fun t =>
    (write_cases now handle chunk t).imp_right fun ⟨_, _, _, _, _, _, _, _, h⟩ => ⟨_, _, h⟩

lemma atomic_seek (handle : Nat) (origin : Origin) : Atomic (seek handle origin) :=
  atomic_of_cases fun t =>
    (seek_cases handle origin t).imp_right fun ⟨_, _, _, _, _, _, _, h⟩ => ⟨_, _, h⟩

lemma atomic_setLength (handle size : Nat) : Atomic (setLength now handle size) :=
  atomic_of_cases fun t =>
    (setLength_cases now handle size t).imp_right fun ⟨_, _, _, _, _, _, h⟩ => ⟨_, _, h⟩

lemma atomic_makeDirectory (p : Path) : Atomic (makeDirectory now p) :=
  atomic_of_cases fun t => (makeDirectory_cases now p t).imp_right fun ⟨_, _, h⟩ => ⟨_, _, h⟩

lemma atomic_removeFile (p : Path) : Atomic (removeFile p) :=
  atomic_of_cases fun t => (removeFile_cases p t).imp_right fun ⟨_, _, _, h⟩ => ⟨_, _, h⟩

lemma atomic_removeDirectory (p : Path) : Atomic (removeDirectory p) :=
  atomic_of_cases fun t => (removeDirectory_cases p t).imp_right fun ⟨_, _, _, h⟩ => ⟨_, _, h⟩

lemma atomic_rename (source target : Path) : Atomic (rename source target) := by
  refine atomic_of_cases fun t => ?_
  rcases rename_cases source target t with h | ⟨-, h⟩ | ⟨-, h⟩
  · exact .inl h
  · exact .inr ⟨_, _, h⟩
  · exact .inr ⟨_, _, h⟩

/-! ## Looking -/

/-- The action leaves the tree as it was, whether it fails or not. -/
def Looks (a : Action α) : Prop := ∀ t, after a t = t

lemma looks_metadata (p : Path) : Looks (metadata p) := by
  intro t
  rw [after, metadata, get_bind]
  rcases t.node? p with _ | (_ | _ | _) <;> rfl

lemma looks_list (p : Path) : Looks (list p) := by
  intro t
  rw [after, list, get_bind]
  rcases t.node? p with _ | (_ | _ | _) <;> rfl

lemma looks_handleMetadata (handle : Nat) : Looks (handleMetadata handle) := by
  intro t
  rw [handleMetadata]
  rcases openFile_cases handle t with h | ⟨f, -, h⟩
  · have hpath : handlePath handle t = .error .badHandle t := bind_error h
    rw [after_error (bind_error hpath)]
  · have hpath : handlePath handle t = .ok f.path t := bind_ok h
    rw [after, bind_ok hpath]
    exact looks_metadata _ t

/-! ## The same handles -/

/-- The same handles are open in both trees. -/
structure SameHandles (t u : FileTree) : Prop where
  sound : t.opened.Sound → u.opened.Sound
  isSome : ∀ h, (u.opened.get? h).isSome = (t.opened.get? h).isSome

namespace SameHandles

lemma of_opened_eq (h : u.opened = t.opened) : SameHandles t u :=
  ⟨fun hs => h ▸ hs, fun _ => by rw [h]⟩

lemma refl : SameHandles t t := of_opened_eq rfl

lemma trans (h : SameHandles t u) (k : SameHandles u v) : SameHandles t v :=
  ⟨fun hs => k.sound (h.sound hs), fun i => (k.isSome i).trans (h.isSome i)⟩

lemma withPosition {position : Nat} : SameHandles t (t.withPosition handle position) := by
  refine ⟨fun hs => hs.modify, fun h => ?_⟩
  rw [FileTree.withPosition, Slots.get?_modify]
  split_ifs with heq
  · simp [heq]
  · rfl

lemma transplanted {source target : Path} : SameHandles t (t.transplanted source target) := by
  refine ⟨fun hs => hs.map, fun h => ?_⟩
  rw [FileTree.transplanted, Slots.get?_map, Option.isSome_map]

end SameHandles

/-! ## Making directories and loading leave open files alone -/

lemma opened_makeMissing (ps : List Path) : (after (makeMissing now ps) t).opened = t.opened :=
  makeMissing_keeps (P := fun u => u.opened = t.opened) (fun _ h => h) ps rfl

lemma opened_makeWay (p : Path) : (after (makeWay now p) t).opened = t.opened :=
  makeWay_keeps (P := fun u => u.opened = t.opened) (fun _ h => h) p rfl

lemma opened_load (files : List SavedFile) : (load now files t).opened = t.opened :=
  load_keeps (P := fun u => u.opened = t.opened) (fun _ h => h) (fun _ _ _ h => h) rfl

lemma opened_mount (p : Path) (d : Device) : (after (mount now p d) t).opened = t.opened :=
  mount_keeps (P := fun u => u.opened = t.opened) (fun _ h => h) (fun h => h) rfl

/-! ## Opening and closing -/

lemma openPath_ok {p : Path} {mode : OpenMode} {h : Nat} (hrun : openPath now p mode t = .ok h u) :
    h = t.opened.next ∧ ∃ f, u.opened = t.opened.insert f := by
  rcases openPath_cases now p mode t with ⟨e, heq⟩ | ⟨_, _, -, heq⟩ | ⟨-, -, -, heq⟩
  · rw [heq] at hrun
    cases hrun
  · rw [heq] at hrun
    cases hrun
    refine ⟨rfl, ⟨p, 0, mode.read, mode.write || mode.append, mode.append⟩, ?_⟩
    split_ifs <;> rfl
  · rw [heq] at hrun
    cases hrun
    exact ⟨rfl, _, rfl⟩

lemma openFile_ok {f : OpenFile} (hopen : t.opened.get? handle = some f) :
    openFile handle t = .ok f t := by
  rw [openFile, get_bind, hopen]
  rfl

lemma close_ok {f : OpenFile} (hopen : t.opened.get? handle = some f) :
    close handle t = .ok () { t with opened := t.opened.remove handle } :=
  bind_ok (openFile_ok hopen)

lemma fileAt_ok {p : Path} {data : Bytes} {m : Moment} (hn : t.node? p = some (.file data m)) :
    fileAt p t = .ok (data, m) t := by
  rw [fileAt, get_bind, hn]
  rfl

/-- From an open file that can be read and is still there, what follows the position is read. -/
lemma read_ok {f : OpenFile} {data : Bytes} {m : Moment} (hopen : t.opened.get? handle = some f)
    (hreadable : f.readable = true) (hn : t.node? f.path = some (.file data m)) (len : Nat) :
    read handle len t = .ok ((data.drop f.position).take len)
      (t.withPosition handle (f.position + ((data.drop f.position).take len).length)) := by
  rw [read, bind_ok (openFile_ok hopen)]
  simp only [hreadable, Bool.not_true, Bool.false_eq_true, if_false]
  exact bind_ok (fileAt_ok hn)

lemma get?_withPosition {f : OpenFile} (hopen : t.opened.get? handle = some f) (position : Nat) :
    (t.withPosition handle position).opened.get? handle = some { f with position := position } := by
  rw [withPosition, Slots.get?_modify, if_pos rfl, hopen]
  rfl

lemma withPosition_withPosition (t : FileTree) (handle p q : Nat) :
    (t.withPosition handle p).withPosition handle q = t.withPosition handle q := by
  rw [withPosition, withPosition, withPosition, Slots.modify_modify]
  rfl

lemma withPosition_self {f : OpenFile} (hopen : t.opened.get? handle = some f) :
    t.withPosition handle f.position = t := by
  rw [withPosition, Slots.modify_eq_self hopen rfl]

/-- Asking where a file stands leaves it there. -/
lemma seek_current {handle p : Nat} {t t' : FileTree} {f : OpenFile}
    (hf : t.opened.get? handle = some f) (hposition : f.position < UInt64.size)
    (h : seek handle (.current 0) t = .ok p t') : t' = t := by
  rcases seek_cases handle (.current 0) t with ⟨e, he⟩ | ⟨f', data, m, p', hf', hn, hp, hok⟩
  · cases he.symm.trans h
  · cases hok.symm.trans h
    obtain rfl := Option.some.inj (hf'.symm.trans hf)
    rw [position?_current hposition hp]
    exact withPosition_self hf

/-! ## What becomes of the handles -/

/-- Whether a request opens or closes a handle. -/
def Operation.turnsHandles : Operation → Bool
  | .openPath .. | .close _ => true
  | _ => false

/-- The handle that a request goes through. -/
def Operation.handle? : Operation → Option Nat
  | .setLength handle _ | .close handle | .read handle _ | .write handle _ | .seek handle _ =>
    some handle
  | _ => none

/-- What a request can do to the open files of the tree `t`, which leaves the tree `u`. -/
inductive OpenedBy (t u : FileTree) : Operation → Prop
  | kept {op : Operation} (h : u.opened = t.opened) : OpenedBy t u op
  | placed {op : Operation} {handle position : Nat} (hop : op.handle? = some handle)
      (h : u.opened = (t.withPosition handle position).opened) : OpenedBy t u op
  | inserted {path : String} {mode : OpenMode} (f : OpenFile) (h : u.opened = t.opened.insert f) :
      OpenedBy t u (.openPath path mode)
  | removed {handle : Nat} (h : u.opened = t.opened.remove handle) : OpenedBy t u (.close handle)
  | carried {source target : String} (can : t.CanMove (Path.ofText source) (Path.ofText target))
      (h : u.opened = (t.transplanted (Path.ofText source) (Path.ofText target)).opened) :
      OpenedBy t u (.rename source target)

lemma LeftBy.openedBy {op : Operation} (h : LeftBy now t op u) : OpenedBy t u op := by
  cases h with
  | kept | resized | directoryMade | fileRemoved | directoryRemoved => exact .kept rfl
  | loaded files => exact .kept (opened_load files)
  | wayMade path => exact .kept (opened_makeMissing _)
  | found =>
    split_ifs
    · exact .inserted _ rfl
    · exact .inserted _ rfl
  | created => exact .inserted _ rfl
  | closed => exact .removed rfl
  | read | written | sought => exact .placed rfl rfl
  | moved can => exact .carried can rfl

/-- **Every request does one of these.** -/
theorem openedBy_apply (now : Moment) (op : Operation) (t : FileTree) :
    OpenedBy t (op.apply now t) op :=
  (leftBy_apply now op t).openedBy

/-- **Whatever neither opens nor closes leaves the same handles open.** -/
theorem sameHandles_apply (now : Moment) (op : Operation) (hop : op.turnsHandles = false) (t : FileTree) :
    SameHandles t (op.apply now t) := by
  cases openedBy_apply now op t with
  | kept h => exact .of_opened_eq h
  | placed _ h => exact SameHandles.withPosition.trans (.of_opened_eq h)
  | inserted f h => cases hop
  | removed h => cases hop
  | carried can h => exact SameHandles.transplanted.trans (.of_opened_eq h)

/-! ## Using an open file -/

/-- What an open file can be used for. -/
inductive Access where
  | read (len : Nat)
  | write (chunk : Bytes)
  | seek (origin : Origin)
  | setLength (size : Nat)
  | describe

/-- Uses an open file. -/
def Access.run (now : Moment) (handle : Nat) : Access → Action Unit
  | .read len => do let _ ← FileTree.read handle len
  | .write chunk => do let _ ← FileTree.write now handle chunk
  | .seek origin => do let _ ← FileTree.seek handle origin
  | .setLength size => FileTree.setLength now handle size
  | .describe => do let _ ← handleMetadata handle

/-- The tree after an open file was used some times. -/
def Access.runAll (handle : Nat) (uses : List (Moment × Access)) (t : FileTree) : FileTree :=
  uses.foldl (fun t use => after (use.2.run use.1 handle) t) t

/-- What an answer is turned into does not matter to the tree. -/
lemma after_map {a : Action α} {g : α → β} :
    after (a >>= fun v => pure (g v)) t = after a t := by
  cases h : a t with
  | ok v u => rw [after_ok h, after, bind_ok h]; rfl
  | error e u => rw [after_error h, after, bind_error h]

lemma after_discard {a : Action α} : after (a >>= fun _ => pure ()) t = after a t := after_map

lemma Access.sameHandles (x : Access) : SameHandles t (after (x.run now handle) t) := by
  cases x with
  | read len =>
    rw [Access.run, after_discard]
    exact sameHandles_apply now (.read handle len) rfl t
  | write chunk =>
    rw [Access.run, after_discard]
    exact sameHandles_apply now (.write handle chunk) rfl t
  | seek origin =>
    rw [Access.run, after_discard]
    exact sameHandles_apply now (.seek handle origin) rfl t
  | setLength size => exact sameHandles_apply now (.setLength handle size) rfl t
  | describe =>
    rw [Access.run, after_discard, looks_handleMetadata handle t]
    exact .refl

lemma Access.sameHandles_runAll (uses : List (Moment × Access)) :
    SameHandles t (Access.runAll handle uses t) := by
  induction uses generalizing t with
  | nil => exact .refl
  | cons use uses ih => exact (use.2.sameHandles).trans ih

/-- The action never fails for this reason. -/
def Never (e : FileError) (a : Action α) : Prop := ∀ t u, a t ≠ .error e u

section Never

variable {e : FileError} {a : Action α}

lemma never_pure (v : α) : Never e (pure v : Action α) := fun _ _ h => by cases h

lemma never_get : Never e (get : Action FileTree) := fun _ _ h => by cases h

lemma never_throw {e' : FileError} (he : e' ≠ e) : Never e (throw e' : Action α) := by
  intro t u h
  cases h
  exact he rfl

lemma never_modify (f : FileTree → FileTree) : Never e (modify f : Action Unit) :=
  fun _ _ h => by cases h

lemma never_bind {f : α → Action β} (ha : Never e a) (hf : ∀ v, Never e (f v)) :
    Never e (a >>= f) := by
  intro t u h
  cases hrun : a t with
  | ok v t' =>
    rw [bind_ok hrun] at h
    exact hf v t' u h
  | error e' t' =>
    rw [bind_error hrun] at h
    cases h
    exact ha t u hrun

lemma never_guard {c : Prop} [Decidable c] {e' : FileError} (he : e' ≠ e) (ha : Never e a) :
    Never e (if c then (throw e' : Action Unit) >>= fun _ => a else a) := by
  split_ifs
  · exact never_bind (never_throw he) fun _ => ha
  · exact ha

end Never

/-- The action never complains that a number is no handle. -/
def Trusts (a : Action α) : Prop := ∀ t u, a t ≠ .error .badHandle u

lemma trusts_pure (v : α) : Trusts (pure v : Action α) := never_pure v

lemma trusts_throw {e : FileError} (he : e ≠ .badHandle) : Trusts (throw e : Action α) :=
  never_throw he

lemma trusts_modify (f : FileTree → FileTree) : Trusts (modify f : Action Unit) := never_modify f

lemma trusts_bind {a : Action α} {f : α → Action β} (ha : Trusts a) (hf : ∀ v, Trusts (f v)) :
    Trusts (a >>= f) :=
  never_bind ha hf

lemma trusts_guard {c : Prop} [Decidable c] {e : FileError} {a : Action α} (he : e ≠ .badHandle)
    (ha : Trusts a) : Trusts (if c then (throw e : Action Unit) >>= fun _ => a else a) :=
  never_guard he ha

lemma trusts_fileAt (p : Path) : Trusts (fileAt p) := by
  intro t u h
  rcases fileAt_cases p t with hrun | ⟨_, _, -, hrun⟩ <;> rw [hrun] at h <;> cases h

lemma trusts_metadata (p : Path) : Trusts (metadata p) := by
  intro t u h
  rw [metadata, get_bind] at h
  rcases hn : t.node? p with _ | (_ | _ | _) <;> rw [hn] at h <;> cases h

/-- What follows the look-up of an open handle decides whether there is a complaint. -/
lemma ne_badHandle_of_openFile {f : OpenFile} {a : OpenFile → Action α}
    (hopen : t.opened.get? handle = some f) (ha : Trusts (a f)) :
    (openFile handle >>= a) t ≠ .error .badHandle u := by
  rw [bind_ok (openFile_ok hopen)]
  exact ha t u

lemma discard_ne_badHandle {a : Action α} (ha : ∀ u, a t ≠ .error .badHandle u) :
    (a >>= fun _ => pure ()) t ≠ .error .badHandle u := by
  intro h
  cases hrun : a t with
  | ok v t' =>
    rw [bind_ok hrun] at h
    cases h
  | error e t' =>
    rw [bind_error hrun] at h
    cases h
    exact ha u hrun

/-- **Of an open handle the tree never says that it is none.** -/
theorem Access.run_ne_badHandle (x : Access) (hopen : (t.opened.get? handle).isSome) :
    x.run now handle t ≠ .error .badHandle u := by
  obtain ⟨f, hf⟩ := Option.isSome_iff_exists.1 hopen
  cases x with
  | read len =>
    refine discard_ne_badHandle fun u => ne_badHandle_of_openFile hf ?_
    refine trusts_guard FileError.noConfusion (trusts_bind (trusts_fileAt _) fun _ => ?_)
    exact trusts_bind (trusts_modify _) fun _ => trusts_pure _
  | write chunk =>
    refine discard_ne_badHandle fun u => ne_badHandle_of_openFile hf ?_
    refine trusts_guard FileError.noConfusion (trusts_bind (trusts_fileAt _) fun _ => ?_)
    refine trusts_guard FileError.noConfusion (trusts_bind (trusts_modify _) fun _ => ?_)
    exact trusts_bind (trusts_modify _) fun _ => trusts_pure _
  | seek origin =>
    refine discard_ne_badHandle fun u => ne_badHandle_of_openFile hf ?_
    refine trusts_bind (trusts_fileAt _) fun r => ?_
    obtain ⟨data, m⟩ := r
    cases hp : Origin.position? data.length f.position origin with
    | none =>
      simp only [hp]
      exact trusts_throw FileError.noConfusion
    | some p =>
      simp only [hp]
      exact trusts_bind (trusts_modify _) fun _ => trusts_pure _
  | setLength size =>
    rw [Access.run, FileTree.setLength, handlePath, bind_assoc]
    refine ne_badHandle_of_openFile hf ?_
    rw [pure_bind]
    refine trusts_bind (trusts_fileAt _) fun _ => ?_
    exact trusts_guard FileError.noConfusion (trusts_modify _)
  | describe =>
    refine discard_ne_badHandle fun u => ?_
    rw [handleMetadata, handlePath, bind_assoc]
    exact ne_badHandle_of_openFile hf (trusts_metadata _)

end GuestShell.FileTree
