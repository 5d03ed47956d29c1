import GuestShell.FileTree.Snapshot
import Mathlib.Logic.Basic
import Mathlib.Tactic.Lemma

/-!
# What an operation on a tree comes to

An operation is an action: it looks at the tree, checks, and changes something at the end.  Here each
operation is taken apart once.  Either a check fails, and then the tree is as it was, or all of them
hold and the new tree is written down (`openPath_cases`, `write_cases`, and so on).  Nothing after
this module has to look into an operation again.

The exceptions are `makeMissing`, which makes one directory after another and can stop on the way
(`makeMissing_cons`, `makeMissing_ok`), and loading a file, which begins with it
(`loadFile_cases`).
-/

namespace GuestShell.FileTree

variable {α β : Type}

/-! ## Running actions -/

section Running

variable {t u : FileTree} {a : Action α}

lemma bind_ok {v : α} {f : α → Action β} (h : a t = .ok v u) : (a >>= f) t = f v u := by
  show EStateM.bind a f t = f v u
  rw [EStateM.bind, h]

lemma bind_error {e : FileError} {f : α → Action β} (h : a t = .error e u) :
    (a >>= f) t = .error e u := by
  show EStateM.bind a f t = .error e u
  rw [EStateM.bind, h]

lemma get_bind (f : FileTree → Action β) (t : FileTree) : (get >>= f) t = f t t := rfl

end Running

/-! ## Looking -/

/-- A directory is at the place. -/
def IsDirectory (t : FileTree) (p : Path) : Prop := ∃ m, t.node? p = some (.directory m)

/-- What holds the place, if anything has to, is a directory. -/
def IsHeld (t : FileTree) (p : Path) : Prop := ∀ q, p.parent? = some q → t.IsDirectory q

/-- An open file is found, or the tree is left alone. -/
lemma openFile_cases (handle : Nat) (t : FileTree) :
    openFile handle t = .error .badHandle t ∨
      ∃ f, t.opened.get? handle = some f ∧ openFile handle t = .ok f t := by
  rw [openFile, get_bind]
  cases h : t.opened.get? handle with
  | none => exact .inl rfl
  | some f => exact .inr ⟨f, rfl, rfl⟩

lemma fileAt_cases (p : Path) (t : FileTree) :
    fileAt p t = .error (.noFile p) t ∨
      ∃ data m, t.node? p = some (.file data m) ∧ fileAt p t = .ok (data, m) t := by
  rw [fileAt, get_bind]
  rcases h : t.node? p with _ | (⟨data, m⟩ | m | d)
  · exact .inl rfl
  · exact .inr ⟨data, m, rfl, rfl⟩
  · exact .inl rfl
  · exact .inl rfl

lemma requireParent_cases (p : Path) (t : FileTree) :
    (∃ e, requireParent p t = .error e t) ∨ t.IsHeld p ∧ requireParent p t = .ok () t := by
  rw [requireParent]
  cases hp : p.parent? with
  | none => exact .inr ⟨fun q hq => by simp [hp] at hq, rfl⟩
  | some q =>
    simp only [get_bind]
    rcases h : t.node? q with _ | (_ | m | _)
    · exact .inl ⟨_, rfl⟩
    · exact .inl ⟨_, rfl⟩
    · refine .inr ⟨fun r hr => ?_, rfl⟩
      obtain rfl : q = r := by simpa [hp] using hr
      exact ⟨m, h⟩
    · exact .inl ⟨_, rfl⟩

/-! ## Open files -/

/-- The tree with one more open file. -/
def withOpened (t : FileTree) (p : Path) (mode : OpenMode) : FileTree :=
  { t with opened := t.opened.insert ⟨p, 0, mode.read, mode.write || mode.append, mode.append⟩ }

/-- The tree with the position of an open file moved. -/
def withPosition (t : FileTree) (handle position : Nat) : FileTree :=
  { t with opened := t.opened.modify handle fun f => { f with position := position } }

/-- Opening fails, or finds a file, which it may empty, or makes one in a directory. -/
theorem openPath_cases (now : Moment) (p : Path) (mode : OpenMode) (t : FileTree) :
    (∃ e, openPath now p mode t = .error e t) ∨
      (∃ data m, t.node? p = some (.file data m) ∧ openPath now p mode t =
        .ok t.opened.next
          ((if mode.truncate then t.withNode p (.file [] now) else t).withOpened p mode)) ∨
      (t.node? p = none ∧ t.IsHeld p ∧ mode.create = true ∧ openPath now p mode t =
        .ok t.opened.next ((t.withNode p (.file [] now)).withOpened p mode)) := by
  rw [openPath, get_bind]
  rcases h : t.node? p with _ | n
  · cases hc : mode.create with
    | false => exact .inl ⟨_, rfl⟩
    | true =>
      rcases requireParent_cases p t with ⟨e, he⟩ | ⟨hheld, hok⟩
      · exact .inl ⟨e, bind_error he⟩
      · exact .inr (.inr ⟨rfl, hheld, rfl, bind_ok hok⟩)
  · by_cases hx : (mode.create && mode.exclusive) = true
    · exact .inl ⟨_, by simp only [if_pos hx]; rfl⟩
    · simp only [if_neg hx]
      cases n with
      | file data m =>
        refine .inr (.inl ⟨data, m, rfl, ?_⟩)
        cases mode.truncate <;> rfl
      | directory m => exact .inl ⟨_, rfl⟩
      | device d => exact .inl ⟨_, rfl⟩

theorem close_cases (handle : Nat) (t : FileTree) :
    close handle t = .error .badHandle t ∨
      close handle t = .ok () { t with opened := t.opened.remove handle } := by
  rw [close]
  rcases openFile_cases handle t with h | ⟨f, -, h⟩
  · exact .inl (bind_error h)
  · exact .inr (bind_ok h)

theorem read_cases (handle len : Nat) (t : FileTree) :
    (∃ e, read handle len t = .error e t) ∨
      ∃ f data m, t.opened.get? handle = some f ∧ t.node? f.path = some (.file data m) ∧
        read handle len t = .ok ((data.drop f.position).take len)
          (t.withPosition handle (f.position + ((data.drop f.position).take len).length)) := by
  rw [read]
  rcases openFile_cases handle t with h | ⟨f, hf, h⟩
  · exact .inl ⟨_, bind_error h⟩
  rw [bind_ok h]
  cases f.readable with
  | false => exact .inl ⟨_, rfl⟩
  | true =>
    rcases fileAt_cases f.path t with h | ⟨data, m, hn, h⟩
    · exact .inl ⟨_, bind_error h⟩
    · exact .inr ⟨f, data, m, hf, hn, bind_ok h⟩

theorem write_cases (now : Moment) (handle : Nat) (chunk : Bytes) (t : FileTree) :
    (∃ e, write now handle chunk t = .error e t) ∨
      ∃ f data m position, t.opened.get? handle = some f ∧
        t.node? f.path = some (.file data m) ∧
        position = (if f.append then data.length else f.position) ∧
        position + chunk.length ≤ maxLength ∧
        write now handle chunk t = .ok chunk.length
          ((t.withNode f.path (.file (overwritten data position chunk) now)).withPosition handle
            (position + chunk.length)) := by
  rw [write]
  rcases openFile_cases handle t with h | ⟨f, hf, h⟩
  · exact .inl ⟨_, bind_error h⟩
  rw [bind_ok h]
  cases f.writable with
  | false => exact .inl ⟨_, rfl⟩
  | true =>
    rcases fileAt_cases f.path t with h | ⟨data, m, hn, h⟩
    · exact .inl ⟨_, bind_error h⟩
    by_cases hlen : maxLength < (if f.append then data.length else f.position) + chunk.length
    · exact .inl ⟨.tooLong, (bind_ok h).trans (by simp only [if_pos hlen]; rfl)⟩
    · refine .inr ⟨f, data, m, _, hf, hn, rfl, Nat.not_lt.1 hlen, (bind_ok h).trans ?_⟩
      simp only [if_neg hlen]
      rfl

theorem seek_cases (handle : Nat) (origin : Origin) (t : FileTree) :
    (∃ e, seek handle origin t = .error e t) ∨
      ∃ f data m p, t.opened.get? handle = some f ∧ t.node? f.path = some (.file data m) ∧
        Origin.position? data.length f.position origin = some p ∧
        seek handle origin t = .ok p (t.withPosition handle p) := by
  rw [seek]
  rcases openFile_cases handle t with h | ⟨f, hf, h⟩
  · exact .inl ⟨_, bind_error h⟩
  rw [bind_ok h]
  rcases fileAt_cases f.path t with h | ⟨data, m, hn, h⟩
  · exact .inl ⟨_, bind_error h⟩
  rw [bind_ok h]
  cases hp : Origin.position? data.length f.position origin with
  | none => exact .inl ⟨_, by simp only [hp]; rfl⟩
  | some p => exact .inr ⟨f, data, m, p, hf, hn, hp, by simp only [hp]; rfl⟩

/-- Where a file stands is told as it is, if it can be told with 64 bits. -/
lemma position?_current {size position p : Nat} (hposition : position < UInt64.size)
    (h : Origin.position? size position (.current 0) = some p) : p = position := by
  have hcongr : signed64 position % (UInt64.size : Int) = position := by
    have hmod : signed64 position % (UInt64.size : Int) = (position : Int) % (UInt64.size : Int) :=
      Int.bmod_emod
    exact hmod.trans (Int.emod_eq_of_lt (Int.natCast_nonneg _) (Int.ofNat_lt.2 hposition))
  have hmax : (maxLength : Int) < UInt64.size := by decide
  simp only [Origin.position?, Int.add_zero] at h
  generalize signed64 position = x at h hcongr
  generalize UInt64.size = bound at hcongr hmax
  generalize maxLength = longest at h hmax
  split at h
  · rename_i hx
    rw [Int.emod_eq_of_lt hx.1 (by omega)] at hcongr
    have := Option.some.inj h
    omega
  · simp at h

theorem setLength_cases (now : Moment) (handle size : Nat) (t : FileTree) :
    (∃ e, setLength now handle size t = .error e t) ∨
      ∃ f data m, t.opened.get? handle = some f ∧ t.node? f.path = some (.file data m) ∧
        size ≤ maxLength ∧ setLength now handle size t =
          .ok () (t.withNode f.path (.file (resized data size) now)) := by
  rw [setLength]
  rcases openFile_cases handle t with h | ⟨f, hf, h⟩
  · exact .inl ⟨_, bind_error (bind_error h)⟩
  have hpath : handlePath handle t = .ok f.path t := bind_ok h
  rw [bind_ok hpath]
  rcases fileAt_cases f.path t with h | ⟨data, m, hn, h⟩
  · exact .inl ⟨_, bind_error h⟩
  rw [bind_ok h]
  by_cases hlen : maxLength < size
  · exact .inl ⟨_, by simp only [if_pos hlen]; rfl⟩
  · refine .inr ⟨f, data, m, hf, hn, Nat.not_lt.1 hlen, ?_⟩
    simp only [if_neg hlen]
    rfl

/-! ## Places -/

theorem makeDirectory_cases (now : Moment) (p : Path) (t : FileTree) :
    (∃ e, makeDirectory now p t = .error e t) ∨
      (t.node? p = none ∧ t.IsHeld p ∧
        makeDirectory now p t = .ok () (t.withNode p (.directory now))) := by
  rw [makeDirectory, get_bind]
  cases h : t.node? p with
  | some n => exact .inl ⟨_, by simp only [hasPlace, h, Option.isSome_some, if_true]; rfl⟩
  | none =>
    simp only [hasPlace, h, Option.isSome_none, Bool.false_eq_true, if_false]
    rcases requireParent_cases p t with ⟨e, he⟩ | ⟨hheld, hok⟩
    · exact .inl ⟨e, bind_error he⟩
    · exact .inr ⟨trivial, hheld, bind_ok hok⟩

/-- One missing directory after another: a directory is passed, anything else in its place is a
failure, and nothing in its place is filled. -/
lemma makeMissing_cons (now : Moment) (p : Path) (ps : List Path) (t : FileTree) :
    (t.IsDirectory p ∧ makeMissing now (p :: ps) t = makeMissing now ps t) ∨
      (∃ e, makeMissing now (p :: ps) t = .error e t) ∨
      (t.node? p = none ∧ makeMissing now (p :: ps) t =
        makeMissing now ps (t.withNode p (.directory now))) := by
  rw [makeMissing, get_bind]
  rcases h : t.node? p with _ | (_ | m | _)
  · exact .inr (.inr ⟨rfl, rfl⟩)
  · exact .inr (.inl ⟨_, rfl⟩)
  · exact .inl ⟨⟨m, h⟩, rfl⟩
  · exact .inr (.inl ⟨_, rfl⟩)

/-- Making the directories on the way to a place stops at the first thing that is no directory; if it
goes through, they are all there, and nothing else has changed. -/
theorem makeMissing_ok {now : Moment} {ps : List Path} {t u : FileTree}
    (h : makeMissing now ps t = .ok () u) :
    (∀ p ∈ ps, u.IsDirectory p) ∧
      ∀ q n, u.node? q = some n ↔
        t.node? q = some n ∨ t.node? q = none ∧ q ∈ ps ∧ n = .directory now := by
  induction ps generalizing t with
  | nil =>
    obtain rfl : t = u := by injection h
    simp
  | cons p ps ih =>
    rcases makeMissing_cons now p ps t with ⟨⟨m, hm⟩, hrun⟩ | ⟨e, hrun⟩ | ⟨hnone, hrun⟩
    · obtain ⟨hdirs, hiff⟩ := ih (hrun ▸ h)
      refine ⟨?_, fun q n => ?_⟩
      · rintro q (_ | ⟨_, hq⟩)
        · exact ⟨m, (hiff p _).2 (.inl hm)⟩
        · exact hdirs q hq
      · rw [hiff, List.mem_cons]
        refine or_congr_right (and_congr_right fun hq => and_congr_left' ?_)
        rw [or_iff_right]
        rintro rfl
        simp [hm] at hq
    · rw [hrun] at h
      cases h
    · obtain ⟨hdirs, hiff⟩ := ih (hrun ▸ h)
      have hnode : ∀ q, (t.withNode p (.directory now)).node? q =
          if q = p then some (.directory now) else t.node? q :=
        fun q => Dict.find?_insert t.nodes p q _
      refine ⟨?_, fun q n => ?_⟩
      · rintro q (_ | ⟨_, hq⟩)
        · exact ⟨now, (hiff p _).2 (.inl (by rw [hnode, if_pos rfl]))⟩
        · exact hdirs q hq
      · rw [hiff, hnode]
        by_cases hq : q = p
        · subst hq
          simp [hnone, eq_comm]
        · simp [hq]

/-- Making the directories that hold a place. -/
def makeWay (now : Moment) (p : Path) : Action Unit :=
  match p.parent? with
  | none => pure ()
  | some parent => makeDirectories now parent

lemma mount_eq (now : Moment) (p : Path) (d : Device) :
    mount now p d = makeWay now p >>= fun _ => modify (·.withNode p (.device d)) := by
  rw [mount, makeWay]
  cases p.parent? <;> rfl

/-- Putting a saved file at a place that is free or has a file. -/
def putFile (f : SavedFile) (p : Path) : Action Unit := do
  match (← get).node? p with
  | some (.directory _) | some (.device _) => throw .parentIsNoDirectory
  | _ => modify (·.withNode p (.file f.bytes f.timestamp))

lemma loadFile_eq (now : Moment) (f : SavedFile) : loadFile now f =
    makeWay now (Path.ofText f.path) >>= fun _ => putFile f (Path.ofText f.path) := by
  rw [loadFile, makeWay]
  cases (Path.ofText f.path).parent? <;> rfl

/-- Loading a file first makes its way; then it fails if no file can be at its place, and else puts
it there. -/
theorem loadFile_cases (now : Moment) (f : SavedFile) (t : FileTree) :
    (∃ e u, makeWay now (Path.ofText f.path) t = .error e u ∧ loadFile now f t = .error e u) ∨
      ∃ u, makeWay now (Path.ofText f.path) t = .ok () u ∧
        ((∃ e n, u.node? (Path.ofText f.path) = some n ∧ (∀ data m, n ≠ .file data m) ∧
            loadFile now f t = .error e u) ∨
          ((∀ n, u.node? (Path.ofText f.path) = some n → ∃ data m, n = .file data m) ∧
            loadFile now f t =
              .ok () (u.withNode (Path.ofText f.path) (.file f.bytes f.timestamp)))) := by
  rw [loadFile_eq]
  cases hway : makeWay now (Path.ofText f.path) t with
  | error e u => exact .inl ⟨e, u, rfl, bind_error hway⟩
  | ok v u =>
    rw [bind_ok hway, putFile, get_bind]
    refine .inr ⟨u, rfl, ?_⟩
    rcases hn : u.node? (Path.ofText f.path) with _ | (⟨data, m⟩ | m | d)
    · exact .inr ⟨by simp, rfl⟩
    · exact .inr ⟨by simp, rfl⟩
    · exact .inl ⟨_, _, rfl, by simp, rfl⟩
    · exact .inl ⟨_, _, rfl, by simp, rfl⟩

theorem removeFile_cases (p : Path) (t : FileTree) :
    (∃ e, removeFile p t = .error e t) ∨
      ∃ data m, t.node? p = some (.file data m) ∧
        removeFile p t = .ok () (t.withoutNode p) := by
  rw [removeFile, get_bind]
  rcases h : t.node? p with _ | (⟨data, m⟩ | _ | _)
  · exact .inl ⟨_, rfl⟩
  · exact .inr ⟨data, m, rfl, rfl⟩
  · exact .inl ⟨_, rfl⟩
  · exact .inl ⟨_, rfl⟩

theorem removeDirectory_cases (p : Path) (t : FileTree) :
    (∃ e, removeDirectory p t = .error e t) ∨
      (p ≠ Path.root ∧ t.IsDirectory p ∧ t.hasBelow p = false ∧
        removeDirectory p t = .ok () (t.withoutNode p)) := by
  rw [removeDirectory]
  by_cases hroot : p = Path.root
  · exact .inl ⟨_, by simp only [if_pos hroot]; rfl⟩
  simp only [if_neg hroot, get_bind]
  rcases h : t.node? p with _ | (_ | m | _)
  · exact .inl ⟨_, rfl⟩
  · exact .inl ⟨_, rfl⟩
  · cases hb : t.hasBelow p with
    | true => exact .inl ⟨_, rfl⟩
    | false => exact .inr ⟨hroot, ⟨m, h⟩, rfl, rfl⟩
  · exact .inl ⟨_, rfl⟩

/-- What a rename asks of its two places before anything moves. -/
structure CanMove (t : FileTree) (source target : Path) : Prop where
  apart : source ≠ target
  present : t.hasPlace source = true
  outside : ¬source.isAbove target = true
  held : t.IsHeld target
  /-- A directory is replaced only if nothing is in it. -/
  vacant : t.IsDirectory target → t.hasBelow target = false

theorem rename_cases (source target : Path) (t : FileTree) :
    (∃ e, rename source target t = .error e t) ∨
      (source = target ∧ rename source target t = .ok () t) ∨
      (t.CanMove source target ∧
        rename source target t = .ok () (t.transplanted source target)) := by
  rw [rename]
  by_cases hst : source = target
  · exact .inr (.inl ⟨hst, by simp only [if_pos hst]; rfl⟩)
  simp only [if_neg hst, get_bind]
  cases hs : t.hasPlace source with
  | false => exact .inl ⟨_, rfl⟩
  | true =>
    simp only [Bool.not_true, Bool.false_eq_true, if_false]
    cases ha : source.isAbove target with
    | true => exact .inl ⟨_, rfl⟩
    | false =>
      simp only [Bool.false_eq_true, if_false]
      rcases requireParent_cases target t with ⟨e, he⟩ | ⟨hheld, hok⟩
      · exact .inl ⟨e, bind_error he⟩
      rw [bind_ok hok, get_bind]
      have done : (t.IsDirectory target → t.hasBelow target = false) →
          t.CanMove source target := fun hv => ⟨hst, hs, by simp [ha], hheld, hv⟩
      rcases h : t.node? target with _ | (_ | m | _)
      · exact .inr (.inr ⟨done fun ⟨m, hm⟩ => by simp [h] at hm, rfl⟩)
      · exact .inr (.inr ⟨done fun ⟨m, hm⟩ => by simp [h] at hm, rfl⟩)
      · cases hb : t.hasBelow target with
        | true => exact .inl ⟨_, rfl⟩
        | false => exact .inr (.inr ⟨done fun _ => hb, rfl⟩)
      · exact .inr (.inr ⟨done fun ⟨m, hm⟩ => by simp [h] at hm, rfl⟩)

end GuestShell.FileTree
