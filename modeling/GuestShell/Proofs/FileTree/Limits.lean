import GuestShell.Proofs.FileTree.Handles

/-!
# The limits of files

No machine can hold more than `maxLength` bytes in one piece.  `WithinLimits` says that no file of a
tree is longer and that no open file stands further out.  The positions are part of it because they
are kept from one request to the next: where a file stands decides how long a write makes it.

A request that would lead beyond the limits fails with `tooLong`, so every request keeps a tree
within them (`WithinLimits.apply`).  Only two can fail in this way, and `write_tooLong_iff` and
`setLength_tooLong_iff` say exactly when.
-/

namespace GuestShell.FileTree

open GuestShell.Path

variable {α β : Type} {t u : FileTree} {now : Moment} {handle : Nat} {p : Path}

/-! ## Within the limits -/

/-- No file is longer than any file can be, and no open file stands beyond that. -/
structure WithinLimits (t : FileTree) : Prop where
  contents : ∀ p data m, t.node? p = some (.file data m) → data.length ≤ maxLength
  positions : ∀ h f, t.opened.get? h = some f → f.position ≤ maxLength

@[simp] lemma length_resized (data : Bytes) (size : Nat) : (resized data size).length = size := by
  rw [resized, List.length_append, List.length_take, List.length_replicate]
  omega

lemma length_overwritten (data : Bytes) (position : Nat) (chunk : Bytes) :
    (overwritten data position chunk).length = max data.length (position + chunk.length) := by
  simp only [overwritten, List.length_append, List.length_take, List.length_drop]
  split_ifs with h
  · rw [length_resized]
    omega
  · omega

lemma Origin.position?_le {size current p : Nat} {o : Origin}
    (h : Origin.position? size current o = some p) : p ≤ maxLength := by
  simp only [Origin.position?] at h
  split_ifs at h with hp
  cases h
  have := hp.2
  omega

namespace WithinLimits

lemma fresh (now : Moment) : (fresh now).WithinLimits := by
  refine ⟨fun p data m hp => ?_, fun h f hf => ?_⟩
  · rw [FileTree.fresh, node?, Dict.find?_insert] at hp
    split_ifs at hp
    · cases hp
    · cases hp
  · simp [FileTree.fresh] at hf

variable (h : t.WithinLimits)

include h

lemma withNode {n : Node} (hn : ∀ data m, n = .file data m → data.length ≤ maxLength) :
    (t.withNode p n).WithinLimits := by
  refine ⟨fun q data m hq => ?_, h.positions⟩
  rw [node?_withNode] at hq
  split_ifs at hq
  · exact hn data m (Option.some.inj hq)
  · exact h.contents q data m hq

lemma withFile {data : Bytes} {m : Moment} (hdata : data.length ≤ maxLength) :
    (t.withNode p (.file data m)).WithinLimits := by
  refine h.withNode fun data' m' heq => ?_
  cases heq
  exact hdata

lemma withDirectory {m : Moment} : (t.withNode p (.directory m)).WithinLimits :=
  h.withNode (by simp)

lemma withoutNode : (t.withoutNode p).WithinLimits := by
  refine ⟨fun q data m hq => ?_, h.positions⟩
  rw [node?_withoutNode] at hq
  split_ifs at hq
  exact h.contents q data m hq

lemma withOpened {mode : OpenMode} : (t.withOpened p mode).WithinLimits := by
  refine ⟨h.contents, fun k f hf => ?_⟩
  rcases Slots.get?_insert_cases hf with rfl | hold
  · exact Nat.zero_le _
  · exact h.positions k f hold

lemma withPosition {position : Nat} (hposition : position ≤ maxLength) :
    (t.withPosition handle position).WithinLimits := by
  refine ⟨h.contents, fun k f hf => ?_⟩
  rw [FileTree.withPosition, Slots.get?_modify] at hf
  split_ifs at hf
  · obtain ⟨f', -, rfl⟩ := Option.map_eq_some_iff.1 hf
    exact hposition
  · exact h.positions k f hf

lemma closed : WithinLimits { t with opened := t.opened.remove handle } := by
  refine ⟨h.contents, fun k f hf => ?_⟩
  rw [Slots.get?_remove] at hf
  split_ifs at hf
  exact h.positions k f hf

/-- Moving a subtree makes no file longer, whatever becomes of the nodes. -/
lemma transplanted (source target : Path) : (t.transplanted source target).WithinLimits := by
  refine ⟨fun q data m hq => ?_, fun k f hf => ?_⟩
  · obtain ⟨q', hq'⟩ := exists_find?_of_foldl_moveNode hq
    exact h.contents q' data m hq'
  · rw [FileTree.transplanted, Slots.get?_map] at hf
    obtain ⟨f', hf', rfl⟩ := Option.map_eq_some_iff.1 hf
    split_ifs <;> exact h.positions k f' hf'

/-! ### Making directories and loading -/

lemma makeMissing (ps : List Path) : (after (makeMissing now ps) t).WithinLimits :=
  makeMissing_keeps (fun _ h => h.withDirectory) ps h

lemma load {files : List SavedFile} (hfiles : ∀ f ∈ files, f.bytes.length ≤ maxLength) :
    (load now files t).WithinLimits :=
  load_keeps (fun _ h => h.withDirectory) (fun f hf _ h => h.withFile (hfiles f hf)) h

lemma mount (d : Device) : (after (mount now p d) t).WithinLimits :=
  mount_keeps (fun _ h => h.withDirectory) (fun h => h.withNode (by simp)) h

end WithinLimits

/-! ## Beyond the limits -/

/-- So many bytes are more than the file under a handle has room for. -/
def Outgrows (t : FileTree) (handle size : Nat) : Prop :=
  ∃ f data m, t.opened.get? handle = some f ∧ f.writable = true ∧
    t.node? f.path = some (.file data m) ∧
    maxLength < (if f.append then data.length else f.position) + size

/-- No file can be as long as the file under a handle is to be. -/
def Overstretches (t : FileTree) (handle size : Nat) : Prop :=
  maxLength < size ∧
    ∃ f data m, t.opened.get? handle = some f ∧ t.node? f.path = some (.file data m)

/-- A write fails for some other reason, or for want of room, or it ends within the limits. -/
theorem write_room (now : Moment) (handle : Nat) (chunk : Bytes) (t : FileTree) :
    (∃ e, e ≠ .tooLong ∧ ¬t.Outgrows handle chunk.length ∧ write now handle chunk t = .error e t) ∨
      (t.Outgrows handle chunk.length ∧ write now handle chunk t = .error .tooLong t) ∨
      ¬t.Outgrows handle chunk.length ∧ ∃ f data m position, t.opened.get? handle = some f ∧
        t.node? f.path = some (.file data m) ∧ position + chunk.length ≤ maxLength ∧
        write now handle chunk t = .ok chunk.length
          ((t.withNode f.path (.file (overwritten data position chunk) now)).withPosition handle
            (position + chunk.length)) := by
  rw [write]
  rcases openFile_cases handle t with h | ⟨f, hf, h⟩
  · refine .inl ⟨.badHandle, by simp, ?_, bind_error h⟩
    rintro ⟨f, data, m, hf, -⟩
    rw [openFile_ok hf] at h
    cases h
  rw [bind_ok h]
  cases hw : f.writable with
  | false =>
    refine .inl ⟨.notWritable, by simp, ?_, rfl⟩
    rintro ⟨f', data, m, hf', hw', -⟩
    obtain rfl := Option.some.inj (hf.symm.trans hf')
    rw [hw] at hw'
    cases hw'
  | true =>
    rcases fileAt_cases f.path t with h | ⟨data, m, hn, h⟩
    · refine .inl ⟨.noFile f.path, by simp, ?_, bind_error h⟩
      rintro ⟨f', data, m, hf', -, hn, -⟩
      obtain rfl := Option.some.inj (hf.symm.trans hf')
      rw [fileAt, get_bind, hn] at h
      cases h
    by_cases hlen : maxLength < (if f.append then data.length else f.position) + chunk.length
    · refine .inr (.inl ⟨⟨f, data, m, hf, hw, hn, hlen⟩, (bind_ok h).trans ?_⟩)
      simp only [if_pos hlen]
      rfl
    · refine .inr (.inr ⟨?_, f, data, m, _, hf, hn, Nat.not_lt.1 hlen, (bind_ok h).trans ?_⟩)
      · rintro ⟨f', data', m', hf', -, hn', hlen'⟩
        obtain rfl := Option.some.inj (hf.symm.trans hf')
        cases hn.symm.trans hn'
        exact hlen hlen'
      · simp only [if_neg hlen]
        rfl

/-- The same for another length. -/
theorem setLength_room (now : Moment) (handle size : Nat) (t : FileTree) :
    (∃ e, e ≠ .tooLong ∧ ¬t.Overstretches handle size ∧ setLength now handle size t = .error e t) ∨
      (t.Overstretches handle size ∧ setLength now handle size t = .error .tooLong t) ∨
      size ≤ maxLength ∧ ∃ f data m, t.opened.get? handle = some f ∧
        t.node? f.path = some (.file data m) ∧ setLength now handle size t =
          .ok () (t.withNode f.path (.file (resized data size) now)) := by
  rw [setLength]
  rcases openFile_cases handle t with h | ⟨f, hf, h⟩
  · refine .inl ⟨.badHandle, by simp, ?_, bind_error (bind_error h)⟩
    rintro ⟨-, f, data, m, hf, -⟩
    rw [openFile_ok hf] at h
    cases h
  have hpath : handlePath handle t = .ok f.path t := bind_ok h
  rw [bind_ok hpath]
  rcases fileAt_cases f.path t with h | ⟨data, m, hn, h⟩
  · refine .inl ⟨.noFile f.path, by simp, ?_, bind_error h⟩
    rintro ⟨-, f', data, m, hf', hn⟩
    obtain rfl := Option.some.inj (hf.symm.trans hf')
    rw [fileAt, get_bind, hn] at h
    cases h
  rw [bind_ok h]
  by_cases hlen : maxLength < size
  · refine .inr (.inl ⟨⟨hlen, f, data, m, hf, hn⟩, ?_⟩)
    simp only [if_pos hlen]
    rfl
  · refine .inr (.inr ⟨Nat.not_lt.1 hlen, f, data, m, hf, hn, ?_⟩)
    simp only [if_neg hlen]
    rfl

theorem write_tooLong_iff {chunk : Bytes} :
    (∃ u, write now handle chunk t = .error .tooLong u) ↔ t.Outgrows handle chunk.length := by
  rcases write_room now handle chunk t with ⟨e, he, hno, hrun⟩ | ⟨hyes, hrun⟩ |
    ⟨hno, _, _, _, _, -, -, -, hrun⟩
  · simp [hrun, he, hno]
  · simp [hrun, hyes]
  · simp [hrun, hno]

theorem setLength_tooLong_iff {size : Nat} :
    (∃ u, setLength now handle size t = .error .tooLong u) ↔ t.Overstretches handle size := by
  rcases setLength_room now handle size t with ⟨e, he, hno, hrun⟩ | ⟨hyes, hrun⟩ |
    ⟨hsize, _, _, _, -, -, hrun⟩
  · simp [hrun, he, hno]
  · simp [hrun, hyes]
  · simp only [hrun, reduceCtorEq, exists_false, false_iff]
    exact fun hno => absurd hno.1 (Nat.not_lt.2 hsize)

/-! ### Requests that always have room -/

lemma never_tooLong_openFile (handle : Nat) : Never .tooLong (openFile handle) := by
  intro t u h
  rcases openFile_cases handle t with hrun | ⟨f, -, hrun⟩
  · cases hrun.symm.trans h
  · cases hrun.symm.trans h

lemma never_tooLong_fileAt (p : Path) : Never .tooLong (fileAt p) := by
  intro t u h
  rcases fileAt_cases p t with hrun | ⟨data, m, -, hrun⟩
  · cases hrun.symm.trans h
  · cases hrun.symm.trans h

lemma never_tooLong_requireParent (p : Path) : Never .tooLong (requireParent p) := by
  rw [requireParent]
  cases p.parent? with
  | none => exact never_pure _
  | some q =>
    refine never_bind never_get fun t => ?_
    rcases t.node? q with _ | (_ | _ | _)
    · exact never_throw (by simp)
    · exact never_throw (by simp)
    · exact never_pure _
    · exact never_throw (by simp)

lemma never_tooLong_metadata (p : Path) : Never .tooLong (metadata p) := by
  refine never_bind never_get fun t => ?_
  rcases t.node? p with _ | (_ | _ | _)
  · exact never_throw (by simp)
  · exact never_pure _
  · exact never_pure _
  · exact never_pure _

lemma never_tooLong_handleMetadata (handle : Nat) : Never .tooLong (handleMetadata handle) :=
  never_bind (never_bind (never_tooLong_openFile handle) fun _ => never_pure _) fun _ =>
    never_tooLong_metadata _

lemma never_tooLong_list (p : Path) : Never .tooLong (list p) := by
  refine never_bind never_get fun t => ?_
  rcases t.node? p with _ | (_ | _ | _)
  · exact never_throw (by simp)
  · exact never_throw (by simp)
  · exact never_pure _
  · exact never_throw (by simp)

lemma never_tooLong_openPath (p : Path) (mode : OpenMode) :
    Never .tooLong (openPath now p mode) := by
  have opened : Never .tooLong (do
      let t ← get
      set { t with
        opened := t.opened.insert ⟨p, 0, mode.read, mode.write || mode.append, mode.append⟩ }
      return t.opened.next : Action Nat) :=
    never_bind never_get fun t => never_bind (never_modify fun _ => _) fun _ => never_pure _
  refine never_bind never_get fun t => ?_
  rcases t.node? p with _ | (_ | _ | _)
  · refine never_guard (by simp) (never_bind (never_tooLong_requireParent p) fun _ => ?_)
    exact never_bind (never_modify _) fun _ => opened
  · refine never_guard (by simp) ?_
    show Never .tooLong (if mode.truncate then _ else _)
    split_ifs
    · exact never_bind (never_modify _) fun _ => opened
    · exact opened
  · exact never_guard (by simp) (never_bind (never_throw (by simp)) fun _ => opened)
  · exact never_guard (by simp) (never_bind (never_throw (by simp)) fun _ => opened)

lemma never_tooLong_close (handle : Nat) : Never .tooLong (close handle) :=
  never_bind (never_tooLong_openFile handle) fun _ => never_modify _

lemma never_tooLong_read (handle len : Nat) : Never .tooLong (read handle len) := by
  refine never_bind (never_tooLong_openFile handle) fun f => never_guard (by simp) ?_
  refine never_bind (never_tooLong_fileAt f.path) fun _ => ?_
  exact never_bind (never_modify _) fun _ => never_pure _

lemma never_tooLong_seek (handle : Nat) (origin : Origin) :
    Never .tooLong (seek handle origin) := by
  refine never_bind (never_tooLong_openFile handle) fun f => ?_
  refine never_bind (never_tooLong_fileAt f.path) fun contents => ?_
  dsimp only
  cases Origin.position? contents.1.length f.position origin with
  | none => exact never_throw (by simp)
  | some p => exact never_bind (never_modify _) fun _ => never_pure _

lemma never_tooLong_makeDirectory (p : Path) : Never .tooLong (makeDirectory now p) := by
  refine never_bind never_get fun t => never_guard (by simp) ?_
  exact never_bind (never_tooLong_requireParent p) fun _ => never_modify _

lemma never_tooLong_removeFile (p : Path) : Never .tooLong (removeFile p) := by
  refine never_bind never_get fun t => ?_
  rcases t.node? p with _ | (_ | _ | _)
  · exact never_throw (by simp)
  · exact never_modify _
  · exact never_throw (by simp)
  · exact never_throw (by simp)

lemma never_tooLong_removeDirectory (p : Path) : Never .tooLong (removeDirectory p) := by
  refine never_guard (by simp) (never_bind never_get fun t => ?_)
  rcases t.node? p with _ | (_ | _ | _)
  · exact never_throw (by simp)
  · exact never_throw (by simp)
  · exact never_guard (by simp) (never_modify fun _ => _)
  · exact never_throw (by simp)

lemma never_tooLong_rename (source target : Path) : Never .tooLong (rename source target) := by
  rw [rename]
  by_cases hst : source = target
  · rw [if_pos hst]
    exact never_pure _
  rw [if_neg hst]
  refine never_bind never_get fun t => never_guard (by simp) (never_guard (by simp) ?_)
  refine never_bind (never_tooLong_requireParent target) fun _ => never_bind never_get fun t => ?_
  have moved : Never .tooLong (set (t.transplanted source target) : Action Unit) :=
    never_modify fun _ => _
  rcases t.node? target with _ | (_ | _ | _)
  · exact moved
  · exact moved
  · exact never_guard (by simp) moved
  · exact moved

/-! ## Every request -/

lemma LeftBy.withinLimits {op : Operation} (hleft : LeftBy now t op u) (h : t.WithinLimits)
    (hload : ∀ files, op = .load files → ∀ f ∈ files, f.bytes.length ≤ maxLength) :
    u.WithinLimits := by
  cases hleft with
  | kept => exact h
  | loaded files => exact h.load (hload files rfl)
  | wayMade path => exact h.makeMissing _
  | resized _ _ room => exact h.withFile (by rwa [length_resized])
  | found =>
    split_ifs
    · exact (h.withFile (Nat.zero_le _)).withOpened
    · exact h.withOpened
  | created => exact (h.withFile (Nat.zero_le _)).withOpened
  | closed => exact h.closed
  | read opened file =>
    refine h.withPosition ?_
    have hposition := h.positions _ _ opened
    have hdata := h.contents _ _ _ file
    rw [List.length_take, List.length_drop]
    omega
  | written _ file _ room =>
    refine (h.withFile ?_).withPosition room
    rw [length_overwritten]
    exact max_le (h.contents _ _ _ file) room
  | sought _ _ place => exact h.withPosition (Origin.position?_le place)
  | directoryMade => exact h.withDirectory
  | fileRemoved | directoryRemoved => exact h.withoutNode
  | moved => exact h.transplanted _ _

/-- **Whatever is asked of a tree within its limits keeps it there**, if the files that are loaded
are no longer than they can be. -/
theorem WithinLimits.apply (h : t.WithinLimits) (now : Moment) (op : Operation)
    (hload : ∀ files, op = .load files → ∀ f ∈ files, f.bytes.length ≤ maxLength) :
    (op.apply now t).WithinLimits :=
  (leftBy_apply now op t).withinLimits h hload

end GuestShell.FileTree
