import GuestShell.Proofs.FileTree.Frames
import GuestShell.Proofs.FileTree.Limits
import GuestShell.Proofs.FileTree.Loaded
import Mathlib.Data.List.GetD

/-!
# The last writer wins

A file is a row of bytes that grows, shrinks and has gaps, and any number of handles stand on it, each
at a position of its own.  `changes` has what a run of requests did to it: which bytes were put where,
and which lengths were set.  What a byte of the file is then needs no run to tell: it is found in the
latest change that decides it (`lastByte`), and was there from the beginning if no change does.

* One change (`getD_apply`): a stored chunk decides the offsets that it covers, and a new length those
  that it cuts off; every other byte is as it was, and beyond the end there are zeros.
* One request (`bytes?_apply`): the contents change as `change?` says, or not at all.
* A run (`bytes?_run`): the changes one after another.
-/

namespace GuestShell.FileTree

open GuestShell.Path

variable {t u : FileTree} {now : Moment} {handle k : Nat} {f : OpenFile} {p : Path}
  {data original chunk : Bytes}

/-! ## Changes -/

/-- What can be done to the contents of a file. -/
inductive Change where
  /-- A chunk is put at a position. -/
  | stored (position : Nat) (chunk : Bytes)
  /-- The file is cut or filled up with zeros. -/
  | resized (size : Nat)
  deriving DecidableEq

namespace Change

/-- The contents afterwards. -/
def apply : Change → Bytes → Bytes
  | stored position chunk, data => overwritten data position chunk
  | resized size, data => FileTree.resized data size

/-- The length afterwards. -/
def length : Change → Nat → Nat
  | stored position chunk, n => max n (position + chunk.length)
  | resized size, _ => size

/-- The byte that the change leaves at an offset, if it decides it: a chunk has the bytes it covers,
and beyond a new length whatever was there is lost. -/
def byte? (i : Nat) : Change → Option UInt8
  | stored position chunk => if position ≤ i then chunk[i - position]? else none
  | resized size => if size ≤ i then some 0 else none

end Change

/-- The byte at an offset after changes, of which the latest comes first: the latest that decides it
tells it, and without any it is the original one, or zero beyond the original end. -/
def lastByte (original : Bytes) (changes : List Change) (i : Nat) : UInt8 :=
  (changes.findSome? (Change.byte? i)).getD (original.getD i 0)

lemma getD_take_of_lt (data : Bytes) {n i : Nat} (h : i < n) :
    (data.take n).getD i 0 = data.getD i 0 := by
  rw [List.getD_eq_getElem?_getD, List.getElem?_take_of_lt h, List.getD_eq_getElem?_getD]

lemma getD_drop (data : Bytes) (n i : Nat) : (data.drop n).getD i 0 = data.getD (n + i) 0 := by
  rw [List.getD_eq_getElem?_getD, List.getElem?_drop, List.getD_eq_getElem?_getD]

lemma getD_resized (data : Bytes) (size i : Nat) :
    (resized data size).getD i 0 = if size ≤ i then 0 else data.getD i 0 := by
  split_ifs with hsize
  · exact List.getD_eq_default _ _ (by rwa [length_resized])
  rw [resized]
  by_cases hi : i < data.length
  · rw [List.getD_append _ _ _ _ (by rw [List.length_take]; omega), getD_take_of_lt data (by omega)]
  · have htake : (data.take size).length = data.length := by
      rw [List.length_take]
      omega
    rw [List.getD_append_right _ _ _ _ (by omega), List.getD_replicate 0 (by omega),
      List.getD_eq_default data _ (by omega)]

lemma getD_overwritten (data : Bytes) (position : Nat) (chunk : Bytes) (i : Nat) :
    (overwritten data position chunk).getD i 0 =
      if position ≤ i then chunk.getD (i - position) (data.getD i 0) else data.getD i 0 := by
  -- the contents, with zeros after them where the chunk would not fit otherwise
  obtain ⟨long, hlong, hlength, hoverwritten⟩ : ∃ long : Bytes,
      (∀ i, long.getD i 0 = data.getD i 0) ∧ position + chunk.length ≤ long.length ∧
        overwritten data position chunk =
          long.take position ++ chunk ++ long.drop (position + chunk.length) := by
    by_cases hshort : data.length < position + chunk.length
    · refine ⟨resized data (position + chunk.length), fun i => ?_, (length_resized _ _).ge, ?_⟩
      · rw [getD_resized]
        split_ifs with hi
        · exact (List.getD_eq_default _ _ (by omega)).symm
        · rfl
      · simp only [overwritten, if_pos hshort]
    · exact ⟨data, fun _ => rfl, Nat.not_lt.1 hshort, by simp only [overwritten, if_neg hshort]⟩
  have htake : (long.take position).length = position := by
    rw [List.length_take]
    omega
  rw [hoverwritten, List.append_assoc, ← hlong i]
  split_ifs with hi
  · rw [List.getD_append_right _ _ _ _ (by omega), htake]
    by_cases hinside : i - position < chunk.length
    · rw [List.getD_append _ _ _ _ hinside, List.getD_eq_getElem _ _ hinside,
        List.getD_eq_getElem _ _ hinside]
    · rw [List.getD_append_right _ _ _ _ (by omega), List.getD_eq_default chunk _ (by omega),
        getD_drop]
      congr 1
      omega
  · rw [List.getD_append _ _ _ _ (by omega), getD_take_of_lt long (by omega)]

/-- **What one change does to a byte.** -/
lemma Change.getD_apply (c : Change) (data : Bytes) (i : Nat) :
    (c.apply data).getD i 0 = (c.byte? i).getD (data.getD i 0) := by
  cases c with
  | stored position chunk =>
    rw [apply, getD_overwritten, byte?]
    split_ifs
    · exact List.getD_eq_getElem?_getD
    · rfl
  | resized size =>
    rw [apply, getD_resized, byte?]
    split_ifs <;> rfl

lemma Change.length_apply (c : Change) (data : Bytes) :
    (c.apply data).length = c.length data.length := by
  cases c with
  | stored position chunk => exact length_overwritten data position chunk
  | resized size => exact length_resized data size

/-- Changes one after another, of which the latest comes first. -/
def changed (original : Bytes) (changes : List Change) : Bytes :=
  changes.foldr Change.apply original

lemma getD_changed (original : Bytes) (changes : List Change) (i : Nat) :
    (changed original changes).getD i 0 = lastByte original changes i := by
  induction changes with
  | nil => rfl
  | cons c changes ih =>
    rw [changed, List.foldr_cons, Change.getD_apply, ← changed, ih, lastByte, lastByte,
      List.findSome?_cons]
    cases c.byte? i <;> rfl

lemma length_changed (original : Bytes) (changes : List Change) :
    (changed original changes).length = changes.foldr Change.length original.length := by
  induction changes with
  | nil => rfl
  | cons c changes ih => rw [changed, List.foldr_cons, Change.length_apply, ← changed, ih]; rfl

/-! ## Requests -/

/-- Where a write through an open file begins, given the length of its file. -/
def start (f : OpenFile) (length : Nat) : Nat :=
  if f.append then length else f.position

/-- What a request changes in the file at a place, if it goes through. -/
def change? (p : Path) (t : FileTree) : Operation → Option Change
  | .write handle chunk =>
    match t.opened.get? handle, t.file? p with
    | some f, some (data, _) =>
      if f.path = p ∧ f.writable = true ∧ start f data.length + chunk.length ≤ maxLength then
        some (.stored (start f data.length) chunk)
      else none
    | _, _ => none
  | .setLength handle size =>
    match t.opened.get? handle with
    | some f => if f.path = p ∧ size ≤ maxLength then some (.resized size) else none
    | none => none
  | _ => none

/-- The request does not move, remove, replace or empty the file at a place; it moves nothing to a place
above it either. -/
def Operation.Spares (p : Path) : Operation → Prop
  | .load files => ∀ f ∈ files, ofText f.path ≠ p
  | .openPath path mode => ofText path = p → mode.truncate = false
  | .removeFile path => ofText path ≠ p
  | .rename source target => ¬covers (ofText source) p = true ∧ ¬covers (ofText target) p = true
  | _ => True

/-- The contents of the file at a place. -/
def bytes? (t : FileTree) (p : Path) : Option Bytes := (t.file? p).map Prod.fst

lemma bytes?_eq_some_iff : t.bytes? p = some data ↔ ∃ m, t.node? p = some (.file data m) := by
  simp only [bytes?, Option.map_eq_some_iff, Prod.exists, file?_eq_some_iff]
  constructor
  · rintro ⟨data', m, hn, rfl⟩
    exact ⟨m, hn⟩
  · rintro ⟨m, hn⟩
    exact ⟨data, m, hn, rfl⟩

lemma bytes?_withFile (q : Path) (m : Moment) :
    (t.withNode q (.file data m)).bytes? p = if q = p then some data else t.bytes? p := by
  rw [bytes?, file?_withFile]
  split_ifs <;> rfl

/-- A write that is allowed and has room goes through. -/
lemma write_ok {m : Moment} (hf : t.opened.get? handle = some f) (hw : f.writable = true)
    (hn : t.node? f.path = some (.file data m))
    (hroom : start f data.length + chunk.length ≤ maxLength) :
    write now handle chunk t = .ok chunk.length
      ((t.withNode f.path (.file (overwritten data (start f data.length) chunk) now)).withPosition
        handle (start f data.length + chunk.length)) := by
  rw [write, bind_ok (openFile_ok hf)]
  simp only [hw, Bool.not_true, Bool.false_eq_true, if_false, bind_ok (fileAt_ok hn)]
  rw [start] at hroom
  simp only [if_neg (Nat.not_lt.2 hroom)]
  rfl

/-- A write that is not allowed or has no room is refused. -/
lemma write_refused {m : Moment} (now : Moment) (hf : t.opened.get? handle = some f)
    (hn : t.node? f.path = some (.file data m))
    (h : ¬(f.writable = true ∧ start f data.length + chunk.length ≤ maxLength)) :
    ∃ e, write now handle chunk t = .error e t := by
  rw [write, bind_ok (openFile_ok hf)]
  cases hw : f.writable with
  | false => exact ⟨_, rfl⟩
  | true =>
    have hfull : maxLength < (if f.append then data.length else f.position) + chunk.length :=
      Nat.not_le.1 fun hroom => h ⟨hw, hroom⟩
    simp only [Bool.not_true, Bool.false_eq_true, if_false, bind_ok (fileAt_ok hn), if_pos hfull]
    exact ⟨_, rfl⟩

lemma bytes?_write (hp : t.bytes? p = some data) (handle : Nat) (chunk : Bytes) :
    (after (write now handle chunk) t).bytes? p =
      some (((change? p t (.write handle chunk)).toList).foldr Change.apply data) := by
  obtain ⟨m, hn⟩ := bytes?_eq_some_iff.1 hp
  have hfile := file?_eq_some_iff.2 hn
  cases hf : t.opened.get? handle with
  | none =>
    have herror : write now handle chunk t = .error .badHandle t := by
      rw [write]
      refine bind_error ?_
      rw [openFile, get_bind, hf]
      rfl
    rw [after_error herror, hp, change?, hf]
    rfl
  | some f =>
    by_cases hpath : f.path = p
    · subst hpath
      by_cases hgoes : f.writable = true ∧ start f data.length + chunk.length ≤ maxLength
      · have hchange : change? f.path t (.write handle chunk) =
            some (.stored (start f data.length) chunk) := by
          simp only [change?, hf, hfile, hgoes, and_self, if_true]
        rw [after_ok (write_ok hf hgoes.1 hn hgoes.2), hchange]
        exact (bytes?_withFile _ _).trans (if_pos rfl)
      · obtain ⟨e, herror⟩ := write_refused now hf hn hgoes
        have hchange : change? f.path t (.write handle chunk) = none := by
          simp only [change?, hf, hfile, hgoes, true_and, if_false]
        rw [after_error herror, hp, hchange]
        rfl
    · have hchange : change? p t (.write handle chunk) = none := by
        simp only [change?, hf, hfile, hpath, false_and, if_false]
      rw [hchange]
      rcases write_cases now handle chunk t with ⟨e, hrun⟩ | ⟨g, _, _, _, hg, -, -, -, hrun⟩
      · rw [after_error hrun, hp]
        rfl
      · obtain rfl := Option.some.inj (hf.symm.trans hg)
        rw [after_ok hrun]
        exact ((bytes?_withFile _ _).trans (if_neg hpath)).trans hp

/-- A length that a file can have is set. -/
lemma setLength_ok {m : Moment} {size : Nat} (hf : t.opened.get? handle = some f)
    (hn : t.node? f.path = some (.file data m)) (hsize : size ≤ maxLength) :
    setLength now handle size t = .ok () (t.withNode f.path (.file (resized data size) now)) := by
  have hplace : handlePath handle t = .ok f.path t := bind_ok (openFile_ok hf)
  rw [setLength, bind_ok hplace]
  simp only [bind_ok (fileAt_ok hn), if_neg (Nat.not_lt.2 hsize)]
  rfl

lemma bytes?_setLength (hp : t.bytes? p = some data) (handle size : Nat) :
    (after (setLength now handle size) t).bytes? p =
      some (((change? p t (.setLength handle size)).toList).foldr Change.apply data) := by
  obtain ⟨m, hn⟩ := bytes?_eq_some_iff.1 hp
  rcases setLength_room now handle size t with ⟨e, -, hno, hrun⟩ | ⟨⟨hlong, -⟩, hrun⟩ |
    ⟨hsize, f, data', m', hf, hn', hrun⟩
  · rw [after_error hrun, hp]
    cases hf : t.opened.get? handle with
    | none => simp [change?, hf]
    | some f =>
      by_cases hpath : f.path = p
      · -- nothing but its length can be against it
        subst hpath
        by_cases hsize : size ≤ maxLength
        · rw [setLength_ok hf hn hsize] at hrun
          cases hrun
        · simp [change?, hf, hsize]
      · simp [change?, hf, hpath]
  · rw [after_error hrun, hp]
    cases hf : t.opened.get? handle with
    | none => simp [change?, hf]
    | some f => simp [change?, hf, Nat.not_le.2 hlong]
  · rw [after_ok hrun, bytes?_withFile]
    by_cases hpath : f.path = p
    · subst hpath
      cases hn.symm.trans hn'
      simp [change?, hf, hsize, Change.apply]
    · simp [change?, hf, hpath, hp]

lemma accepted_subset (files : List SavedFile) (t : FileTree) : accepted now files t ⊆ files := by
  induction files generalizing t with
  | nil => exact List.Subset.refl _
  | cons f files ih =>
    rw [accepted]
    cases loadFile now f t with
    | ok _ u => exact List.cons_subset_cons f (ih u)
    | error _ u => exact List.subset_cons_of_subset f (ih u)

/-- A file that no request replaces is as it was, whatever else is loaded. -/
lemma bytes?_load {files : List SavedFile} (hfiles : ∀ f ∈ files, ofText f.path ≠ p) :
    (load now files t).bytes? p = t.bytes? p := by
  have hnone : latest p (accepted now files t) = none := by
    cases h : latest p (accepted now files t) with
    | none => rfl
    | some f =>
      obtain ⟨hmem, hp⟩ := mem_of_latest h
      exact absurd hp (hfiles f (accepted_subset files t hmem))
  rw [bytes?, file?_load, hnone]
  rfl

/-- Whether a request is one that can change contents in place. -/
def Operation.rewrites : Operation → Bool
  | .write .. | .setLength .. => true
  | _ => false

/-- All other requests leave the contents that they spare as they are. -/
lemma LeftBy.bytes?_eq {op : Operation} (h : LeftBy now t op u) (hop : op.Spares p)
    (hkeeps : op.rewrites = false) (hp : t.bytes? p = some data) : u.bytes? p = some data := by
  obtain ⟨m, hn⟩ := bytes?_eq_some_iff.1 hp
  have same : ∀ v : FileTree, v.node? p = t.node? p → v.bytes? p = some data := fun v hv =>
    bytes?_eq_some_iff.2 ⟨m, hv.trans hn⟩
  -- what can be made or taken away is no file
  have other : ∀ q, (∀ data m, t.node? q ≠ some (.file data m)) → p ≠ q := by
    rintro q hq rfl
    exact hq data m hn
  cases h with
  | resized | written => cases hkeeps
  | kept | closed | read | sought => exact same _ rfl
  | loaded files => exact (bytes?_load hop).trans hp
  | wayMade path => exact (congrArg (Option.map Prod.fst) (file?_makeMissing _ p)).trans hp
  | @found path mode =>
    by_cases hpath : ofText path = p
    · rw [hop hpath]
      exact same _ rfl
    · split_ifs
      · exact same _ ((node?_withNode t _ p _).trans (if_neg (Ne.symm hpath)))
      · exact same _ rfl
  | created absent =>
    exact same _ ((node?_withNode t _ p _).trans (if_neg (other _ (by simp [absent]))))
  | directoryMade absent =>
    exact same _ ((node?_withNode t _ p _).trans (if_neg (other _ (by simp [absent]))))
  | fileRemoved => exact same _ ((node?_withoutNode t _ p).trans (if_neg (Ne.symm hop)))
  | directoryRemoved _ directory =>
    obtain ⟨m', hdir⟩ := directory
    exact same _ ((node?_withoutNode t _ p).trans (if_neg (other _ (by simp [hdir]))))
  | @moved source target =>
    have hroot : ofText target ≠ root := fun heq => hop.2 (heq ▸ root_covers p)
    exact same _ (node?_transplanted_of_not_covers (adrift_ofText target) hroot hop.1 hop.2)

/-- **One request changes a file as `change?` says, or not at all.** -/
theorem bytes?_apply (hp : t.bytes? p = some data) (now : Moment) {op : Operation}
    (hop : op.Spares p) :
    (op.apply now t).bytes? p = some ((change? p t op).toList.foldr Change.apply data) := by
  cases op with
  | write handle chunk => exact bytes?_write hp handle chunk
  | setLength handle size => exact bytes?_setLength hp handle size
  | load | makeDirectories | openPath | close | read | seek | makeDirectory | removeFile
  | removeDirectory | rename => exact (leftBy_apply now _ t).bytes?_eq hop rfl hp

/-! ## Runs -/

/-- The changes that a run of requests makes to the file at a place, the latest first. -/
def changes (p : Path) : List (Moment × Operation) → FileTree → List Change
  | [], _ => []
  | call :: calls, t => changes p calls (call.2.apply call.1 t) ++ (change? p t call.2).toList

/-- **A run changes a file as the changes of its requests say**, one after another. -/
theorem bytes?_run (hp : t.bytes? p = some data) {calls : List (Moment × Operation)}
    (hcalls : ∀ call ∈ calls, call.2.Spares p) :
    (run calls t).bytes? p = some (changed data (changes p calls t)) := by
  induction calls generalizing t data with
  | nil => exact hp
  | cons call calls ih =>
    obtain ⟨hcall, hcalls⟩ := List.forall_mem_cons.1 hcalls
    have hstep := ih (bytes?_apply hp call.1 hcall) hcalls
    rw [changed, changes, List.foldr_append]
    exact hstep

lemma sound_run (hs : t.opened.Sound) (calls : List (Moment × Operation)) :
    (run calls t).opened.Sound := by
  induction calls generalizing t with
  | nil => exact hs
  | cons call calls ih => exact ih ((openedBy_apply call.1 call.2 t).sound hs)

/-- At the end of the contents there is nothing to overwrite. -/
lemma overwritten_length (data chunk : Bytes) : overwritten data data.length chunk = data ++ chunk := by
  have hend : ∀ extra : Bytes, (data ++ extra).take data.length = data := fun extra => by
    rw [List.take_left]
  rw [overwritten]
  split_ifs with hlong
  · have hdrop : (resized data (data.length + chunk.length)).drop (data.length + chunk.length) = [] :=
      List.drop_of_length_le (length_resized _ _).le
    rw [hdrop, List.append_nil, resized, List.take_of_length_le (Nat.le_add_right _ _), hend]
  · have hchunk : chunk = [] := List.length_eq_zero_iff.1 (by omega)
    subst hchunk
    simp

/-- **The last writer wins at every offset.**  The file after any run that spares it is as long as its
changes make it, and has at each offset the byte of the latest change that decides it.  A handle that
can be read from gives these bytes, from its position on and as many as there are; one that can be
written to writes at its position, or at the end; and no handle is moved by what goes through
others. -/
theorem last_writer_wins (hs : t.opened.Sound) {m : Moment}
    (hp : t.node? p = some (.file original m)) {calls : List (Moment × Operation)}
    (hcalls : ∀ call ∈ calls, call.2.Spares p) :
    ∃ data m', (run calls t).node? p = some (.file data m') ∧
      data.length = (changes p calls t).foldr Change.length original.length ∧
      (∀ i < data.length, data[i]? = some (lastByte original (changes p calls t) i)) ∧
      ∀ k f, (run calls t).opened.get? k = some f → f.path = p →
        (f.readable = true → ∀ len, ∃ chunk u, read k len (run calls t) = .ok chunk u ∧
          chunk.length = min len (data.length - f.position) ∧
          (∀ i < chunk.length,
            chunk[i]? = some (lastByte original (changes p calls t) (f.position + i))) ∧
          u.opened.get? k = some { f with position := f.position + chunk.length }) ∧
        (f.writable = true → ∀ now chunk, start f data.length + chunk.length ≤ maxLength →
          ∃ u, write now k chunk (run calls t) = .ok chunk.length u ∧
            u.node? p = some (.file
              (if f.append then data ++ chunk else overwritten data f.position chunk) now) ∧
            u.opened.get? k = some { f with position := start f data.length + chunk.length }) ∧
        ∀ (now : Moment) (op : Operation), op.Spares p → op.handle? ≠ some k →
          (op.apply now (run calls t)).opened.get? k = some f := by
  obtain ⟨m', hn⟩ := bytes?_eq_some_iff.1 (bytes?_run (bytes?_eq_some_iff.2 ⟨m, hp⟩) hcalls)
  have hbytes : ∀ i < (changed original (changes p calls t)).length,
      (changed original (changes p calls t))[i]? =
        some (lastByte original (changes p calls t) i) := fun i hi => by
    rw [← getD_changed, List.getElem?_eq_getElem hi, List.getD_eq_getElem _ _ hi]
  refine ⟨_, m', hn, length_changed _ _, hbytes, ?_⟩
  generalize changed original (changes p calls t) = data at hn hbytes ⊢
  rintro k f hf rfl
  refine ⟨fun hreadable len => ?_, fun hwritable now chunk hroom => ?_, fun now op hop hhandle => ?_⟩
  · refine ⟨_, _, read_ok hf hreadable hn len, ?_, fun i hi => ?_, get?_withPosition hf _⟩
    · rw [List.length_take, List.length_drop]
    · rw [List.length_take, List.length_drop] at hi
      rw [List.getElem?_take_of_lt (by omega), List.getElem?_drop]
      exact hbytes _ (by omega)
  · refine ⟨_, write_ok hf hwritable hn hroom, ?_, get?_withPosition hf _⟩
    show ((run calls t).withNode f.path _).node? f.path = _
    rw [node?_withNode, if_pos rfl, start]
    split_ifs
    · rw [overwritten_length]
    · rfl
  · refine (openedBy_apply now op _).get?_eq (sound_run hs calls) hf hhandle ?_
    rintro source target rfl -
    exact hop.1

/-- A file that three handles stand on: one to read and write, one to append, one to read. -/
def shared : FileTree :=
  run [(1, .load [⟨"/a", 1, [104, 101, 108, 108, 111]⟩]),
    (2, .openPath "/a" ⟨true, true, false, false, false, false⟩),
    (2, .openPath "/a" ⟨false, true, false, false, true, false⟩), (2, .openPath "/a" {})] (fresh 0)

/-- What was appended is cut off again, and a write beyond the end leaves a gap. -/
theorem last_writer_wins_shared :
    let calls : List (Moment × Operation) :=
      [(3, .write 1 [33, 33]), (4, .seek 0 (.start 1)), (5, .write 0 [97]), (6, .setLength 0 3),
        (7, .seek 0 (.start 5)), (8, .write 0 [63]), (9, .read 2 1)]
    changes (ofText "/a") calls shared =
        [.stored 5 [63], .resized 3, .stored 1 [97], .stored 5 [33, 33]] ∧
      ∃ chunk u, read 2 9 (run calls shared) = .ok chunk u ∧ chunk = [97, 108, 0, 0, 63] := by
  intro calls
  have hsound : shared.opened.Sound := sound_run Slots.sound_empty _
  have hnode : shared.node? (ofText "/a") = some (.file [104, 101, 108, 108, 111] 1) := by
    decide +kernel
  have hspares : ∀ call ∈ calls, call.2.Spares (ofText "/a") := by
    simp [calls, Operation.Spares]
  have hchanges : changes (ofText "/a") calls shared =
      [.stored 5 [63], .resized 3, .stored 1 [97], .stored 5 [33, 33]] := by decide +kernel
  have hopened : (run calls shared).opened.get? 2 = some ⟨ofText "/a", 1, true, false, false⟩ := by
    decide +kernel
  obtain ⟨data, m, -, hlength, -, hhandles⟩ := last_writer_wins hsound hnode hspares
  obtain ⟨hreads, -⟩ := hhandles 2 _ hopened rfl
  obtain ⟨chunk, u, hread, hchunk, hbytes, -⟩ := hreads rfl 9
  rw [hchanges] at hlength hbytes
  have hfive : chunk.length = 5 := by
    rw [hchunk, hlength]
    rfl
  refine ⟨hchanges, chunk, u, hread, List.ext_getElem? fun i => ?_⟩
  by_cases hi : i < 5
  · rw [hbytes i (hfive ▸ hi)]
    revert i
    decide
  · rw [List.getElem?_eq_none (by omega), List.getElem?_eq_none (by simpa using hi)]

end GuestShell.FileTree
