import GuestShell.Proofs.FileTree.Handles
import GuestShell.Proofs.FileTree.Reload

/-!
# A failure changes nothing

Most operations check first and change the tree at the end, so a failure leaves the tree as it was,
whatever the tree is (`Atomic`).  Making the directories on the way to a place is different: it fills
the gaps as it walks, and what it makes before it fails it does not take away again.

In a well-formed tree it never fails after it has made something.  Below a place without a node there
are no nodes (`WellFormed.absent_of_isChain`), so once the walk has come to a gap it finds nothing but
gaps, and where nothing is nothing can be in the way (`makeMissing_error`).  Of a tree that is only
reached by requests it follows that no failure of any request has changed it
(`failure_changes_nothing`).
-/

namespace GuestShell.FileTree

open GuestShell.Path

variable {t u : FileTree} {now : Moment}

/-! ## Directories one inside the other -/

/-- Where a directory is missing, nothing is further down. -/
lemma WellFormed.absent_of_isChain (h : t.WellFormed) {p : Path} {ps : List Path}
    (chain : (p :: ps).IsChain fun q r => r.adrift = false ∧ r.parent? = some q)
    (hp : t.node? p = none) : ∀ q ∈ ps, t.node? q = none := by
  induction ps generalizing p with
  | nil => simp
  | cons q ps ih =>
    obtain ⟨⟨-, hparent⟩, chain⟩ := List.isChain_cons_cons.1 chain
    have hq : t.node? q = none := by
      by_contra hne
      obtain ⟨n, hn⟩ := Option.ne_none_iff_exists'.1 hne
      obtain ⟨m, hm⟩ := h.isHeld hn p hparent
      rw [hp] at hm
      cases hm
    intro r hr
    rcases List.mem_cons.1 hr with rfl | hr
    · exact hq
    · exact ih chain hq r hr

/-- **When directories cannot be made, none was made**: what is in the way is met first. -/
lemma makeMissing_error (h : t.WellFormed) {r : Path} {ps : List Path}
    (chain : (r :: ps).IsChain fun q r => r.adrift = false ∧ r.parent? = some q) {e : FileError}
    (hrun : makeMissing now ps t = .error e u) : u = t := by
  induction ps generalizing r with
  | nil => cases hrun
  | cons p ps ih =>
    have chain := (List.isChain_cons_cons.1 chain).2
    rcases makeMissing_cons now p ps t with ⟨-, hcons⟩ | ⟨e', hcons⟩ | ⟨hnone, hcons⟩
    · exact ih chain (hcons ▸ hrun)
    · rw [hcons] at hrun
      cases hrun
      rfl
    · -- the rest of the way is missing too, so it can be made
      have hrest := h.absent_of_isChain chain hnone
      obtain ⟨v, hv⟩ : ∃ v, makeMissing now ps (t.withNode p (.directory now)) = .ok () v := by
        refine exists_makeMissing now fun q hq n hn => ?_
        rw [node?_withNode, hrest q hq] at hn
        split_ifs at hn
        exact ⟨now, (Option.some.inj hn).symm⟩
      rw [hcons, hv] at hrun
      cases hrun

lemma makeDirectories_error (h : t.WellFormed) (path : String) {e : FileError}
    (herror : makeDirectories now (ofText path) t = .error e u) : u = t :=
  makeMissing_error h (isChain_way (adrift_ofText path)) herror

/-! ## Requests that answer -/

/-- What can be asked about a tree and be refused; whether something is at a place can always be
told. -/
inductive Question where
  | metadata (path : String)
  | handleMetadata (handle : Nat)
  | list (path : String)

/-- An operation, or a question. -/
inductive Request where
  | operation (op : Operation)
  | question (q : Question)

/-- The operation as an action; loading does not fail. -/
def Operation.attempt (now : Moment) : Operation → Action Unit
  | .load files => modify (FileTree.load now files)
  | .makeDirectories path => FileTree.makeDirectories now (ofText path)
  | .setLength handle size => FileTree.setLength now handle size
  | .openPath path mode => do let _ ← FileTree.openPath now (ofText path) mode
  | .close handle => FileTree.close handle
  | .read handle len => do let _ ← FileTree.read handle len
  | .write handle chunk => do let _ ← FileTree.write now handle chunk
  | .seek handle origin => do let _ ← FileTree.seek handle origin
  | .makeDirectory path => FileTree.makeDirectory now (ofText path)
  | .removeFile path => FileTree.removeFile (ofText path)
  | .removeDirectory path => FileTree.removeDirectory (ofText path)
  | .rename source target => FileTree.rename (ofText source) (ofText target)

/-- The question as an action. -/
def Question.attempt : Question → Action Unit
  | .metadata path => do let _ ← FileTree.metadata (ofText path)
  | .handleMetadata handle => do let _ ← FileTree.handleMetadata handle
  | .list path => do let _ ← FileTree.list (ofText path)

def Request.attempt (now : Moment) : Request → Action Unit
  | .operation op => op.attempt now
  | .question q => q.attempt

/-- One request after another, each at a time of its own; those that fail are passed over. -/
def serve (requests : List (Moment × Request)) (t : FileTree) : FileTree :=
  requests.foldl (fun t request => after (request.2.attempt request.1) t) t

lemma after_attempt (op : Operation) (t : FileTree) :
    after (op.attempt now) t = op.apply now t := by
  cases op <;> first | rfl | exact after_discard

lemma Question.looks (q : Question) : Looks q.attempt := by
  intro t
  cases q with
  | metadata path => exact after_discard.trans (looks_metadata _ t)
  | handleMetadata handle => exact after_discard.trans (looks_handleMetadata _ t)
  | list path => exact after_discard.trans (looks_list _ t)

lemma WellFormed.request (h : t.WellFormed) (request : Request) :
    (after (request.attempt now) t).WellFormed := by
  cases request with
  | operation op =>
    rw [Request.attempt, after_attempt]
    exact (edits_apply now op h).wellFormed h
  | question q =>
    rw [Request.attempt, q.looks]
    exact h

lemma WellFormed.serve (h : t.WellFormed) (requests : List (Moment × Request)) :
    (serve requests t).WellFormed := by
  induction requests generalizing t with
  | nil => exact h
  | cons request requests ih => exact ih (h.request request.2)

/-! ## Failures -/

/-- What is left of the answer is only that there was one. -/
lemma Atomic.discard {α : Type} {a : Action α} (h : Atomic a) :
    Atomic (a >>= fun _ => pure ()) := by
  intro t e u herror
  cases ha : a t with
  | ok v u' => rw [bind_ok ha] at herror; cases herror
  | error e' u' =>
    rw [bind_error ha] at herror
    cases herror
    exact h t _ _ ha

lemma atomic_close (handle : Nat) : Atomic (close handle) :=
  atomic_of_cases fun t => (close_cases handle t).imp (fun h => ⟨_, h⟩) fun h => ⟨_, _, h⟩

lemma Looks.atomic {α : Type} {a : Action α} (h : Looks a) : Atomic a := by
  intro t e u herror
  rw [← after_error herror]
  exact h t

/-- An operation that fails on a well-formed tree leaves it as it was. -/
lemma Operation.failure (h : t.WellFormed) (op : Operation) {e : FileError}
    (herror : op.attempt now t = .error e u) : u = t := by
  cases op with
  | load files => cases herror
  | makeDirectories path => exact makeDirectories_error h path herror
  | setLength handle size => exact atomic_setLength handle size t e u herror
  | openPath path mode => exact (atomic_openPath (ofText path) mode).discard t e u herror
  | close handle => exact atomic_close handle t e u herror
  | read handle len => exact (atomic_read handle len).discard t e u herror
  | write handle chunk => exact (atomic_write handle chunk).discard t e u herror
  | seek handle origin => exact (atomic_seek handle origin).discard t e u herror
  | makeDirectory path => exact atomic_makeDirectory (ofText path) t e u herror
  | removeFile path => exact atomic_removeFile (ofText path) t e u herror
  | removeDirectory path => exact atomic_removeDirectory (ofText path) t e u herror
  | rename source target => exact atomic_rename (ofText source) (ofText target) t e u herror

/-- **Whatever was asked of a fresh tree, a request that fails then changes nothing of it.** -/
theorem failure_changes_nothing (born now : Moment) (requests : List (Moment × Request))
    (request : Request) (e : FileError) (u : FileTree)
    (herror : request.attempt now (serve requests (fresh born)) = .error e u) :
    u = serve requests (fresh born) := by
  have h : (serve requests (fresh born)).WellFormed := (WellFormed.fresh born).serve requests
  cases request with
  | operation op => exact op.failure h herror
  | question q => exact q.looks.atomic _ e u herror

/-- A file is in the way of new directories: none of them is made. -/
theorem failure_changes_nothing_blocked :
    let requests : List (Moment × Request) :=
      [(1, .operation (.makeDirectories "/d")),
        (2, .operation (.openPath "/d/a" ⟨true, true, true, false, false, false⟩))]
    ∃ e u, Request.attempt 3 (.operation (.makeDirectories "/d/a/x/y")) (serve requests (fresh 0)) =
        .error e u ∧ u = serve requests (fresh 0) := by
  intro requests
  have stopped : (Request.attempt 3 (.operation (.makeDirectories "/d/a/x/y"))
      (serve requests (fresh 0)) matches .error ..) = true := by decide +kernel
  cases hrun : Request.attempt 3 (.operation (.makeDirectories "/d/a/x/y"))
      (serve requests (fresh 0)) with
  | ok _ u => simp [hrun] at stopped
  | error e u => exact ⟨e, u, rfl, failure_changes_nothing 0 3 requests _ e u hrun⟩

end GuestShell.FileTree
