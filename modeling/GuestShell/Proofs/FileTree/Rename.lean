import GuestShell.Proofs.FileTree.Handles
import GuestShell.Proofs.FileTree.Texts

/-!
# A rename moves a subtree without loss

What a rename is to do is told by texts (`Relocated`): whatever is at the source or below it is found
where its text says with the source's text replaced by the target's, whatever was at the target is
gone, and nothing else has changed.  Open files follow the places they are at.

The nodes are moved one after another, and that none of them is lost on the way is the work of
`Transplantable`.  What is left here is that a rename which goes through finds a tree and two places
of this kind, and that names and texts tell the same.
-/

namespace GuestShell.FileTree

open GuestShell.Path

variable {t u : FileTree} {source target : Path}

/-- Everything at and below `source` in the tree `t` has gone to `target` in `u`, open files
included, in the place of what was at `target`. -/
structure Relocated (source target : Path) (t u : FileTree) : Prop where
  moved : ∀ p n, Under source p → t.node? p = some n →
    ∃ q, Corresponds source target p q ∧ u.node? q = some n
  kept : ∀ q n, ¬Under source q → q ≠ target → t.node? q = some n → u.node? q = some n
  /-- Nothing else is in the new tree. -/
  origin : ∀ q n, u.node? q = some n →
    (∃ p, Under source p ∧ t.node? p = some n ∧ Corresponds source target p q) ∨
      (¬Under source q ∧ q ≠ target ∧ t.node? q = some n)
  follows : ∀ k f, t.opened.get? k = some f → Under source f.path →
    ∃ q, Corresponds source target f.path q ∧ u.opened.get? k = some { f with path := q }
  stays : ∀ k f, t.opened.get? k = some f → ¬Under source f.path → u.opened.get? k = some f
  closed : ∀ k, t.opened.get? k = none → u.opened.get? k = none

namespace Transplantable

variable (h : t.Transplantable source target)

include h

/-- Places that move along go where their texts say. -/
lemma corresponds_moved {p : Path} (hp : covers source p = true) :
    Corresponds source target p (Path.moved source target p) :=
  (corresponds_iff h.source_anchored h.source_ne_root h.target_anchored h.target_ne_root hp).2 rfl

lemma relocated : Relocated source target t (t.transplanted source target) := by
  have hunder := fun p => under_iff_covers (p := source) (q := p) h.source_anchored
  have hiff := fun q n => h.node?_transplanted_iff (q := q) (n := n)
  have hget : ∀ k, (t.transplanted source target).opened.get? k = (t.opened.get? k).map fun f =>
      if covers source f.path then { f with path := Path.moved source target f.path } else f :=
    fun k => Slots.get?_map
  constructor
  case moved =>
    intro p n hp hn
    have hcovers := (hunder p).1 hp
    exact ⟨_, h.corresponds_moved hcovers, (hiff _ _).2 (.inl ⟨p, hcovers, hn, rfl⟩)⟩
  case kept =>
    intro q n hq hne hn
    exact (hiff q n).2 (.inr ⟨fun hcovers => hq ((hunder q).2 hcovers), hne, hn⟩)
  case origin =>
    intro q n hn
    rcases (hiff q n).1 hn with ⟨p, hcovers, hp, rfl⟩ | ⟨hcovers, hne, hq⟩
    · exact .inl ⟨p, (hunder p).2 hcovers, hp, h.corresponds_moved hcovers⟩
    · exact .inr ⟨fun hu => hcovers ((hunder q).1 hu), hne, hq⟩
  case follows =>
    intro k f hf hu
    have hcovers := (hunder f.path).1 hu
    exact ⟨_, h.corresponds_moved hcovers, by simp [hget, hf, hcovers]⟩
  case stays =>
    intro k f hf hu
    have hcovers : ¬covers source f.path = true := fun hc => hu ((hunder f.path).2 hc)
    simp [hget, hf, hcovers]
  case closed =>
    intro k hk
    simp [hget, hk]

end Transplantable

/-- **A rename moves a subtree without loss, or changes nothing.** -/
theorem rename_moves_subtree (h : t.Connected) (source target : String) :
    (∀ u, rename (ofText source) (ofText target) t = .ok () u → ofText source ≠ ofText target →
      u.Connected ∧ Relocated (ofText source) (ofText target) t u) ∧
    ∀ e u, rename (ofText source) (ofText target) t = .error e u → u = t := by
  refine ⟨fun u hok hne => ?_, atomic_rename _ _ t⟩
  have hs := adrift_ofText source
  have ht := adrift_ofText target
  rcases rename_cases (ofText source) (ofText target) t with
    ⟨e, herror⟩ | ⟨heq, -⟩ | ⟨can, hmoved⟩
  · rw [herror] at hok
    cases hok
  · exact absurd heq hne
  · rw [hmoved] at hok
    obtain rfl : t.transplanted (ofText source) (ofText target) = u := by injection hok
    exact ⟨h.transplanted hs ht can, (h.transplantable hs ht can).relocated⟩

/-- A directory with a file that is open, beside a file whose text begins as that of the
directory. -/
def neighbours : FileTree :=
  run [(1, .makeDirectories "/a/d"), (2, .openPath "/a/d/f" ⟨true, true, true, false, false, false⟩),
    (3, .write 0 [104, 105]), (4, .openPath "/ab" ⟨true, true, true, false, false, false⟩)] (fresh 0)

/-- The directory takes the place of the file, and the open file follows it; into itself it cannot
go. -/
theorem rename_moves_subtree_neighbours :
    (∃ u, rename (ofText "/a") (ofText "/ab") neighbours = .ok () u ∧ u.Connected ∧
      Relocated (ofText "/a") (ofText "/ab") neighbours u ∧
      u.node? (ofText "/ab/d/f") = some (.file [104, 105] 3) ∧
      u.opened.get? 0 = some ⟨ofText "/ab/d/f", 2, true, true, false⟩) ∧
    ∃ e u, rename (ofText "/a") (ofText "/a/d/x") neighbours = .error e u ∧ u = neighbours := by
  have hconnected : neighbours.Connected := ((WellFormed.fresh 0).run _).connected
  have hne : ofText "/a" ≠ ofText "/ab" := by decide +kernel
  obtain ⟨moves, -⟩ := rename_moves_subtree hconnected "/a" "/ab"
  obtain ⟨-, fails⟩ := rename_moves_subtree hconnected "/a" "/a/d/x"
  constructor
  · have through : (rename (ofText "/a") (ofText "/ab") neighbours matches .ok ..) = true := by
      decide +kernel
    cases hrun : rename (ofText "/a") (ofText "/ab") neighbours with
    | ok _ u =>
      obtain ⟨hu, hmoved⟩ := moves u hrun hne
      have hafter : after (rename (ofText "/a") (ofText "/ab")) neighbours = u := after_ok hrun
      refine ⟨u, rfl, hu, hmoved, ?_⟩
      rw [← hafter]
      decide +kernel
    | error e u => simp [hrun] at through
  · have stopped : (rename (ofText "/a") (ofText "/a/d/x") neighbours matches .error ..) = true := by
      decide +kernel
    cases hrun : rename (ofText "/a") (ofText "/a/d/x") neighbours with
    | ok _ u => simp [hrun] at stopped
    | error e u => exact ⟨e, u, rfl, fails e u hrun⟩

end GuestShell.FileTree
