import GuestShell.Proofs.Dict.Bindings
import GuestShell.Proofs.FileTree.Outcomes
import GuestShell.Proofs.FileTree.Places

/-!
# Moving everything below a place

`transplanted` moves the nodes of a subtree one by one.  Between two moves the tree is in pieces:
some nodes are at their new places, some still at their old ones.  What makes the end result
independent of the order is that old and new places never meet, since neither of the two roots lies
below the other, and that no two nodes have the same new place (`foldl_moveNode`).

So the nodes afterwards are exactly the moved ones and those that were neither below the source nor
at the target (`node?_transplanted_iff`).
-/

namespace GuestShell.FileTree

open GuestShell.Path

/-! ## One node after another -/

/-- Moving one node binds its new place and unbinds its old one. -/
lemma find?_moveNode (source target : Path) {p : Path} {n : Node} {nodes : Dict Path Node}
    (h : nodes.find? p = some n) (q : Path) :
    (moveNode source target nodes p).find? q =
      if q = moved source target p then some n else if q = p then none else nodes.find? q := by
  rw [moveNode, h]
  simp only [Dict.find?_insert, Dict.find?_erase]

/-- A place that is neither left nor reached is as it was. -/
lemma find?_moveNode_of_ne {source target p q : Path} (nodes : Dict Path Node) (hleft : q ≠ p)
    (hreached : q ≠ moved source target p) :
    (moveNode source target nodes p).find? q = nodes.find? q := by
  cases h : nodes.find? p with
  | none => rw [moveNode, h]
  | some n => rw [find?_moveNode source target h, if_neg hreached, if_neg hleft]

lemma find?_foldl_moveNode_of_ne {source target q : Path} {l : List Path} (nodes : Dict Path Node)
    (hleft : q ∉ l) (hreached : ∀ p ∈ l, q ≠ moved source target p) :
    (l.foldl (moveNode source target) nodes).find? q = nodes.find? q := by
  induction l generalizing nodes with
  | nil => rfl
  | cons a l ih =>
    rw [List.mem_cons, not_or] at hleft
    rw [List.foldl_cons, ih _ hleft.2 fun p hp => hreached p (List.mem_cons_of_mem a hp)]
    exact find?_moveNode_of_ne nodes hleft.1 (hreached a List.mem_cons_self)

/-- Moving places makes no new nodes. -/
lemma exists_find?_of_foldl_moveNode {source target q : Path} {n : Node} {l : List Path}
    {nodes : Dict Path Node} (h : (l.foldl (moveNode source target) nodes).find? q = some n) :
    ∃ p, nodes.find? p = some n := by
  induction l generalizing nodes with
  | nil => exact ⟨q, h⟩
  | cons a l ih =>
    obtain ⟨p, hp⟩ := ih h
    cases ha : nodes.find? a with
    | none =>
      rw [moveNode, ha] at hp
      exact ⟨p, hp⟩
    | some k =>
      rw [find?_moveNode source target ha] at hp
      split_ifs at hp
      · exact ⟨a, ha.trans hp⟩
      · exact ⟨p, hp⟩

/-- **What moving the places of a list comes to.**  Their old places are left, and their new places
have their nodes. -/
lemma foldl_moveNode (source target : Path) (l : List Path) (nodes : Dict Path Node)
    (hnodup : l.Nodup) (hbound : ∀ p ∈ l, ∃ n, nodes.find? p = some n)
    (hinj : ∀ p ∈ l, ∀ q ∈ l, moved source target p = moved source target q → p = q)
    (hapart : ∀ p ∈ l, moved source target p ∉ l) :
    (∀ p ∈ l, (l.foldl (moveNode source target) nodes).find? p = none) ∧
    ∀ p ∈ l, (l.foldl (moveNode source target) nodes).find? (moved source target p) =
      nodes.find? p := by
  induction l generalizing nodes with
  | nil => simp
  | cons a l ih =>
    obtain ⟨n, hn⟩ := hbound a (by simp)
    obtain ⟨hal, hnodup⟩ := List.nodup_cons.1 hnodup
    have hstep := find?_moveNode source target hn
    have ha : moved source target a ∉ a :: l := hapart a (by simp)
    -- the places that are still to move are bound as before
    have hkeep : ∀ p ∈ l, (moveNode source target nodes a).find? p = nodes.find? p := by
      intro p hp
      refine find?_moveNode_of_ne nodes ?_ ?_
      · rintro rfl
        exact hal hp
      · rintro rfl
        exact ha (List.mem_cons_of_mem _ hp)
    obtain ⟨hold, hnew⟩ := ih (moveNode source target nodes a) hnodup
      (fun p hp => by rw [hkeep p hp]; exact hbound p (by simp [hp]))
      (fun p hp q hq => hinj p (by simp [hp]) q (by simp [hq]))
      (fun p hp hm => hapart p (by simp [hp]) (List.mem_cons_of_mem _ hm))
    rw [List.foldl_cons]
    constructor
    · intro p hp
      rcases List.mem_cons.1 hp with rfl | hp
      · rw [find?_foldl_moveNode_of_ne _ hal, hstep, if_neg, if_pos rfl]
        · intro h
          rw [← h] at ha
          simp at ha
        · rintro q hq rfl
          exact hapart q (by simp [hq]) (by simp)
      · exact hold p hp
    · intro p hp
      rcases List.mem_cons.1 hp with rfl | hp
      · rw [find?_foldl_moveNode_of_ne _ fun hm => ha (List.mem_cons_of_mem _ hm), hstep,
          if_pos rfl, hn]
        intro q hq heq
        rw [hinj p (by simp) q (by simp [hq]) heq] at hal
        exact hal hq
      · rw [hnew p hp, hkeep p hp]

/-! ## The whole subtree -/

lemma mem_moving_iff {t : FileTree} {source p : Path} :
    p ∈ t.nodes.keys.filter (covers source) ↔
      (∃ n, t.node? p = some n) ∧ covers source p = true := by
  rw [List.mem_filter, Dict.mem_keys_iff]
  rfl

/-- A place at or below neither of the two is as it was. -/
lemma node?_transplanted_of_not_covers {t : FileTree} {source target q : Path}
    (ht : target.adrift = false) (hroot : target ≠ root) (hsq : ¬covers source q = true)
    (htq : ¬covers target q = true) : (t.transplanted source target).node? q = t.node? q := by
  refine find?_foldl_moveNode_of_ne t.nodes (fun hq => hsq (mem_moving_iff.1 hq).2) ?_
  rintro p - rfl
  exact htq (covers_moved ht hroot)

/-- Two places of which neither covers the other; nothing lies below the target. -/
structure Transplantable (t : FileTree) (source target : Path) : Prop where
  present : ∃ n, t.node? source = some n
  source_anchored : source.adrift = false
  target_anchored : target.adrift = false
  target_ne_root : target ≠ root
  outside : ¬covers source target = true
  above : ¬covers target source = true
  vacant : ∀ p n, t.node? p = some n → ¬target.isAbove p = true

namespace Transplantable

variable {t : FileTree} {source target : Path} (h : t.Transplantable source target)

include h

lemma source_ne_root : source ≠ root := by
  rintro rfl
  exact h.outside (covers_iff_eq_or_isAbove.2 (.inr (root_isAbove_iff.2 h.target_ne_root)))

lemma anchored_of_covers {p : Path} (hp : covers source p = true) : p.adrift = false :=
  adrift_of_covers h.source_anchored h.source_ne_root hp

/-- No place lies below both. -/
lemma not_both {p : Path} (hs : covers source p = true) : ¬covers target p = true := by
  intro ht
  rcases covers_or_covers h.source_anchored h.target_anchored (h.anchored_of_covers hs) hs ht with
    hst | hts
  · exact h.outside hst
  · exact h.above hts

lemma covers_target (p : Path) : covers target (moved source target p) = true :=
  covers_moved h.target_anchored h.target_ne_root

lemma anchored_moved (p : Path) : (moved source target p).adrift = false :=
  adrift_moved h.target_anchored h.target_ne_root

/-- **The nodes of the tree afterwards**: the moved ones at their new places, and those that were
neither below the source nor at the target. -/
theorem node?_transplanted_iff {q : Path} {n : Node} :
    (t.transplanted source target).node? q = some n ↔
      (∃ p, covers source p = true ∧ t.node? p = some n ∧ q = moved source target p) ∨
        (¬covers source q = true ∧ q ≠ target ∧ t.node? q = some n) := by
  have hmem : ∀ p, p ∈ t.nodes.keys.filter (covers source) ↔
      (∃ n, t.node? p = some n) ∧ covers source p = true := fun p => mem_moving_iff
  obtain ⟨hold, hnew⟩ := foldl_moveNode source target
    (t.nodes.keys.filter (covers source)) t.nodes (t.nodes.nodup_keys.filter _)
    (fun p hp => ((hmem p).1 hp).1)
    (fun p hp q hq heq => by
      have hsp := ((hmem p).1 hp).2
      have hsq := ((hmem q).1 hq).2
      exact moved_injective h.source_anchored (h.anchored_of_covers hsp) (h.anchored_of_covers hsq)
        hsp hsq heq)
    (fun p _ hm => h.not_both ((hmem _).1 hm).2 (h.covers_target p))
  show ((t.nodes.keys.filter (covers source)).foldl (moveNode source target) t.nodes).find? q =
    some n ↔ _
  constructor
  · intro hq
    by_cases hin : q ∈ t.nodes.keys.filter (covers source)
    · rw [hold q hin] at hq
      cases hq
    by_cases hmv : ∃ p ∈ t.nodes.keys.filter (covers source), q = moved source target p
    · obtain ⟨p, hp, rfl⟩ := hmv
      rw [hnew p hp] at hq
      exact .inl ⟨p, ((hmem p).1 hp).2, hq, rfl⟩
    · rw [find?_foldl_moveNode_of_ne t.nodes hin fun p hp heq => hmv ⟨p, hp, heq⟩] at hq
      refine .inr ⟨fun hsq => hin ((hmem q).2 ⟨⟨n, hq⟩, hsq⟩),
        fun heq => hmv ⟨source, ?_, ?_⟩, hq⟩
      · exact (hmem source).2 ⟨h.present, covers_self source⟩
      · rw [heq, moved_self h.target_anchored h.target_ne_root]
  · rintro (⟨p, hsp, hp, rfl⟩ | ⟨hsq, hne, hq⟩)
    · rw [hnew p ((hmem p).2 ⟨⟨n, hp⟩, hsp⟩)]
      exact hp
    · refine (find?_foldl_moveNode_of_ne t.nodes ?_ ?_).trans hq
      · exact fun hin => hsq ((hmem q).1 hin).2
      · rintro p - rfl
        -- a node that was there already would lie below the target
        rcases covers_iff_eq_or_isAbove.1 (h.covers_target p) with heq | habove
        · exact hne heq.symm
        · exact h.vacant _ _ hq habove

/-- The same, place by place. -/
theorem node?_transplanted (q : Path) : (t.transplanted source target).node? q =
    if covers target q then t.node? (moved target source q)
    else if covers source q then none else t.node? q := by
  refine Option.ext fun n => h.node?_transplanted_iff.trans ?_
  split_ifs with htq hsq
  · have hqa := adrift_of_covers h.target_anchored h.target_ne_root htq
    constructor
    · rintro (⟨p, hsp, hp, rfl⟩ | ⟨-, hne, hq⟩)
      · rwa [moved_moved h.source_anchored h.source_ne_root (h.anchored_of_covers hsp) hsp]
      · rcases covers_iff_eq_or_isAbove.1 htq with heq | habove
        · exact absurd heq.symm hne
        · exact absurd habove (h.vacant q n hq)
    · intro hq
      refine .inl ⟨_, covers_moved h.source_anchored h.source_ne_root, hq, ?_⟩
      exact (moved_moved h.target_anchored h.target_ne_root hqa htq).symm
  · refine iff_of_false ?_ (by simp)
    rintro (⟨p, -, -, rfl⟩ | ⟨hno, -⟩)
    · exact htq (h.covers_target p)
    · exact hno hsq
  · constructor
    · rintro (⟨p, -, -, rfl⟩ | ⟨-, -, hq⟩)
      · exact absurd (h.covers_target p) htq
      · exact hq
    · intro hq
      refine .inr ⟨hsq, ?_, hq⟩
      rintro rfl
      exact htq (covers_self q)

end Transplantable

end GuestShell.FileTree
