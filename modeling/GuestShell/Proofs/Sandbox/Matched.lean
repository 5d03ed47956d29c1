import GuestShell.Sandbox.Process
import GuestShell.Proofs.FileTree.Handles

/-!
# Descriptors and handles

A descriptor that stands for an open file holds a handle of the tree; `handle?` says which one, if
any.  `Matched` says that this is a bijection between the descriptors that hold a handle and the
handles that are open.  Numbers are reused on both sides, so it is kept only because a new number and a
new handle are new, and because both are freed together (`Matched.insert`, `Matched.remove`).
-/

namespace GuestShell

variable {δ : Type}

/-- The handle under a descriptor. -/
def handleAt (handle? : δ → Option Nat) (d : Slots δ) (k : Nat) : Option Nat :=
  (d.get? k).bind handle?

/-- The descriptors that hold handles, and the handles that are open, belong to each other. -/
structure Matched (handle? : δ → Option Nat) (t : FileTree) (d : Slots δ) : Prop where
  opened : t.opened.Sound
  table : d.Sound
  /-- A handle under a descriptor is open. -/
  live : ∀ k h, handleAt handle? d k = some h → (t.opened.get? h).isSome
  /-- No two descriptors hold the same handle. -/
  injective : ∀ k l h, handleAt handle? d k = some h → handleAt handle? d l = some h → k = l
  /-- An open handle is under some descriptor. -/
  covered : ∀ h, (t.opened.get? h).isSome → ∃ k, handleAt handle? d k = some h

variable {handle? : δ → Option Nat} {t u : FileTree} {d : Slots δ} {v : δ} {k l h : Nat}

@[simp] lemma handleAt_empty : handleAt handle? Slots.empty k = none := by
  simp [handleAt]

lemma handleAt_insert (hd : d.Sound) :
    handleAt handle? (d.insert v) k = if k = d.next then handle? v else handleAt handle? d k := by
  rw [handleAt, hd.get?_insert]
  split_ifs <;> rfl

lemma handleAt_remove :
    handleAt handle? (d.remove k) l = if l = k then none else handleAt handle? d l := by
  rw [handleAt, Slots.get?_remove]
  split_ifs <;> rfl

lemma Slots.Sound.handleAt_next (hd : d.Sound) : handleAt handle? d d.next = none := by
  rw [handleAt, hd.get?_next]
  rfl

namespace Matched

/-- At the beginning, there is neither a handle nor a descriptor. -/
lemma empty (ht : t.opened = Slots.empty) : Matched handle? t Slots.empty where
  opened := ht ▸ Slots.sound_empty
  table := Slots.sound_empty
  live := by simp
  injective := by simp
  covered := by simp [ht]

lemma of_sameHandles (hm : Matched handle? t d) (hsame : t.SameHandles u) : Matched handle? u d where
  opened := hsame.sound hm.opened
  table := hm.table
  live k h hk := (hsame.isSome h).trans (hm.live k h hk)
  injective := hm.injective
  covered h hh := hm.covered h ((hsame.isSome h).symm.trans hh)

/-- **A new descriptor for a newly opened file.** -/
theorem insert {f : OpenFile} (hm : Matched handle? t d) (hu : u.opened = t.opened.insert f)
    (hv : handle? v = some t.opened.next) : Matched handle? u (d.insert v) := by
  have hopen (h : Nat) : (u.opened.get? h).isSome ↔ h = t.opened.next ∨ (t.opened.get? h).isSome := by
    rw [hu, hm.opened.get?_insert]
    split_ifs with heq <;> simp [heq]
  have hnew : (t.opened.get? t.opened.next).isSome = false := by rw [hm.opened.get?_next]; rfl
  -- the new handle was not open, so no descriptor held it
  have hfree (k : Nat) : handleAt handle? d k ≠ some t.opened.next := by
    intro hk
    rw [hm.live k _ hk] at hnew
    cases hnew
  refine ⟨hu ▸ hm.opened.insert, hm.table.insert, ?_, ?_, ?_⟩
  · intro k h hk
    rw [handleAt_insert hm.table] at hk
    split_ifs at hk
    · exact (hopen h).2 (.inl (Option.some.inj (hv.symm.trans hk)).symm)
    · exact (hopen h).2 (.inr (hm.live k h hk))
  · intro k l h hk hl
    rw [handleAt_insert hm.table] at hk hl
    split_ifs at hk hl with hkn hln hln
    · rw [hkn, hln]
    · obtain rfl := Option.some.inj (hv.symm.trans hk)
      exact absurd hl (hfree l)
    · obtain rfl := Option.some.inj (hv.symm.trans hl)
      exact absurd hk (hfree k)
    · exact hm.injective k l h hk hl
  · intro h hh
    rcases (hopen h).1 hh with rfl | hold
    · exact ⟨d.next, by rw [handleAt_insert hm.table, if_pos rfl, hv]⟩
    · obtain ⟨k, hk⟩ := hm.covered h hold
      have hne : k ≠ d.next := by
        rintro rfl
        rw [hm.table.handleAt_next] at hk
        cases hk
      exact ⟨k, by rw [handleAt_insert hm.table, if_neg hne, hk]⟩

/-- A new descriptor for something else. -/
lemma insert_none (hm : Matched handle? t d) (hv : handle? v = none) :
    Matched handle? t (d.insert v) := by
  have hsame (k : Nat) : handleAt handle? (d.insert v) k = handleAt handle? d k := by
    rw [handleAt_insert hm.table]
    split_ifs with heq
    · rw [heq, hm.table.handleAt_next, hv]
    · rfl
  exact ⟨hm.opened, hm.table.insert, by simpa only [hsame] using hm.live,
    by simpa only [hsame] using hm.injective, by simpa only [hsame] using hm.covered⟩

/-- **A descriptor freed together with its handle.** -/
theorem remove (hm : Matched handle? t d) (hk : handleAt handle? d k = some h)
    (hu : u.opened = t.opened.remove h) : Matched handle? u (d.remove k) := by
  have hopen (i : Nat) : (u.opened.get? i).isSome ↔ i ≠ h ∧ (t.opened.get? i).isSome := by
    rw [hu, Slots.get?_remove]
    split_ifs with heq <;> simp [heq]
  have hat {l i : Nat} (hl : handleAt handle? (d.remove k) l = some i) :
      l ≠ k ∧ handleAt handle? d l = some i := by
    rw [handleAt_remove] at hl
    split_ifs at hl with heq
    exact ⟨heq, hl⟩
  refine ⟨hu ▸ hm.opened.remove, hm.table.remove, ?_, ?_, ?_⟩
  · intro l i hl
    obtain ⟨hne, hl⟩ := hat hl
    refine (hopen i).2 ⟨?_, hm.live l i hl⟩
    rintro rfl
    exact hne (hm.injective l k i hl hk)
  · intro l l' i hl hl'
    exact hm.injective l l' i (hat hl).2 (hat hl').2
  · intro i hi
    obtain ⟨hne, hi⟩ := (hopen i).1 hi
    obtain ⟨l, hl⟩ := hm.covered i hi
    have hlk : l ≠ k := by
      rintro rfl
      exact hne (Option.some.inj (hl.symm.trans hk))
    exact ⟨l, by rw [handleAt_remove, if_neg hlk, hl]⟩

/-- A descriptor freed that held no handle. -/
lemma remove_none (hm : Matched handle? t d) (hk : handleAt handle? d k = none) :
    Matched handle? t (d.remove k) := by
  have hsame (l : Nat) : handleAt handle? (d.remove k) l = handleAt handle? d l := by
    rw [handleAt_remove]
    split_ifs with heq
    · rw [heq, hk]
    · rfl
  exact ⟨hm.opened, hm.table.remove, by simpa only [hsame] using hm.live,
    by simpa only [hsame] using hm.injective, by simpa only [hsame] using hm.covered⟩

end Matched

/-! ## What becomes of the descriptors -/

/-- A descriptor denotes in one process what it denotes in the other: the same entry, and if there is
a handle in it, the same open file. -/
def SameAt (handle? : δ → Option Nat) (p q : Process δ) (k : Nat) : Prop :=
  q.descriptors.get? k = p.descriptors.get? k ∧
    ∀ h, handleAt handle? p.descriptors k = some h → q.tree.opened.get? h = p.tree.opened.get? h

/-- One descriptor is new, and the others denote what they did. -/
structure Opened (handle? : δ → Option Nat) (k : Nat) (p q : Process δ) : Prop where
  vacant : p.descriptors.get? k = none
  live : (q.descriptors.get? k).isSome
  others : ∀ l, l ≠ k → SameAt handle? p q l

/-- One descriptor is gone, and the others denote what they did. -/
structure Closed (handle? : δ → Option Nat) (k : Nat) (p q : Process δ) : Prop where
  live : (p.descriptors.get? k).isSome
  vacant : q.descriptors.get? k = none
  others : ∀ l, l ≠ k → SameAt handle? p q l

variable {p q : Process δ}

/-- Inserting an entry opens the next number, if the open files stay or get a new one. -/
lemma Matched.opened_next (hm : Matched handle? p.tree p.descriptors)
    (hq : q.descriptors = p.descriptors.insert v)
    (htree : q.tree.opened = p.tree.opened ∨ ∃ f, q.tree.opened = p.tree.opened.insert f) :
    Opened handle? p.descriptors.next p q := by
  refine ⟨hm.table.get?_next, ?_, fun l hl => ⟨?_, fun h hh => ?_⟩⟩
  · rw [hq, hm.table.get?_insert, if_pos rfl]
    rfl
  · rw [hq, hm.table.get?_insert, if_neg hl]
  · rcases htree with heq | ⟨f, heq⟩
    · rw [heq]
    · have hne : h ≠ p.tree.opened.next := by
        rintro rfl
        have hlive := hm.live l _ hh
        rw [hm.opened.get?_next] at hlive
        cases hlive
      rw [heq, hm.opened.get?_insert, if_neg hne]

/-- Removing an entry closes its number, if nothing happens to the handles of the others. -/
lemma Matched.closed_remove (hm : Matched handle? p.tree p.descriptors)
    (hlive : (p.descriptors.get? k).isSome) (hq : q.descriptors = p.descriptors.remove k)
    (htree : ∀ i, handleAt handle? p.descriptors k ≠ some i →
      q.tree.opened.get? i = p.tree.opened.get? i) :
    Closed handle? k p q := by
  refine ⟨hlive, ?_, fun l hl => ⟨?_, fun i hi => htree i fun hk => ?_⟩⟩
  · rw [hq, Slots.get?_remove, if_pos rfl]
  · rw [hq, Slots.get?_remove, if_neg hl]
  · exact hl (hm.injective l k i hi hk)

/-- Removing an entry together with its handle. -/
lemma Matched.closed_file (hm : Matched handle? p.tree p.descriptors)
    (hk : handleAt handle? p.descriptors k = some h)
    (hq : q.descriptors = p.descriptors.remove k)
    (htree : q.tree.opened = p.tree.opened.remove h) :
    Matched handle? q.tree q.descriptors ∧ Closed handle? k p q := by
  have hlive : (p.descriptors.get? k).isSome := by
    obtain ⟨v, hv, -⟩ := Option.bind_eq_some_iff.1 hk
    simp [hv]
  refine ⟨hq ▸ hm.remove hk htree, hm.closed_remove hlive hq fun i hi => ?_⟩
  have hne : i ≠ h := by
    rintro rfl
    exact hi hk
  rw [htree, Slots.get?_remove, if_neg hne]

end GuestShell
