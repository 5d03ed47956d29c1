import GuestShell.Slots
import Mathlib.Data.List.Basic
import Mathlib.Tactic.Lemma
import Mathlib.Tactic.SplitIfs

/-!
# The numbers of a slot table

`get?` is the view in which the operations are described.  That a new value gets a number nobody uses
(`get?_next`) depends on the list of vacant numbers: it has no number twice and none that is in use.
This is what `Sound` says, and every operation keeps it.
-/

namespace GuestShell.Slots

variable {α : Type} {s : Slots α} {k l : Nat} {v : α}

/-- The vacant numbers are vacant, and listed once. -/
structure Sound (s : Slots α) : Prop where
  vacant : ∀ k ∈ s.free, s.cells[k]? = some none
  nodup : s.free.Nodup

lemma sound_empty : (empty : Slots α).Sound := ⟨by simp [empty], by simp [empty]⟩

@[simp] lemma get?_empty : (empty : Slots α).get? k = none := by
  simp [empty, get?]

lemma get?_set {cells : List (Option α)} {free : List Nat} {o : Option α} (hk : k < cells.length) :
    (⟨cells.set k o, free⟩ : Slots α).get? l = if l = k then o else (⟨cells, free⟩ : Slots α).get? l := by
  by_cases hl : l = k
  · subst hl
    simp [get?, hk]
  · simp [get?, List.getElem?_set_ne (Ne.symm hl), hl]

lemma lt_length_of_get? (h : s.get? k = some v) : k < s.cells.length := by
  by_contra hk
  simp [get?, List.getElem?_eq_none (Nat.le_of_not_lt hk)] at h

/-- What is in a table after an insertion is the new value or was in it before. -/
lemma get?_insert_cases {w : α} (h : (s.insert v).get? k = some w) : w = v ∨ s.get? k = some w := by
  cases hfree : s.free with
  | nil =>
    rw [insert, hfree, get?] at h
    rcases Nat.lt_or_ge k s.cells.length with hk | hk
    · rw [List.getElem?_append_left hk] at h
      exact .inr h
    · rw [List.getElem?_append_right hk] at h
      rcases hzero : k - s.cells.length with _ | _
      · rw [hzero] at h
        exact .inl (Option.some.inj h).symm
      · rw [hzero] at h
        cases h
  | cons j free =>
    rw [insert, hfree] at h
    have hset : (⟨s.cells.set j (some v), free⟩ : Slots α).get? k = some w := h
    by_cases hj : j < s.cells.length
    · rw [get?_set hj] at hset
      split_ifs at hset
      · exact .inl (Option.some.inj hset).symm
      · exact .inr hset
    · rw [List.set_eq_of_length_le (Nat.not_lt.1 hj)] at hset
      exact .inr hset

namespace Sound

variable (h : s.Sound)

include h

/-- **The next number is in use by nobody.** -/
theorem get?_next : s.get? s.next = none := by
  rw [next]
  cases hfree : s.free with
  | nil => simp [get?]
  | cons k free =>
    have := h.vacant k (by simp [hfree])
    simp [get?, this]

theorem get?_insert : (s.insert v).get? k = if k = s.next then some v else s.get? k := by
  cases hfree : s.free with
  | nil =>
    have hnext : s.next = s.cells.length := by rw [next, hfree]; rfl
    rw [Slots.insert, hfree, hnext, get?, get?]
    rcases Nat.lt_trichotomy k s.cells.length with hk | rfl | hk
    · rw [List.getElem?_append_left hk, if_neg (Nat.ne_of_lt hk)]
    · simp
    · have hlen : (s.cells ++ [some v]).length ≤ k := by
        rw [List.length_append, List.length_singleton]
        exact hk
      rw [List.getElem?_eq_none hlen, List.getElem?_eq_none (Nat.le_of_lt hk),
        if_neg (Nat.ne_of_gt hk)]
  | cons j free =>
    have hnext : s.next = j := by rw [next, hfree]; rfl
    have hj := h.vacant j (by simp [hfree])
    have hlt : j < s.cells.length := (List.getElem?_eq_some_iff.1 hj).1
    rw [Slots.insert, hfree, hnext]
    exact get?_set hlt

lemma insert : (s.insert v).Sound := by
  obtain ⟨hvacant, hnodup⟩ := h
  rw [Slots.insert]
  cases hfree : s.free with
  | nil => exact ⟨by simp, List.nodup_nil⟩
  | cons j free =>
    rw [hfree] at hvacant hnodup
    obtain ⟨hj, hrest⟩ := List.nodup_cons.1 hnodup
    refine ⟨fun k hk => ?_, hrest⟩
    have hne : j ≠ k := fun heq => hj (heq ▸ hk)
    simpa [List.getElem?_set_ne hne] using hvacant k (List.mem_cons_of_mem _ hk)

/-- Other contents where something is leave the vacant numbers as they are. -/
lemma set {o : Option α} (hk : s.get? k = some v) (k' : Nat) (hk' : k' ∈ s.free) :
    (s.cells.set k o)[k']? = some none := by
  have hne : k ≠ k' := by
    rintro rfl
    simp [get?, h.vacant k hk'] at hk
  rw [List.getElem?_set_ne hne]
  exact h.vacant k' hk'

lemma remove : (s.remove k).Sound := by
  rw [Slots.remove]
  cases hk : s.get? k with
  | none => simpa using h
  | some v =>
    have hnot : k ∉ s.free := fun hmem => by simp [get?, h.vacant k hmem] at hk
    refine ⟨fun j hj => ?_, List.nodup_cons.2 ⟨hnot, h.nodup⟩⟩
    rcases List.mem_cons.1 hj with rfl | hj
    · simp [lt_length_of_get? hk]
    · exact h.set hk j hj

lemma modify {f : α → α} : (s.modify k f).Sound := by
  rw [Slots.modify]
  cases hk : s.get? k with
  | none => exact h
  | some v => exact ⟨h.set hk, h.nodup⟩

lemma map {f : α → α} : (s.map f).Sound := by
  refine ⟨fun k hk => ?_, h.nodup⟩
  simp [Slots.map, h.vacant k hk]

end Sound

theorem get?_remove : (s.remove k).get? l = if l = k then none else s.get? l := by
  rw [remove]
  cases hk : s.get? k with
  | none =>
    rw [if_neg (by simp)]
    split_ifs with hl
    · rw [hl, hk]
    · rfl
  | some v => exact get?_set (lt_length_of_get? hk)

theorem get?_modify {f : α → α} :
    (s.modify k f).get? l = if l = k then (s.get? k).map f else s.get? l := by
  rw [modify]
  cases hk : s.get? k with
  | none =>
    split_ifs with hl
    · rw [hl, hk]
      rfl
    · rfl
  | some v => exact get?_set (lt_length_of_get? hk)

/-- A value that is changed to itself. -/
theorem modify_eq_self {v : α} {f : α → α} (hk : s.get? k = some v) (hf : f v = v) :
    s.modify k f = s := by
  have hcell : s.cells[k]? = some (some v) := by
    rw [get?, Option.join_eq_some_iff] at hk
    exact hk
  obtain ⟨hlength, hcell⟩ := List.getElem?_eq_some_iff.1 hcell
  rw [modify, hk]
  simp only [hf]
  rw [← hcell, List.set_getElem_self]

/-- Two changes, one after the other. -/
theorem modify_modify {f g : α → α} : (s.modify k f).modify k g = s.modify k (g ∘ f) := by
  cases hk : s.get? k with
  | none =>
    have hsame : ∀ f' : α → α, s.modify k f' = s := fun f' => by rw [modify, hk]
    rw [hsame, hsame, hsame]
  | some v =>
    have hget : (s.modify k f).get? k = some (f v) := by
      rw [get?_modify, if_pos rfl, hk]
      rfl
    rw [modify, hget, modify, hk, modify, hk]
    simp

theorem get?_map {f : α → α} : (s.map f).get? k = (s.get? k).map f := by
  simp only [get?, map, List.getElem?_map]
  cases s.cells[k]? <;> rfl

end GuestShell.Slots
