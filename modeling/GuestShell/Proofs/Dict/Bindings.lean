import GuestShell.Dict
import Mathlib.Data.List.Nodup
import Mathlib.Tactic.Lemma

/-!
# The bindings of a dictionary

`find?` is the view in which the operations are described, and `entries` is what listings go
through.  The two say the same: a pair is an entry exactly if its key is bound to its value
(`mem_entries_iff`), and a key is listed, once, exactly if it is bound (`mem_keys_iff`,
`nodup_keys`).  So a dictionary is given by its bindings (`eq_of_find?_eq`),
as is any list in the order of its keys by its members (`eq_of_ascending`).
-/

namespace GuestShell.Dict

variable {κ : Type} [Key κ] {β : Type}

lemma lookup_eq_some_iff {k : κ} {v : β} {l : List (κ × β)}
    (h : l.Pairwise fun a b => a.1 < b.1) : lookup k l = some v ↔ (k, v) ∈ l := by
  induction l with
  | nil => simp [lookup]
  | cons e l ih =>
    obtain ⟨j, w⟩ := e
    obtain ⟨hhead, htail⟩ := List.pairwise_cons.1 h
    rw [lookup]
    split_ifs with hk hj
    · have hne : k ≠ j := fun e => Key.irrefl j (e ▸ hk)
      have hrest : (k, v) ∉ l := fun hm => Key.irrefl k (Key.trans hk (hhead _ hm))
      simp [hne, hrest]
    · have hne : k ≠ j := fun e => Key.irrefl j (e ▸ hj)
      simp [ih htail, hne]
    · obtain rfl : k = j := Key.connected hk hj
      have hrest : (k, v) ∉ l := fun hm => Key.irrefl k (hhead _ hm)
      simp [hrest, eq_comm]

/-- The entries are the bindings. -/
theorem mem_entries_iff {d : Dict κ β} {k : κ} {v : β} :
    (k, v) ∈ d.entries ↔ d.find? k = some v :=
  (lookup_eq_some_iff d.ascending).symm

lemma mem_keys_iff {d : Dict κ β} {k : κ} : k ∈ d.keys ↔ ∃ v, d.find? k = some v := by
  simp only [keys, List.mem_map]
  constructor
  · rintro ⟨⟨j, v⟩, hmem, rfl⟩
    exact ⟨v, mem_entries_iff.1 hmem⟩
  · rintro ⟨v, hv⟩
    exact ⟨(k, v), mem_entries_iff.2 hv, rfl⟩

/-- No key is listed twice. -/
lemma nodup_keys (d : Dict κ β) : d.keys.Nodup := by
  refine List.pairwise_map.2 (d.ascending.imp fun hlt heq => ?_)
  rw [heq] at hlt
  exact Key.irrefl _ hlt

/-- Lists in the order of their keys are known by their members. -/
lemma eq_of_ascending {α : Type} (key : α → κ) {l l' : List α}
    (hl : l.Pairwise fun a b => key a < key b) (hl' : l'.Pairwise fun a b => key a < key b)
    (h : ∀ a, a ∈ l ↔ a ∈ l') : l = l' := by
  have nodup {l : List α} (hl : l.Pairwise fun a b => key a < key b) : l.Nodup := by
    refine hl.imp ?_
    rintro a _ hlt rfl
    exact Key.irrefl _ hlt
  have hperm : l.Perm l' := (List.perm_ext_iff_of_nodup (nodup hl) (nodup hl')).2 h
  exact hperm.eq_of_pairwise (fun a b _ _ hab hba => (Key.irrefl _ (Key.trans hab hba)).elim) hl hl'

/-- Dictionaries with the same bindings are equal. -/
lemma eq_of_find?_eq {d d' : Dict κ β} (h : ∀ k, d.find? k = d'.find? k) : d = d' := by
  have hentries : d.entries = d'.entries :=
    eq_of_ascending (·.1) d.ascending d'.ascending fun ⟨k, v⟩ => by
      rw [mem_entries_iff, mem_entries_iff, h]
  cases d
  cases d'
  congr

end GuestShell.Dict
