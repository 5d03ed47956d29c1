/-!
# Ordered dictionaries

A dictionary holds at most one value for each key and lists its keys in ascending order.  It is a
list of pairs whose keys ascend strictly, and that is part of the type, so two dictionaries with
the same bindings are equal.

* `Key`: what a type of keys must provide, a decidable strict linear order.
* `find?`, `insert`, `erase`: the three operations.
* `find?_insert`, `find?_erase`: what they do to the view `find?`.
-/

namespace GuestShell

/-- Types whose values can be keys: a decidable strict linear order. -/
class Key (κ : Type) extends LT κ where
  decLt : DecidableRel (fun a b : κ => a < b)
  irrefl (a : κ) : ¬a < a
  trans {a b c : κ} : a < b → b < c → a < c
  connected {a b : κ} : ¬a < b → ¬b < a → a = b

instance Key.decidableLt {κ : Type} [Key κ] (a b : κ) : Decidable (a < b) := Key.decLt a b

instance : Key String where
  decLt a b := inferInstanceAs (Decidable (a < b))
  irrefl := String.lt_irrefl
  trans := String.lt_trans
  connected h k := String.le_antisymm (String.not_lt.1 k) (String.not_lt.1 h)

/-- A finite map with its keys in ascending order. -/
structure Dict (κ : Type) [Key κ] (β : Type) where
  entries : List (κ × β)
  ascending : entries.Pairwise fun a b => a.1 < b.1

namespace Dict

variable {κ : Type} [Key κ] {β γ : Type}

/-! ## Lookup and change, on lists of pairs -/

/-- The value bound to a key. -/
def lookup (k : κ) : List (κ × β) → Option β
  | [] => none
  | (j, v) :: rest =>
    if k < j then none
    else if j < k then lookup k rest
    else some v

/-- Binds a key, replacing what it was bound to. -/
def put (k : κ) (v : β) : List (κ × β) → List (κ × β)
  | [] => [(k, v)]
  | (j, w) :: rest =>
    if k < j then (k, v) :: (j, w) :: rest
    else if j < k then (j, w) :: put k v rest
    else (k, v) :: rest

/-- Drops a key. -/
def drop (k : κ) : List (κ × β) → List (κ × β)
  | [] => []
  | (j, w) :: rest =>
    if k < j then (j, w) :: rest
    else if j < k then (j, w) :: drop k rest
    else rest

theorem mem_put {k : κ} {v : β} {l : List (κ × β)} {e : κ × β} (h : e ∈ put k v l) :
    e = (k, v) ∨ e ∈ l := by
  induction l with
  | nil => simp [put] at h; simp [h]
  | cons a l ih =>
    rw [put] at h
    split at h
    · simpa using h
    · split at h
      · rcases List.mem_cons.1 h with rfl | h
        · simp
        · rcases ih h with rfl | h <;> simp_all
      · rcases List.mem_cons.1 h with rfl | h <;> simp_all

theorem mem_drop {k : κ} {l : List (κ × β)} {e : κ × β} (h : e ∈ drop k l) : e ∈ l := by
  induction l with
  | nil => simp [drop] at h
  | cons a l ih =>
    rw [drop] at h
    split at h
    · exact h
    · split at h
      · rcases List.mem_cons.1 h with rfl | h
        · simp
        · exact List.mem_cons_of_mem _ (ih h)
      · exact List.mem_cons_of_mem _ h

theorem ascending_put {k : κ} {v : β} {l : List (κ × β)}
    (h : l.Pairwise fun a b => a.1 < b.1) : (put k v l).Pairwise fun a b => a.1 < b.1 := by
  induction l with
  | nil => simp [put]
  | cons a l ih =>
    rw [List.pairwise_cons] at h
    rw [put]
    split
    · rename_i hk
      refine List.pairwise_cons.2 ⟨fun e he => ?_, List.pairwise_cons.2 h⟩
      rcases List.mem_cons.1 he with rfl | he
      · exact hk
      · exact Key.trans hk (h.1 e he)
    · rename_i hk
      split
      · rename_i hj
        refine List.pairwise_cons.2 ⟨fun e he => ?_, ih h.2⟩
        rcases mem_put he with rfl | he
        · exact hj
        · exact h.1 e he
      · rename_i hj
        have : k = a.1 := Key.connected hk hj
        subst this
        exact List.pairwise_cons.2 h

theorem ascending_drop {k : κ} {l : List (κ × β)}
    (h : l.Pairwise fun a b => a.1 < b.1) : (drop k l).Pairwise fun a b => a.1 < b.1 := by
  induction l with
  | nil => simp [drop]
  | cons a l ih =>
    have h' := List.pairwise_cons.1 h
    rw [drop]
    split
    · exact h
    · split
      · exact List.pairwise_cons.2 ⟨fun e he => h'.1 e (mem_drop he), ih h'.2⟩
      · exact h'.2

/-! ## Dictionaries -/

/-- The dictionary without keys. -/
def empty : Dict κ β := ⟨[], .nil⟩

instance : Inhabited (Dict κ β) := ⟨empty⟩

instance : EmptyCollection (Dict κ β) := ⟨empty⟩

/-- The value bound to a key. -/
def find? (d : Dict κ β) (k : κ) : Option β := lookup k d.entries

/-- Whether a key is bound. -/
def contains (d : Dict κ β) (k : κ) : Bool := (d.find? k).isSome

/-- Binds a key, replacing what it was bound to. -/
def insert (d : Dict κ β) (k : κ) (v : β) : Dict κ β := ⟨put k v d.entries, ascending_put d.ascending⟩

/-- Drops a key. -/
def erase (d : Dict κ β) (k : κ) : Dict κ β := ⟨drop k d.entries, ascending_drop d.ascending⟩

/-- The keys, in ascending order. -/
def keys (d : Dict κ β) : List κ := d.entries.map (·.1)

/-- Binds the keys of a list from left to right, so that the last binding of a key stays. -/
def ofList (l : List (κ × β)) : Dict κ β := l.foldl (fun d e => d.insert e.1 e.2) empty

/-- Whether nothing is bound. -/
def isEmpty (d : Dict κ β) : Bool := d.entries.isEmpty

/-! ## What the operations do to `find?` -/

theorem lookup_put (k j : κ) (v : β) (l : List (κ × β)) (h : l.Pairwise fun a b => a.1 < b.1) :
    lookup j (put k v l) = if ¬j < k ∧ ¬k < j then some v else lookup j l := by
  induction l with
  | nil =>
    simp only [put, lookup]
    by_cases h₁ : j < k
    · simp [h₁]
    · by_cases h₂ : k < j <;> simp [h₁, h₂]
  | cons a l ih =>
    obtain ⟨a, w⟩ := a
    have ha := List.pairwise_cons.1 h
    rw [put]
    split
    · rename_i hk
      by_cases h₁ : j < k
      · have : j < a := Key.trans h₁ hk
        simp [lookup, h₁, this]
      · by_cases h₂ : k < j <;> simp [lookup, h₁, h₂]
    · rename_i hk
      split
      · rename_i hj
        rw [lookup, ih ha.2, lookup]
        by_cases h₁ : j < a
        · have : j < k := Key.trans h₁ hj
          simp [h₁, this]
        · by_cases h₂ : a < j
          · simp [h₁, h₂]
          · have : j = a := Key.connected h₁ h₂
            subst this
            simp [h₁, hj]
      · rename_i hj
        have : k = a := Key.connected hk hj
        subst this
        by_cases h₁ : j < k
        · simp [lookup, h₁]
        · by_cases h₂ : k < j <;> simp [lookup, h₁, h₂]

/-- Inserting binds its key and leaves every other key as it was. -/
theorem find?_insert (d : Dict κ β) (k j : κ) (v : β) [DecidableEq κ] :
    (d.insert k v).find? j = if j = k then some v else d.find? j := by
  rw [insert, find?, lookup_put k j v _ d.ascending, find?]
  by_cases h : j = k
  · subst h
    simp [Key.irrefl]
  · have : ¬(¬j < k ∧ ¬k < j) := fun hc => h (Key.connected hc.1 hc.2)
    rw [if_neg this, if_neg h]

theorem lookup_eq_none {k : κ} {l : List (κ × β)} (h : ∀ e ∈ l, k < e.1) : lookup k l = none := by
  cases l with
  | nil => rfl
  | cons a l => simp [lookup, h a (by simp)]

theorem lookup_drop (k j : κ) (l : List (κ × β)) (h : l.Pairwise fun a b => a.1 < b.1) :
    lookup j (drop k l) = if ¬j < k ∧ ¬k < j then none else lookup j l := by
  induction l with
  | nil => simp [drop, lookup]
  | cons a l ih =>
    obtain ⟨a, w⟩ := a
    have ha := List.pairwise_cons.1 h
    rw [drop]
    split
    · rename_i hk
      by_cases hjk : ¬j < k ∧ ¬k < j
      · have : j = k := Key.connected hjk.1 hjk.2
        subst this
        simp [lookup, hk, hjk]
      · simp [hjk]
    · rename_i hk
      split
      · rename_i hj
        rw [lookup, ih ha.2, lookup]
        by_cases h₁ : j < a
        · have : j < k := Key.trans h₁ hj
          simp [h₁, this]
        · by_cases h₂ : a < j
          · simp [h₁, h₂]
          · have : j = a := Key.connected h₁ h₂
            subst this
            simp [h₁, hj]
      · rename_i hj
        have : k = a := Key.connected hk hj
        subst this
        by_cases h₁ : j < k
        · have : lookup j l = none := lookup_eq_none fun e he => Key.trans h₁ (ha.1 e he)
          simp [lookup, h₁, this]
        · by_cases h₂ : k < j
          · simp [lookup, h₁, h₂]
          · have : j = k := Key.connected h₁ h₂
            subst this
            have : lookup j l = none := lookup_eq_none fun e he => ha.1 e he
            simp [h₁, this]

/-- Erasing unbinds its key and leaves every other key as it was. -/
theorem find?_erase (d : Dict κ β) (k j : κ) [DecidableEq κ] :
    (d.erase k).find? j = if j = k then none else d.find? j := by
  rw [erase, find?, lookup_drop k j _ d.ascending, find?]
  by_cases h : j = k
  · subst h
    simp [Key.irrefl]
  · have : ¬(¬j < k ∧ ¬k < j) := fun hc => h (Key.connected hc.1 hc.2)
    rw [if_neg this, if_neg h]

@[simp] theorem find?_empty (k : κ) : (empty : Dict κ β).find? k = none := rfl

end Dict

end GuestShell
