import GuestShell.Module.Info
import GuestShell.Proofs.Module.Numbers
import Mathlib.Data.List.Basic

/-!
# The sections of a module file

What follows the header of a module file is sections, one after another (`Each IsSection`), each with
its length in front.  A file that is accepted has nothing else, and what is found in it is what its
sections add, in their order (`walk_ok_iff`).

Bytes can be cut into sections in one way only.  So where a file is cut after some of them, the rest
is sections too (`Each.of_append`).
-/

namespace GuestShell.ModuleFile

open Leb128

variable {bytes rest front : Bytes} {n : Nat} {s : Section} {info : ModuleInfo}

/-! ## One section -/

/-- The bytes of things, one thing after another. -/
inductive Each {α : Type} (W : α → Bytes → Prop) : List α → Bytes → Prop
  | nil : Each W [] []
  | cons {a : α} {as : List α} {x y : Bytes} (first : W a x) (others : Each W as y) :
    Each W (a :: as) (x ++ y)

/-- The bytes of a section: its number, a form of the length of its body, and the body. -/
inductive IsSection (s : Section) : Bytes → Prop
  | intro {k : Nat} {size : Bytes} (form : IsForm k size) (fits : size.length ≤ maxBytes)
      (counts : k % UInt64.size = s.body.length) : IsSection s (s.id :: (size ++ s.body))

lemma number_ok_iff : number bytes = .ok (n, rest) ↔ decode bytes = .ok (n, rest) := by
  rw [number]
  cases decode bytes with
  | ok r => simp
  | error e => cases e <;> simp

/-- A section is taken from the front exactly if one is there. -/
theorem nextSection_ok_iff : nextSection bytes = .ok (s, rest) ↔
    ∃ front, IsSection s front ∧ bytes = front ++ rest := by
  constructor
  · intro h
    cases bytes with
    | nil => cases h
    | cons id tail =>
      rw [nextSection] at h
      split at h
      · cases h
      · rename_i size left hsize
        split_ifs at h with hle
        cases h
        obtain ⟨k, form, hform, hfits, hk, rfl⟩ := decode_ok_iff.1 (number_ok_iff.1 hsize)
        refine ⟨_, .intro hform hfits ?_, ?_⟩
        · rw [hk, List.length_take, Nat.min_eq_left hle]
        · rw [List.cons_append, List.append_assoc, List.take_append_drop]
  · rintro ⟨front, ⟨form, fits, counts⟩, rfl⟩
    have hsize := number_ok_iff.2
      (decode_ok_iff.2 ⟨_, _, form, fits, counts, (List.append_assoc _ s.body rest)⟩)
    rw [List.cons_append, nextSection, hsize]
    simp

/-! ## All sections -/

/-- What is in front is known from all the bytes. -/
lemma Each.of_append {all done : List Section} {x y : Bytes} (h : Each IsSection all (x ++ y))
    (hx : Each IsSection done x) : ∃ left, all = done ++ left ∧ Each IsSection left y := by
  induction hx generalizing all with
  | nil => exact ⟨all, rfl, h⟩
  | @cons s done front x hfront _ ih =>
    have hfirst : nextSection (front ++ (x ++ y)) = .ok (s, x ++ y) :=
      nextSection_ok_iff.2 ⟨front, hfront, rfl⟩
    rw [List.append_assoc] at h
    generalize hbytes : front ++ (x ++ y) = bytes at h hfirst
    cases h with
    | nil => cases hfirst
    | @cons s' all front' z hfront' hothers =>
      rw [nextSection_ok_iff.2 ⟨front', hfront', rfl⟩] at hfirst
      cases hfirst
      obtain ⟨left, rfl, hleft⟩ := ih hothers
      exact ⟨left, rfl, hleft⟩

lemma walk_nil (info : ModuleInfo) : walk info [] = .ok info := by
  rw [walk, if_pos rfl]

lemma walk_section (info : ModuleInfo) (h : nextSection bytes = .ok (s, rest)) :
    walk info bytes = learn info s >>= fun info => walk info rest := by
  have hne : bytes ≠ [] := by
    rintro rfl
    cases h
  rw [walk, if_neg hne]
  split
  · rename_i e he
    cases he.symm.trans h
  · rename_i s' rest' hs'
    cases hs'.symm.trans h
    cases learn info s <;> rfl

lemma walk_error (info : ModuleInfo) (hne : bytes ≠ []) {flaw : ModuleFlaw}
    (h : nextSection bytes = .error flaw) : walk info bytes = .error flaw := by
  rw [walk, if_neg hne]
  split
  · rename_i e he
    cases he.symm.trans h
    rfl
  · rename_i s' rest' hs'
    cases hs'.symm.trans h

lemma walk_each {ss : List Section} (h : Each IsSection ss bytes) (info : ModuleInfo) :
    walk info bytes = ss.foldlM learn info := by
  induction h generalizing info with
  | nil => exact walk_nil info
  | @cons s ss front rest hfront _ ih =>
    rw [walk_section info (nextSection_ok_iff.2 ⟨front, hfront, rfl⟩), List.foldlM_cons]
    exact congrArg _ (funext ih)

/-- **What a file contains.**  Bytes are accepted exactly if they are sections in which no flaw is
found. -/
theorem walk_ok_iff {found : ModuleInfo} : walk info bytes = .ok found ↔
    ∃ ss, Each IsSection ss bytes ∧ ss.foldlM learn info = .ok found := by
  constructor
  · intro h
    induction hlen : bytes.length using Nat.strongRecOn generalizing bytes info with
    | ind len ih =>
      by_cases hnil : bytes = []
      · subst hnil
        exact ⟨[], .nil, (walk_nil info).symm.trans h⟩
      cases hnext : nextSection bytes with
      | error flaw =>
        rw [walk_error info hnil hnext] at h
        cases h
      | ok r =>
        obtain ⟨s, rest⟩ := r
        have hshort : rest.length < len := hlen ▸ nextSection_shortens hnext
        rw [walk_section info hnext] at h
        cases hlearn : learn info s with
        | error flaw =>
          rw [hlearn] at h
          cases h
        | ok info' =>
          rw [hlearn] at h
          obtain ⟨ss, hss, hfold⟩ := ih _ hshort h rfl
          obtain ⟨front, hfront, rfl⟩ := nextSection_ok_iff.1 hnext
          refine ⟨s :: ss, .cons hfront hss, ?_⟩
          rw [List.foldlM_cons, hlearn]
          exact hfold
  · rintro ⟨ss, hss, hfold⟩
    rw [walk_each hss, hfold]

lemma afterHeader_ok_iff : afterHeader bytes = .ok rest ↔ bytes = header ++ rest := by
  rw [afterHeader]
  constructor
  · intro h
    split_ifs at h with hlen hmagic hversion
    cases h
    have hrest : bytes.drop 8 = (bytes.drop 4).drop 4 := by rw [List.drop_drop]
    have hsplit : bytes = bytes.take 4 ++ ((bytes.drop 4).take 4 ++ bytes.drop 8) := by
      rw [hrest, List.take_append_drop, List.take_append_drop]
    rw [not_not.1 hmagic, not_not.1 hversion, ← List.append_assoc] at hsplit
    exact hsplit
  · rintro rfl
    simp [header, magic, version]

lemma inspect_header (bytes : Bytes) : inspect (header ++ bytes) = walk .empty bytes := by
  rw [inspect, afterHeader_ok_iff.2 rfl]
  rfl

/-- A file is accepted exactly if it has its header, and then sections in which no flaw is found. -/
theorem inspect_ok_iff : inspect bytes = .ok info ↔
    ∃ ss x, bytes = header ++ x ∧ Each IsSection ss x ∧ ss.foldlM learn .empty = .ok info := by
  constructor
  · intro h
    cases hafter : afterHeader bytes with
    | error flaw =>
      rw [inspect, hafter] at h
      cases h
    | ok x =>
      obtain rfl := afterHeader_ok_iff.1 hafter
      rw [inspect_header] at h
      obtain ⟨ss, hss, hfold⟩ := walk_ok_iff.1 h
      exact ⟨ss, x, rfl, hss, hfold⟩
  · rintro ⟨ss, x, rfl, hss, hfold⟩
    rw [inspect_header, walk_each hss, hfold]

end GuestShell.ModuleFile
