import GuestShell.Engine.Memory
import Mathlib.Tactic.Lemma
import Mathlib.Tactic.SplitIfs

/-!
# Bytes in memory

`Holds` says that bytes lie in memory from an address on.  A write that lies inside the memory goes
through (`exists_write`); then the bytes are there (`holds_write`), and what lay anywhere else is still
there (`Holds.of_same`, with `byteAt_write_of_outside`).

`SameBut` says that nothing has changed but in some areas, each told by its address and its size.
-/

namespace GuestShell.Memory

variable {m m' : Memory} {address i k : Nat} {bytes xs ys : Bytes}

/-- The bytes lie in memory from an address on. -/
def Holds (m : Memory) (address : Nat) (bytes : Bytes) : Prop :=
  m.read address bytes.length = .ok bytes

lemma length_area (m : Memory) (address size : Nat) : (m.area address size).length = size := by
  rw [area, List.length_map, List.length_range]

lemma area_add (m : Memory) (address j k : Nat) :
    m.area address (j + k) = m.area address j ++ m.area (address + j) k := by
  simp only [area, List.range_add, List.map_append, List.map_map]
  congr 2
  funext i
  simp only [Function.comp_apply, Nat.add_assoc]

/-- What an area is depends on its own bytes. -/
lemma area_eq_iff : m.area address bytes.length = bytes ↔
    ∀ k (h : k < bytes.length), m.byteAt (address + k) = bytes[k] := by
  constructor
  · intro h k hk
    have hget : (m.area address bytes.length)[k]? = some (m.byteAt (address + k)) := by
      simp [area, hk]
    rw [h, List.getElem?_eq_getElem hk] at hget
    exact (Option.some.inj hget).symm
  · intro h
    refine List.ext_getElem (length_area m address bytes.length) fun k _ hk => ?_
    rw [← h k hk]
    simp [area]

lemma area_congr {size : Nat}
    (h : ∀ i, address ≤ i → i < address + size → m'.byteAt i = m.byteAt i) :
    m'.area address size = m.area address size := by
  refine List.map_congr_left fun k hk => ?_
  have hk := List.mem_range.1 hk
  exact h (address + k) (by omega) (by omega)

lemma holds_iff : m.Holds address bytes ↔
    address + bytes.length ≤ m.size ∧ m.area address bytes.length = bytes := by
  rw [Holds, read]
  split_ifs with h <;> simp [h]

lemma exists_write (h : address + bytes.length ≤ m.size) :
    ∃ m', m.write address bytes = .ok m' := by
  rw [write, if_pos h]
  exact ⟨_, rfl⟩

lemma le_size_of_write (h : m.write address bytes = .ok m') :
    address + bytes.length ≤ m.size := by
  rw [write] at h
  split_ifs at h with hle
  exact hle

lemma byteAt_write_of_outside (h : m.write address bytes = .ok m')
    (hi : i < address ∨ address + bytes.length ≤ i) : m'.byteAt i = m.byteAt i := by
  rw [byteAt_write h, if_neg]
  omega

/-- What was written is there. -/
lemma holds_write (h : m.write address bytes = .ok m') : m'.Holds address bytes := by
  refine holds_iff.2 ⟨size_write h ▸ le_size_of_write h, area_eq_iff.2 fun k hk => ?_⟩
  rw [byteAt_write h, if_pos (by omega), Nat.add_sub_cancel_left, List.getD_eq_getElem?_getD,
    List.getElem?_eq_getElem hk, Option.getD_some]

/-- A write into an area leaves the rest of the area as it was. -/
lemma area_write (h : m.write address bytes = .ok m') {size : Nat} (hle : bytes.length ≤ size) :
    m'.area address size = bytes ++ (m.area address size).drop bytes.length := by
  obtain ⟨k, rfl⟩ := Nat.exists_eq_add_of_le hle
  have hrest : m'.area (address + bytes.length) k = m.area (address + bytes.length) k :=
    area_congr fun i hi _ => byteAt_write_of_outside h (.inr hi)
  rw [area_add, area_add, (holds_iff.1 (holds_write h)).2, hrest,
    List.drop_left' (length_area m address bytes.length)]

/-- What lies in memory stays there if its bytes stay. -/
lemma Holds.of_same (h : m.Holds address bytes) (hsize : m'.size = m.size)
    (hsame : ∀ i, address ≤ i → i < address + bytes.length → m'.byteAt i = m.byteAt i) :
    m'.Holds address bytes := by
  obtain ⟨hle, harea⟩ := holds_iff.1 h
  refine holds_iff.2 ⟨hsize ▸ hle, area_eq_iff.2 fun k hk => ?_⟩
  rw [hsame (address + k) (by omega) (by omega), area_eq_iff.1 harea k hk]

/-- A word is read back, less what did not fit. -/
lemma Holds.readWord32 (h : m.Holds address (Bytes.word32 k)) :
    m.readWord32 address = .ok (k % UInt32.size) := by
  rw [Holds, Bytes.length_word32] at h
  rw [Memory.readWord32, h]
  exact congrArg Except.ok (Bytes.ofLittleEndian_littleEndian 4 k)

/-! ## Writing in some areas only -/

/-- The size is the same, and so is every byte that lies in none of the areas. -/
structure SameBut (areas : List (Nat × Nat)) (m m' : Memory) : Prop where
  size : m'.size = m.size
  bytes : ∀ i, (∀ a ∈ areas, i < a.1 ∨ a.1 + a.2 ≤ i) → m'.byteAt i = m.byteAt i

namespace SameBut

variable {m'' : Memory} {areas : List (Nat × Nat)}

lemma refl : SameBut areas m m := ⟨rfl, fun _ _ => rfl⟩

lemma trans (h : SameBut areas m m') (k : SameBut areas m' m'') : SameBut areas m m'' :=
  ⟨k.size.trans h.size, fun i hi => (k.bytes i hi).trans (h.bytes i hi)⟩

lemma mono {areas' : List (Nat × Nat)} (h : SameBut areas m m') (hsub : areas ⊆ areas') :
    SameBut areas' m m' :=
  ⟨h.size, fun i hi => h.bytes i fun a ha => hi a (hsub ha)⟩

/-- A write changes no more than an area that the bytes lie in. -/
lemma of_write {start size : Nat} (h : m.write address bytes = .ok m')
    (hmem : (start, size) ∈ areas) (hlow : start ≤ address)
    (hhigh : address + bytes.length ≤ start + size) : SameBut areas m m' := by
  refine ⟨size_write h, fun i hi => byteAt_write_of_outside h ?_⟩
  have := hi _ hmem
  omega

end SameBut

end GuestShell.Memory
