import GuestShell.Module.Leb128
import Mathlib.Algebra.Group.Nat.Defs
import Mathlib.Data.Nat.Init
import Mathlib.Tactic.Lemma
import Mathlib.Tactic.SplitIfs

/-!
# The forms of a number

A number has one shortest form and longer ones, which end in bytes that add nothing (`IsForm`).
Reading a number takes a form of at most ten bytes from the front, of whatever number, and drops what
passes 64 bits (`decode_ok_iff`).

So a number of 64 bits is read back from every form that fits into ten bytes (`Writes.decode`), and
there is one of each length from the shortest on (`exists_writes`).
-/

namespace GuestShell.Leb128

variable {n limit : Nat} {bytes rest : Bytes}

/-- The forms of a number: seven bits a byte, lowest first, with the high bit set on every byte but
the last. -/
inductive IsForm : Nat → Bytes → Prop
  | last {n : Nat} (h : n < 128) : IsForm n [UInt8.ofNat n]
  | more {low n : Nat} {bytes : Bytes} (h : low < 128) (next : IsForm n bytes) :
    IsForm (low + 128 * n) (UInt8.ofNat (low + 128) :: bytes)

/-- A number of 64 bits is written in one of its forms that fit. -/
structure Writes (n : Nat) (bytes : Bytes) : Prop where
  form : IsForm n bytes
  fits : bytes.length ≤ maxBytes
  bounded : n < UInt64.size

/-! ## Reading -/

lemma toNat_ofNat_byte {n : Nat} (h : n < 256) : (UInt8.ofNat n).toNat = n :=
  Nat.mod_eq_of_lt h

/-- A last byte is below 128, and no other is. -/
lemma ofNat_lt_iff {n : Nat} (h : n < 256) : UInt8.ofNat n < 0x80 ↔ n < 128 := by
  rw [UInt8.lt_iff_toNat_lt, toNat_ofNat_byte h]
  rfl

lemma decodeWithin_of_isForm (h : IsForm n bytes) (hlen : bytes.length ≤ limit) (rest : Bytes) :
    decodeWithin limit (bytes ++ rest) = .ok (n, rest) := by
  induction h generalizing limit with
  | @last n hn =>
    obtain ⟨limit, rfl⟩ := Nat.exists_eq_add_of_le' hlen
    have hlast : UInt8.ofNat n < 0x80 := (ofNat_lt_iff (by omega)).2 hn
    change decodeWithin (limit + 1) (UInt8.ofNat n :: rest) = _
    rw [decodeWithin, if_pos hlast, toNat_ofNat_byte (by omega)]
  | @more low n bytes hlow _ ih =>
    obtain ⟨limit, rfl⟩ := Nat.exists_eq_add_of_le' (Nat.le_trans (Nat.succ_pos _) hlen)
    have hmore : ¬UInt8.ofNat (low + 128) < 0x80 := mt (ofNat_lt_iff (by omega)).1 (by omega)
    rw [List.cons_append, decodeWithin, if_neg hmore, ih (Nat.le_of_succ_le_succ hlen)]
    simp only [toNat_ofNat_byte (show low + 128 < 256 by omega), Nat.add_sub_cancel]

lemma exists_isForm_of_decodeWithin (h : decodeWithin limit bytes = .ok (n, rest)) :
    ∃ front, IsForm n front ∧ front.length ≤ limit ∧ bytes = front ++ rest := by
  induction limit generalizing bytes n with
  | zero => simp [decodeWithin] at h
  | succ limit ih =>
    cases bytes with
    | nil => simp [decodeWithin] at h
    | cons b tail =>
      rw [decodeWithin] at h
      split_ifs at h with hlast
      · cases h
        have hb : IsForm b.toNat [UInt8.ofNat b.toNat] := .last (UInt8.lt_iff_toNat_lt.1 hlast)
        rw [UInt8.ofNat_toNat] at hb
        exact ⟨[b], hb, Nat.succ_le_succ (Nat.zero_le _), rfl⟩
      · have hbig : 128 ≤ b.toNat := Nat.le_of_not_lt fun hlt => hlast (UInt8.lt_iff_toNat_lt.2 hlt)
        have hsmall : b.toNat < 256 := b.toNat_lt
        split at h
        · rename_i m r hm
          cases h
          obtain ⟨front, hfront, hlen, rfl⟩ := ih hm
          have hb : IsForm (b.toNat - 128 + 128 * m) (UInt8.ofNat (b.toNat - 128 + 128) :: front) :=
            .more (by omega) hfront
          rw [Nat.sub_add_cancel hbig, UInt8.ofNat_toNat] at hb
          exact ⟨b :: front, hb, Nat.succ_le_succ hlen, rfl⟩
        · cases h

/-- **What reading a number comes to.**  It takes a form of some number, and gives what of that number
fits into 64 bits. -/
theorem decode_ok_iff : decode bytes = .ok (n, rest) ↔
    ∃ k front, IsForm k front ∧ front.length ≤ maxBytes ∧ k % UInt64.size = n ∧
      bytes = front ++ rest := by
  rw [decode]
  constructor
  · intro h
    split at h
    · rename_i k r hk
      cases h
      obtain ⟨front, hform, hlen, hbytes⟩ := exists_isForm_of_decodeWithin hk
      exact ⟨k, front, hform, hlen, rfl, hbytes⟩
    · cases h
  · rintro ⟨k, front, hform, hlen, rfl, rfl⟩
    rw [decodeWithin_of_isForm hform hlen]

/-- A written number is read back. -/
lemma Writes.decode (h : Writes n bytes) (rest : Bytes) :
    Leb128.decode (bytes ++ rest) = .ok (n, rest) :=
  decode_ok_iff.2 ⟨n, bytes, h.form, h.fits, Nat.mod_eq_of_lt h.bounded, rfl⟩

/-! ## Writing -/

lemma writes_of_lt (h : n < 128) : Writes n [UInt8.ofNat n] where
  form := .last h
  fits := (by decide : 1 ≤ maxBytes)
  bounded := Nat.lt_trans h (by decide)

lemma isForm_encode (n : Nat) : IsForm n (encode n) := by
  induction n using Nat.strongRecOn with
  | ind n ih =>
    rw [encode]
    split_ifs with hn
    · exact .last hn
    · have hmore := IsForm.more (Nat.mod_lt n (by decide : 0 < 128)) (ih (n / 128) (by omega))
      rwa [Nat.mod_add_div] at hmore

lemma length_encode_le {k : Nat} (h : n < 128 ^ (k + 1)) : (encode n).length ≤ k + 1 := by
  induction k generalizing n with
  | zero =>
    rw [encode, if_pos (by simpa using h)]
    exact Nat.le_refl 1
  | succ k ih =>
    rw [encode]
    split_ifs
    · exact Nat.succ_le_succ (Nat.zero_le _)
    · have hdiv : n / 128 < 128 ^ (k + 1) := by
        rw [Nat.div_lt_iff_lt_mul (by decide)]
        exact h
      exact Nat.succ_le_succ (ih hdiv)

/-- The shortest form of a number of 64 bits fits. -/
theorem writes_encode (h : n < UInt64.size) : Writes n (encode n) where
  form := isForm_encode n
  fits := length_encode_le (k := 9) (Nat.lt_trans h (by decide))
  bounded := h

/-- One more byte can be taken for the same number. -/
lemma IsForm.longer (h : IsForm n bytes) :
    ∃ bytes', IsForm n bytes' ∧ bytes'.length = bytes.length + 1 := by
  induction h with
  | @last n hn => exact ⟨_, .more hn (.last (by decide : 0 < 128)), rfl⟩
  | more hlow _ ih =>
    obtain ⟨bytes', hform, hlen⟩ := ih
    exact ⟨_, .more hlow hform, congrArg Nat.succ hlen⟩

/-- **A number can be written with any number of bytes** from the length of its shortest form to
ten. -/
theorem exists_writes (h : n < UInt64.size) {k : Nat} (hlow : (encode n).length ≤ k)
    (hhigh : k ≤ maxBytes) : ∃ bytes, Writes n bytes ∧ bytes.length = k := by
  suffices hform : ∃ bytes, IsForm n bytes ∧ bytes.length = k by
    obtain ⟨bytes, hform, rfl⟩ := hform
    exact ⟨bytes, ⟨hform, hhigh, h⟩, rfl⟩
  induction k, hlow using Nat.le_induction with
  | base => exact ⟨_, isForm_encode n, rfl⟩
  | succ k hk ih =>
    obtain ⟨bytes, hform, rfl⟩ := ih (Nat.le_of_succ_le hhigh)
    exact hform.longer

end GuestShell.Leb128
