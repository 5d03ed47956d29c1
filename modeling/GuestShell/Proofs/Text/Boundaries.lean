import GuestShell.Text.Utf8
import Mathlib.Data.List.Basic
import Mathlib.Tactic.Lemma

/-!
# Where bytes can be cut before they are read

A byte below 0x80 is a character by itself, whatever stands around it: no longer character has such a
byte in it, and one that was begun before it is a flaw with it or without it (`readUnit_append`).  So
bytes that are cut there can be read piece by piece (`units_append_ascii`), and the piece before the
cut may end inside a character.

And no other bytes read as such a character, so the line feeds of a text are those of its bytes
(`newline_mem_decodeLossy_iff`).
-/

namespace GuestShell.Text

variable {a x : UInt8} {body rest : Bytes}

/-! ## One unit -/

lemma isContinuation_ascii (hx : x < 0x80) : isContinuation x = false := by
  rw [isContinuation, Bool.and_eq_false_iff]
  exact .inl (decide_eq_false (UInt8.not_le.2 hx))

lemma followsThree_ascii (hx : x < 0x80) : followsThree a x = false := by
  have hlow : ¬0xa0 ≤ x := fun h => UInt8.not_le.2 hx (UInt8.le_trans (by decide) h)
  rw [followsThree, isContinuation_ascii hx]
  simp [hlow, UInt8.not_le.2 hx]

lemma followsFour_ascii (hx : x < 0x80) : followsFour a x = false := by
  have hlow : ¬0x90 ≤ x := fun h => UInt8.not_le.2 hx (UInt8.le_trans (by decide) h)
  rw [followsFour, isContinuation_ascii hx]
  simp [hlow, UInt8.not_le.2 hx]

lemma readUnit_ascii (hx : x < 0x80) : readUnit x rest = (some (Char.ofNat x.toNat), 0) := by
  unfold readUnit
  rw [if_pos hx]

/-- What has begun before a byte below 0x80 ends before it. -/
lemma readUnit_append (hx : x < 0x80) : readUnit a (body ++ x :: rest) = readUnit a body := by
  have htwo := isContinuation_ascii hx
  have hthree : followsThree a x = false := followsThree_ascii hx
  have hfour : followsFour a x = false := followsFour_ascii hx
  unfold readUnit
  -- at most three bytes are looked at, and each of them is in front of `x` or is `x`
  rcases body with _ | ⟨b, _ | ⟨c, _ | ⟨d, body⟩⟩⟩ <;> simp [htwo, hthree, hfour]

/-- A unit does not reach beyond the bytes that are there. -/
lemma readUnit_le_length (a : UInt8) (rest : Bytes) : (readUnit a rest).2 ≤ rest.length := by
  unfold readUnit
  rcases rest with _ | ⟨b, _ | ⟨c, _ | ⟨d, rest⟩⟩⟩ <;> simp only [List.length_cons, List.length_nil] <;>
    split_ifs <;> simp

/-! ## All units -/

lemma unitsAfter_append (hx : x < 0x80) {skip : Nat} (hskip : skip ≤ body.length) :
    unitsAfter skip (body ++ x :: rest) =
      unitsAfter skip body ++ some (Char.ofNat x.toNat) :: units rest := by
  induction body generalizing skip with
  | nil =>
    obtain rfl : skip = 0 := Nat.le_zero.1 hskip
    rw [List.nil_append, unitsAfter, unitsAfter, readUnit_ascii hx]
    rfl
  | cons a body ih =>
    cases skip with
    | zero =>
      rw [List.cons_append, unitsAfter, unitsAfter, readUnit_append hx,
        ih (readUnit_le_length a body), List.cons_append]
    | succ skip =>
      rw [List.cons_append, unitsAfter, unitsAfter]
      exact ih (Nat.le_of_succ_le_succ hskip)

/-- **A byte below 0x80 is a character by itself**, and what is around it is read as if it were alone. -/
theorem units_append_ascii (hx : x < 0x80) (body rest : Bytes) :
    units (body ++ x :: rest) = units body ++ some (Char.ofNat x.toNat) :: units rest :=
  unitsAfter_append hx (Nat.zero_le _)

/-- Bytes with a line feed are read piece by piece. -/
theorem decodeLossy_append_newline (body rest : Bytes) :
    decodeLossy (body ++ 0x0a :: rest) = decodeLossy body ++ "\n" ++ decodeLossy rest := by
  rw [decodeLossy, units_append_ascii (by decide) body rest]
  apply String.toList_inj.1
  simp [decodeLossy]

/-! ## No other line feeds -/

lemma ofNat_eq_newline {n : Nat} (h : Char.ofNat n = '\n') : n = 10 := by
  rw [Char.ofNat] at h
  by_cases hn : n.isValidChar
  · rw [dif_pos hn] at h
    exact congrArg Char.toNat h
  · rw [dif_neg hn] at h
    cases h

/-- Two bytes say 128 at least. -/
lemma le_two_bytes (h : (0xc2 ≤ a && a ≤ 0xdf) = true) : 128 ≤ a.toNat % 32 * 64 := by
  simp only [Bool.and_eq_true, decide_eq_true_eq, UInt8.le_iff_toNat_le] at h
  have hlow : 194 ≤ a.toNat := h.1
  have hhigh : a.toNat ≤ 223 := h.2
  omega

/-- Three bytes say 2048 at least. -/
lemma le_three_bytes {b : UInt8} (ha : (0xe0 ≤ a && a ≤ 0xef) = true)
    (hb : followsThree a b = true) : 2048 ≤ a.toNat % 16 * 4096 + payload b * 64 := by
  simp only [Bool.and_eq_true, decide_eq_true_eq, UInt8.le_iff_toNat_le] at ha
  have hlow : 224 ≤ a.toNat := ha.1
  have hhigh : a.toNat ≤ 239 := ha.2
  by_cases hlead : a = 0xe0
  · subst hlead
    simp only [followsThree, beq_self_eq_true, if_true, Bool.and_eq_true, decide_eq_true_eq,
      UInt8.le_iff_toNat_le] at hb
    have hblow : 160 ≤ b.toNat := hb.1
    have hbhigh : b.toNat ≤ 191 := hb.2
    rw [payload]
    omega
  · have hne : a.toNat ≠ 224 := fun h => hlead (UInt8.toNat_inj.1 h)
    omega

/-- Four bytes say 65536 at least. -/
lemma le_four_bytes {b : UInt8} (ha : (0xf0 ≤ a && a ≤ 0xf4) = true)
    (hb : followsFour a b = true) : 65536 ≤ a.toNat % 8 * 262144 + payload b * 4096 := by
  simp only [Bool.and_eq_true, decide_eq_true_eq, UInt8.le_iff_toNat_le] at ha
  have hlow : 240 ≤ a.toNat := ha.1
  have hhigh : a.toNat ≤ 244 := ha.2
  by_cases hlead : a = 0xf0
  · subst hlead
    simp only [followsFour, beq_self_eq_true, if_true, Bool.and_eq_true, decide_eq_true_eq,
      UInt8.le_iff_toNat_le] at hb
    have hblow : 144 ≤ b.toNat := hb.1
    have hbhigh : b.toNat ≤ 191 := hb.2
    rw [payload]
    omega
  · have hne : a.toNat ≠ 240 := fun h => hlead (UInt8.toNat_inj.1 h)
    omega

/-- No longer form says what one byte says. -/
lemma readUnit_eq_newline (h : (readUnit a rest).1 = some '\n') : a = 0x0a := by
  unfold readUnit at h
  split at h
  case isTrue =>
    exact UInt8.toNat_inj.1 (ofNat_eq_newline (Option.some.inj h))
  split at h
  case isTrue htwo =>
    have hvalue := le_two_bytes htwo
    rcases rest with _ | ⟨b, rest⟩
    · cases h
    simp only at h
    split_ifs at h
    have := ofNat_eq_newline (Option.some.inj h)
    omega
  split at h
  case isTrue hthree =>
    rcases rest with _ | ⟨b, _ | ⟨c, rest⟩⟩
    · cases h
    · simp only at h
      split_ifs at h
    simp only at h
    split_ifs at h with hb
    have hvalue := le_three_bytes hthree hb
    have := ofNat_eq_newline (Option.some.inj h)
    omega
  split at h
  case isTrue hfour =>
    rcases rest with _ | ⟨b, _ | ⟨c, _ | ⟨d, rest⟩⟩⟩
    · cases h
    · simp only at h
      split_ifs at h
    · simp only at h
      split_ifs at h
    simp only at h
    split_ifs at h with hb
    have hvalue := le_four_bytes hfour hb
    have := ofNat_eq_newline (Option.some.inj h)
    omega
  case isFalse => cases h

lemma newline_mem_unitsAfter {skip : Nat} (h : some '\n' ∈ unitsAfter skip body) :
    0x0a ∈ body := by
  induction body generalizing skip with
  | nil => simp [unitsAfter] at h
  | cons a body ih =>
    cases skip with
    | zero =>
      rw [unitsAfter, List.mem_cons] at h
      rcases h with h | h
      · exact readUnit_eq_newline h.symm ▸ List.mem_cons_self
      · exact List.mem_cons_of_mem a (ih h)
    | succ skip =>
      rw [unitsAfter] at h
      exact List.mem_cons_of_mem a (ih h)

/-- **The line feeds of a text are those of its bytes.** -/
theorem newline_mem_decodeLossy_iff : '\n' ∈ (decodeLossy body).toList ↔ 0x0a ∈ body := by
  constructor
  · intro h
    rw [decodeLossy, String.toList_ofList, List.mem_map] at h
    obtain ⟨u, hu, hnewline⟩ := h
    cases u with
    | none => cases hnewline
    | some c =>
      obtain rfl : c = '\n' := hnewline
      exact newline_mem_unitsAfter hu
  · intro h
    obtain ⟨before, after, rfl⟩ := List.append_of_mem h
    rw [decodeLossy_append_newline]
    simp

end GuestShell.Text
