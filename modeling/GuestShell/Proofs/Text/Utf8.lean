import GuestShell.Text.Utf8
import Mathlib.Tactic.Lemma

/-!
# Reading what was written

The units of an encoded text are its characters, each one whole (`units_encode_append`), so reading gives
the text back (`decodeLossy_encode`).  The first byte of a character says how many follow it; there is
one lemma for each number of bytes.
-/

namespace GuestShell.Text

/-! ## One character -/

section Bytes

variable {w x y z : Nat} (rest : Bytes)

lemma toNat_byte {n : Nat} (h : n < 256) : (UInt8.ofNat n).toNat = n :=
  Nat.mod_eq_of_lt h

lemma byte_lt_iff (b : UInt8) {n : Nat} (h : n < 256) : UInt8.ofNat n < b ↔ n < b.toNat := by
  rw [UInt8.lt_iff_toNat_lt, toNat_byte h]

lemma byte_beq_iff (b : UInt8) {n : Nat} (h : n < 256) :
    (UInt8.ofNat n == b) = true ↔ n = b.toNat := by
  rw [beq_iff_eq, ← UInt8.toNat_inj, toNat_byte h]

lemma byte_between_iff (low high : UInt8) {n : Nat} (h : n < 256) :
    (low ≤ UInt8.ofNat n && UInt8.ofNat n ≤ high) = true ↔ low.toNat ≤ n ∧ n ≤ high.toNat := by
  rw [Bool.and_eq_true, decide_eq_true_iff, decide_eq_true_iff, UInt8.le_iff_toNat_le,
    UInt8.le_iff_toNat_le, toNat_byte h]

lemma isContinuation_byte (hx : x < 64) : isContinuation (UInt8.ofNat (x + 128)) = true :=
  (byte_between_iff 0x80 0xbf (by omega)).2 (show 128 ≤ x + 128 ∧ x + 128 ≤ 191 by omega)

lemma payload_byte (hx : x < 64) : payload (UInt8.ofNat (x + 128)) = x := by
  rw [payload, toNat_byte (by omega)]
  omega

lemma readUnit_one (hx : x < 128) :
    readUnit (UInt8.ofNat x) rest = (some (Char.ofNat x), 0) := by
  have hone : UInt8.ofNat x < 0x80 := (byte_lt_iff 0x80 (by omega)).2 hx
  unfold readUnit
  rw [if_pos hone, toNat_byte (by omega)]

lemma readUnit_two (hlow : 2 ≤ x) (hx : x < 32) (hy : y < 64) :
    readUnit (UInt8.ofNat (x + 192)) (UInt8.ofNat (y + 128) :: rest) =
      (some (Char.ofNat (x * 64 + y)), 1) := by
  have hlead : x + 192 < 256 := by omega
  have hone : ¬ UInt8.ofNat (x + 192) < 0x80 :=
    mt (byte_lt_iff 0x80 hlead).1 (show ¬ x + 192 < 128 by omega)
  have htwo : (0xc2 ≤ UInt8.ofNat (x + 192) && UInt8.ofNat (x + 192) ≤ 0xdf) = true :=
    (byte_between_iff 0xc2 0xdf hlead).2 (show 194 ≤ x + 192 ∧ x + 192 ≤ 223 by omega)
  unfold readUnit
  rw [if_neg hone, if_pos htwo]
  simp only [isContinuation_byte hy, payload_byte hy, toNat_byte hlead, if_true]
  rw [show (x + 192) % 32 = x by omega]

/-- The second byte of three keeps clear of what two bytes can say, and of surrogates. -/
lemma followsThree_byte (hx : x < 16) (hy : y < 64) (hlow : x = 0 → 32 ≤ y)
    (hhigh : x = 13 → y < 32) :
    followsThree (UInt8.ofNat (x + 224)) (UInt8.ofNat (y + 128)) = true := by
  have hlead : x + 224 < 256 := by omega
  rw [followsThree]
  split
  case isTrue h =>
    have hfirst : x + 224 = 224 := (byte_beq_iff 0xe0 hlead).1 h
    exact (byte_between_iff 0xa0 0xbf (by omega)).2 (show 160 ≤ y + 128 ∧ y + 128 ≤ 191 by omega)
  split
  case isTrue h =>
    have hfirst : x + 224 = 237 := (byte_beq_iff 0xed hlead).1 h
    exact (byte_between_iff 0x80 0x9f (by omega)).2 (show 128 ≤ y + 128 ∧ y + 128 ≤ 159 by omega)
  exact isContinuation_byte hy

lemma readUnit_three (hx : x < 16) (hy : y < 64) (hz : z < 64) (hlow : x = 0 → 32 ≤ y)
    (hhigh : x = 13 → y < 32) :
    readUnit (UInt8.ofNat (x + 224)) (UInt8.ofNat (y + 128) :: UInt8.ofNat (z + 128) :: rest) =
      (some (Char.ofNat (x * 4096 + y * 64 + z)), 2) := by
  have hlead : x + 224 < 256 := by omega
  have hone : ¬ UInt8.ofNat (x + 224) < 0x80 :=
    mt (byte_lt_iff 0x80 hlead).1 (show ¬ x + 224 < 128 by omega)
  have htwo : ¬ (0xc2 ≤ UInt8.ofNat (x + 224) && UInt8.ofNat (x + 224) ≤ 0xdf) = true :=
    mt (byte_between_iff 0xc2 0xdf hlead).1 (show ¬(194 ≤ x + 224 ∧ x + 224 ≤ 223) by omega)
  have hthree : (0xe0 ≤ UInt8.ofNat (x + 224) && UInt8.ofNat (x + 224) ≤ 0xef) = true :=
    (byte_between_iff 0xe0 0xef hlead).2 (show 224 ≤ x + 224 ∧ x + 224 ≤ 239 by omega)
  unfold readUnit
  rw [if_neg hone, if_neg htwo, if_pos hthree]
  simp only [followsThree_byte hx hy hlow hhigh, isContinuation_byte hz, payload_byte hy,
    payload_byte hz, toNat_byte hlead, if_true]
  rw [show (x + 224) % 16 = x by omega]

/-- The second byte of four keeps clear of what three bytes can say, and of numbers that are too
great. -/
lemma followsFour_byte (hw : w < 5) (hx : x < 64) (hlow : w = 0 → 16 ≤ x) (hhigh : w = 4 → x < 16) :
    followsFour (UInt8.ofNat (w + 240)) (UInt8.ofNat (x + 128)) = true := by
  have hlead : w + 240 < 256 := by omega
  rw [followsFour]
  split
  case isTrue h =>
    have hfirst : w + 240 = 240 := (byte_beq_iff 0xf0 hlead).1 h
    exact (byte_between_iff 0x90 0xbf (by omega)).2 (show 144 ≤ x + 128 ∧ x + 128 ≤ 191 by omega)
  split
  case isTrue h =>
    have hfirst : w + 240 = 244 := (byte_beq_iff 0xf4 hlead).1 h
    exact (byte_between_iff 0x80 0x8f (by omega)).2 (show 128 ≤ x + 128 ∧ x + 128 ≤ 143 by omega)
  exact isContinuation_byte hx

lemma readUnit_four (hw : w < 5) (hx : x < 64) (hy : y < 64) (hz : z < 64)
    (hlow : w = 0 → 16 ≤ x) (hhigh : w = 4 → x < 16) :
    readUnit (UInt8.ofNat (w + 240)) (UInt8.ofNat (x + 128) :: UInt8.ofNat (y + 128) ::
        UInt8.ofNat (z + 128) :: rest) =
      (some (Char.ofNat (w * 262144 + x * 4096 + y * 64 + z)), 3) := by
  have hlead : w + 240 < 256 := by omega
  have hone : ¬ UInt8.ofNat (w + 240) < 0x80 :=
    mt (byte_lt_iff 0x80 hlead).1 (show ¬ w + 240 < 128 by omega)
  have htwo : ¬ (0xc2 ≤ UInt8.ofNat (w + 240) && UInt8.ofNat (w + 240) ≤ 0xdf) = true :=
    mt (byte_between_iff 0xc2 0xdf hlead).1 (show ¬(194 ≤ w + 240 ∧ w + 240 ≤ 223) by omega)
  have hthree : ¬ (0xe0 ≤ UInt8.ofNat (w + 240) && UInt8.ofNat (w + 240) ≤ 0xef) = true :=
    mt (byte_between_iff 0xe0 0xef hlead).1 (show ¬(224 ≤ w + 240 ∧ w + 240 ≤ 239) by omega)
  have hfour : (0xf0 ≤ UInt8.ofNat (w + 240) && UInt8.ofNat (w + 240) ≤ 0xf4) = true :=
    (byte_between_iff 0xf0 0xf4 hlead).2 (show 240 ≤ w + 240 ∧ w + 240 ≤ 244 by omega)
  unfold readUnit
  rw [if_neg hone, if_neg htwo, if_neg hthree, if_pos hfour]
  simp only [followsFour_byte hw hx hlow hhigh, isContinuation_byte hy, isContinuation_byte hz,
    payload_byte hx, payload_byte hy, payload_byte hz, toNat_byte hlead, if_true]
  rw [show (w + 240) % 8 = w by omega]

end Bytes

lemma units_cons (a : UInt8) (rest : Bytes) :
    units (a :: rest) = (readUnit a rest).1 :: unitsAfter (readUnit a rest).2 rest :=
  rfl

/-- **A character is one unit, whatever follows it.** -/
theorem units_encodeChar_append (c : Char) (rest : Bytes) :
    units (String.utf8EncodeChar c ++ rest) = some c :: units rest := by
  have hchar : Char.ofNat c.val.toNat = c := Char.ofNat_toNat c
  have hvalid : c.val.toNat < 0xd800 ∨ 0xdfff < c.val.toNat ∧ c.val.toNat < 0x110000 := c.valid
  rw [String.utf8EncodeChar]
  generalize c.val.toNat = v at hchar hvalid
  have hread {k : Nat} (hk : k = v) : Char.ofNat k = c := by rw [hk, hchar]
  split
  · rw [List.singleton_append, units_cons, readUnit_one _ (by omega), hchar]
    rfl
  split
  · rw [List.cons_append, List.singleton_append, units_cons,
      readUnit_two _ (by omega) (by omega) (by omega), hread (by omega)]
    rfl
  split
  · rw [List.cons_append, List.cons_append, List.singleton_append, units_cons,
      readUnit_three _ (by omega) (by omega) (by omega) (by omega) (by omega), hread (by omega)]
    rfl
  · rw [List.cons_append, List.cons_append, List.cons_append, List.singleton_append, units_cons,
      readUnit_four _ (by omega) (by omega) (by omega) (by omega) (by omega) (by omega),
      hread (by omega)]
    rfl

/-! ## Texts -/

theorem units_encode_append (s : String) (rest : Bytes) :
    units (encode s ++ rest) = s.toList.map some ++ units rest := by
  rw [encode]
  induction s.toList with
  | nil => rfl
  | cons c chars ih =>
    rw [List.flatMap_cons, List.append_assoc, units_encodeChar_append, ih]
    rfl

/-- **What was written is read back.** -/
theorem decodeLossy_encode (s : String) : decodeLossy (encode s) = s := by
  have hunits := units_encode_append s []
  rw [List.append_nil] at hunits
  rw [decodeLossy, hunits]
  simp [units, unitsAfter, Function.comp_def]

end GuestShell.Text
