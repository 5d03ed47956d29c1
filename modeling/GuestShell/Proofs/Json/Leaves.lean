import GuestShell.Json.Parser
import GuestShell.Json.Printer
import Mathlib.Tactic.Lemma
import Mathlib.Tactic.SplitIfs

/-!
# Strings and numbers are read back

The reader takes a printed string or integer for what it is and stops where it ends.  A string ends
at its quote.  A number ends where something follows that no number can go on with (`Follows`); in
the compact form that is a comma, a closing bracket or brace, or the end of the text.
-/

namespace GuestShell.Json

/-! ## Strings -/

lemma hexValue?_hexDigit : ∀ n < 16, Bytes.hexValue? (Bytes.hexDigit n) = some n := by decide

/-- **A character is read back**, escaped or not. -/
lemma part?_escapeChar (c : Char) (rest : Units) :
    part? ((escapeChar c).map some ++ rest) = some (.char (some c), rest) := by
  rw [escapeChar]
  split_ifs with h₁ h₂ h₃ h₄ h₅ h₆ h₇ h₈
  · rw [h₁]
    rfl
  · rw [h₂]
    rfl
  · rw [h₃]
    rfl
  · rw [h₄]
    rfl
  · rw [h₅]
    rfl
  · rw [h₆]
    rfl
  · rw [h₇]
    rfl
  · have hhigh := hexValue?_hexDigit (c.toNat / 16) (by omega)
    have hlow := hexValue?_hexDigit (c.toNat % 16) (by omega)
    have hzero : Bytes.hexValue? '0' = some 0 := by decide
    have hcode : ((0 * 16 + 0) * 16 + c.toNat / 16) * 16 + c.toNat % 16 = c.toNat := by omega
    have hescape : unicodeEscape? (some '0' :: some '0' :: some (Bytes.hexDigit (c.toNat / 16)) ::
        some (Bytes.hexDigit (c.toNat % 16)) :: rest) = some (some c, rest) := by
      simp only [unicodeEscape?, hex4?, hzero, hhigh, hlow, hcode, Option.bind_eq_bind,
        Option.bind_some, Option.pure_def]
      rw [if_neg (by omega), if_neg (by omega), Char.ofNat_toNat]
    show (unicodeEscape? (some '0' :: some '0' :: some (Bytes.hexDigit (c.toNat / 16)) ::
      some (Bytes.hexDigit (c.toNat % 16)) :: rest)).map _ = _
    rw [hescape]
    rfl
  · show part? (some c :: rest) = _
    rw [part?]
    · rw [if_neg h₈]
    · exact h₁
    · exact h₂

lemma length_flatMap_escapeChar (cs : List Char) : cs.length ≤ (cs.flatMap escapeChar).length := by
  induction cs with
  | nil => exact Nat.le_refl 0
  | cons c cs ih =>
    have hc : 0 < (escapeChar c).length := by
      rw [escapeChar]
      split_ifs <;> exact Nat.succ_pos _
    rw [List.flatMap_cons, List.length_append, List.length_cons]
    omega

lemma stringTail?_escaped (cs read : List Char) (rest : Units) {fuel : Nat} (h : cs.length < fuel) :
    stringTail? fuel true read ((cs.flatMap escapeChar).map some ++ some '"' :: rest) =
      some (some (String.ofList (read.reverse ++ cs)), rest) := by
  induction cs generalizing read fuel with
  | nil =>
    obtain ⟨fuel, rfl⟩ := Nat.exists_eq_succ_of_ne_zero (Nat.ne_of_gt h)
    rw [List.append_nil]
    rfl
  | cons c cs ih =>
    obtain ⟨fuel, rfl⟩ := Nat.exists_eq_succ_of_ne_zero (Nat.ne_of_gt (Nat.zero_lt_of_lt h))
    rw [List.flatMap_cons, List.map_append, List.append_assoc, stringTail?, part?_escapeChar]
    simp only
    rw [ih (c :: read) (Nat.lt_of_succ_lt_succ h)]
    simp

/-- **A string is read back.** -/
theorem string?_quote (s : String) (rest : Units) :
    string? ((s.toList.flatMap escapeChar).map some ++ some '"' :: rest) = some (some s, rest) := by
  rw [string?, stringTail?_escaped]
  · simp
  · have := length_flatMap_escapeChar s.toList
    simp only [List.length_append, List.length_map, List.length_cons]
    omega

/-! ## Numbers -/

/-- What may follow a value: a comma, a closing bracket or brace, or nothing. -/
def Follows (rest : Units) : Prop :=
  ∀ u ∈ rest.head?, u = some ',' ∨ u = some ']' ∨ u = some '\x7d'

lemma follows_nil : Follows [] := nofun

lemma digits_append {ds : List Char} (hds : ∀ d ∈ ds, d.isDigit = true) {rest : Units}
    (hrest : Follows rest) : digits (ds.map some ++ rest) = (ds, rest) := by
  induction ds with
  | nil =>
    rcases rest with _ | ⟨_ | c, rest⟩
    · rfl
    · rfl
    · rw [List.map_nil, List.nil_append, digits, if_neg]
      rcases hrest _ rfl with h | h | h <;> cases h <;> decide
  | cons d ds ih =>
    obtain ⟨hd, hds⟩ := List.forall_mem_cons.1 hds
    have hrange : '0' ≤ d ∧ d ≤ '9' := by
      simpa [Char.isDigit, Char.le_def] using hd
    rw [List.map_cons, List.cons_append, digits, if_pos hrange, ih hds]

lemma decimal_toDigits (n : Nat) : decimal (Nat.toDigits 10 n) = n := by
  have h := Nat.ofDigitChars_ten_toDigits (n := n)
  rw [Nat.ofDigitChars_eq_foldl] at h
  simp only [Nat.mul_comm 10] at h
  exact h

lemma isDigit_of_mem {n : Nat} {d : Char} (h : d ∈ Nat.toDigits 10 n) : d.isDigit = true :=
  Nat.isDigit_of_mem_toDigits (by decide) (Nat.le_refl 10) h

lemma head?_toDigits {n : Nat} (h : n ≠ 0) : (Nat.toDigits 10 n).head? ≠ some '0' := by
  induction n using Nat.strongRecOn with
  | ind n ih =>
    rw [Nat.toDigits_eq_if (by decide)]
    split_ifs with hsmall
    · simpa [Nat.digitChar_eq_zero] using h
    · have hhead := ih (n / 10) (by omega) (by omega)
      cases hdigits : Nat.toDigits 10 (n / 10) with
      | nil => exact absurd hdigits Nat.toDigits_ne_nil
      | cons d ds =>
        rw [hdigits] at hhead
        simpa using hhead

/-- No number of more than one digit begins with a zero. -/
lemma toDigits_ne_zero_cons {n : Nat} {d : Char} {ds : List Char} :
    Nat.toDigits 10 n ≠ '0' :: d :: ds := by
  intro h
  by_cases hn : n = 0
  · rw [hn] at h
    cases h
  · refine head?_toDigits hn ?_
    rw [h]
    rfl

lemma unsigned?_toDigits (negative : Bool) (n : Nat) {rest : Units} (hrest : Follows rest) :
    unsigned? negative ((Nat.toDigits 10 n).map some ++ rest) =
      some (numberValue negative (Nat.toDigits 10 n) none, rest) := by
  rw [unsigned?, digits_append (fun d => isDigit_of_mem) hrest]
  split
  · rename_i h
    exact absurd (Prod.mk.inj h).1 Nat.toDigits_ne_nil
  · rename_i h
    exact absurd (Prod.mk.inj h).1 toDigits_ne_zero_cons
  · rename_i h
    obtain ⟨rfl, rfl⟩ := Prod.mk.inj h
    split
    · exact absurd (hrest _ rfl) (by decide)
    · exact absurd (hrest _ rfl) (by decide)
    · exact absurd (hrest _ rfl) (by decide)
    · rfl

/-- The integers of 64 bits, signed or not. -/
def IsWord (n : Int) : Prop := -(1 <<< 63 : Nat) ≤ n ∧ n < UInt64.size

instance : DecidablePred IsWord := fun n =>
  inferInstanceAs (Decidable (-(1 <<< 63 : Nat) ≤ n ∧ n < UInt64.size))

/-- **An integer is read back.** -/
theorem number?_toString {n : Int} (hn : IsWord n) {rest : Units} (hrest : Follows rest) :
    number? ((toString n).toList.map some ++ rest) = some (.int n, rest) := by
  cases n with
  | ofNat n =>
    have hlt : n < UInt64.size := Int.ofNat_lt.1 hn.2
    have htext : (toString (Int.ofNat n)).toList = Nat.toDigits 10 n := Nat.toList_repr
    rw [htext, number?.eq_def]
    split
    · rename_i heq
      have hminus : ((Nat.toDigits 10 n).map some ++ rest).head? = some (some '-') := by
        rw [heq]
        rfl
      cases hdigits : Nat.toDigits 10 n with
      | nil => exact absurd hdigits Nat.toDigits_ne_nil
      | cons d ds =>
        rw [hdigits] at hminus
        obtain rfl : d = '-' := Option.some.inj (Option.some.inj hminus)
        exact absurd (isDigit_of_mem (hdigits ▸ List.mem_cons_self)) (by decide)
    · rw [unsigned?_toDigits false n hrest, numberValue, decimal_toDigits]
      simp [hlt]
  | negSucc n =>
    have hle : n + 1 ≤ 1 <<< 63 := by
      have := hn.1
      rw [Int.negSucc_eq] at this
      omega
    have htext : (toString (Int.negSucc n)).toList = '-' :: Nat.toDigits 10 (n + 1) := by
      show ("-" ++ Nat.repr (n + 1)).toList = _
      rw [String.toList_append, Nat.toList_repr]
      rfl
    rw [htext]
    show unsigned? true ((Nat.toDigits 10 (n + 1)).map some ++ rest) = _
    rw [unsigned?_toDigits true (n + 1) hrest, numberValue, decimal_toDigits]
    simp only [if_true, if_neg (Nat.succ_ne_zero n), if_pos hle]
    rfl

end GuestShell.Json
