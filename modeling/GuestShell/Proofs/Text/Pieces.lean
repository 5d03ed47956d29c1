import GuestShell.Text.Blank
import Mathlib.Data.List.Basic
import Mathlib.Data.List.TakeWhile
import Mathlib.Tactic.Lemma

/-!
# Pieces between separators

A list of characters has one piece more than it has separators.  Where it is put together at a
separator its pieces are those of the two parts (`splitOn_append_cons`), and every list is a piece
without separators or such a piece, a separator and the rest (`pieces_induction`).

The last piece is what comes after the last separator (`exists_append_lastPiece`).  The words of a text
are its pieces between blanks, but for the empty ones, so text after a blank adds its words at the
end (`words_append`).
-/

namespace GuestShell.Text

variable {p : Char → Bool} {xs ys : List Char} {c : Char}

/-- The list has no separator. -/
def Unbroken (p : Char → Bool) (cs : List Char) : Prop := ∀ c ∈ cs, p c = false

lemma Unbroken.append (hxs : Unbroken p xs) (hys : Unbroken p ys) : Unbroken p (xs ++ ys) :=
  List.forall_mem_append.2 ⟨hxs, hys⟩

/-! ## Splitting -/

lemma splitOn_eq_splitOnP (p : Char → Bool) (cs : List Char) : splitOn p cs = cs.splitOnP p := by
  induction cs with
  | nil => rfl
  | cons c cs ih =>
    rw [splitOn, ih, List.splitOnP_cons_eq_if_modifyHead]
    cases hpieces : cs.splitOnP p with
    | nil => exact absurd hpieces (List.splitOnP_ne_nil p cs)
    | cons piece pieces => rfl

lemma splitOn_of_unbroken (h : Unbroken p xs) : splitOn p xs = [xs] := by
  rw [splitOn_eq_splitOnP, List.splitOnP_eq_singleton h]

/-- **Pieces on both sides of a separator.** -/
theorem splitOn_append_cons (hc : p c = true) (xs ys : List Char) :
    splitOn p (xs ++ c :: ys) = splitOn p xs ++ splitOn p ys := by
  rw [splitOn_eq_splitOnP, splitOn_eq_splitOnP, splitOn_eq_splitOnP, List.splitOnP_append_cons _ _ hc]

lemma splitOn_unbroken_cons (hxs : Unbroken p xs) (hc : p c = true) (ys : List Char) :
    splitOn p (xs ++ c :: ys) = xs :: splitOn p ys := by
  rw [splitOn_append_cons hc, splitOn_of_unbroken hxs, List.singleton_append]

/-- **What holds of one piece, and of one more piece in front, holds of every list.** -/
theorem pieces_induction {motive : List Char → Prop} (last : ∀ xs, Unbroken p xs → motive xs)
    (more : ∀ xs c ys, Unbroken p xs → p c = true → motive ys → motive (xs ++ c :: ys))
    (cs : List Char) : motive cs := by
  have hfirst : Unbroken p (cs.takeWhile fun c => !p c) := fun c hc => by
    simpa using List.mem_takeWhile_imp hc
  cases hrest : cs.dropWhile fun c => !p c with
  | nil =>
    refine last cs fun c hc => ?_
    simpa using List.dropWhile_eq_nil_iff.1 hrest c hc
  | cons c ys =>
    have hc : p c = true := by
      simpa [hrest] using List.head?_dropWhile_not (fun c => !p c) cs
    have hcs : cs = cs.takeWhile (fun c => !p c) ++ c :: ys := by
      rw [← hrest, List.takeWhile_append_dropWhile]
    have hshorter : ys.length < cs.length := by
      rw [hcs, List.length_append, List.length_cons]
      omega
    rw [hcs]
    exact more _ c ys hfirst hc (pieces_induction last more ys)
termination_by cs.length

/-! ## The last piece -/

/-- The last piece has no separator, and there is one in front of it unless it is all there is. -/
lemma exists_append_lastPiece (p : Char → Bool) (cs : List Char) : ∃ before,
    cs = before ++ lastPiece p cs ∧ (∀ c ∈ before.getLast?, p c = true) ∧
      Unbroken p (lastPiece p cs) := by
  refine ⟨(cs.reverse.dropWhile fun c => !p c).reverse, ?_, ?_, ?_⟩
  · rw [lastPiece, ← List.reverse_append, List.takeWhile_append_dropWhile, List.reverse_reverse]
  · rw [List.getLast?_reverse]
    intro c hc
    have hhead := List.head?_dropWhile_not (fun c => !p c) cs.reverse
    rw [Option.mem_def.1 hc] at hhead
    simpa using hhead
  · intro c hc
    rw [lastPiece, List.mem_reverse] at hc
    simpa using List.mem_takeWhile_imp hc

/-- After a separator, or after nothing, what has no separator is the last piece. -/
lemma exists_splitOn_append (h : ∀ c ∈ xs.getLast?, p c = true) :
    ∃ init, ∀ ys, Unbroken p ys → splitOn p (xs ++ ys) = init ++ [ys] := by
  rcases List.eq_nil_or_concat' xs with rfl | ⟨front, c, rfl⟩
  · exact ⟨[], fun ys hys => splitOn_of_unbroken hys⟩
  · have hc : p c = true := h c (by simp)
    refine ⟨splitOn p front, fun ys hys => ?_⟩
    rw [List.append_assoc, List.singleton_append, splitOn_append_cons hc, splitOn_of_unbroken hys]

/-! ## Words -/

lemma words_of_unbroken (h : Unbroken isBlank xs) (hne : xs ≠ []) : words xs = [xs] := by
  rw [words, splitOn_of_unbroken h]
  simp [hne]

lemma words_append_cons (hc : isBlank c = true) (xs ys : List Char) :
    words (xs ++ c :: ys) = words xs ++ words ys := by
  rw [words, splitOn_append_cons hc, List.filter_append]
  rfl

/-- Text after a blank, or after nothing, adds its words. -/
lemma words_append (h : ∀ c ∈ xs.getLast?, isBlank c = true) (ys : List Char) :
    words (xs ++ ys) = words xs ++ words ys := by
  rcases List.eq_nil_or_concat' xs with rfl | ⟨front, c, rfl⟩
  · rfl
  · have hc : isBlank c = true := h c (by simp)
    have hfront : words (front ++ [c]) = words front := by
      rw [words_append_cons hc]
      exact List.append_nil _
    rw [List.append_assoc, List.singleton_append, words_append_cons hc, hfront]

end GuestShell.Text
