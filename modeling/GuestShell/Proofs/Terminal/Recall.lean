import GuestShell.Terminal.History
import Mathlib.Data.List.Destutter
import Mathlib.Data.List.DropRight
import Mathlib.Tactic.Lemma
import Mathlib.Tactic.SplitIfs

/-!
# A history is the end of a log

The log of some lines has them in their order, without the blank ones and without those that repeat the
line before them (`log`).  What a history keeps is the end of the log of the lines that were pushed,
as much of it as it has room for, whatever else was done in between (`Remembers`, `remembers_run`).

A line is compared with the newest entry only.  That entry is the last line of the log as long as
there is room for one; a history without room compares with nothing, and keeps nothing either.

Going back and forth stops at the two ends, and the cursor is at the line being typed nowhere but
after the newest entry.
-/

namespace GuestShell.History

/-! ## The log -/

/-- What is worth keeping of some lines: neither blank lines nor immediate repetitions. -/
def log (lines : List String) : List String :=
  (lines.filter fun line => !Text.isBlankText line).destutter (· ≠ ·)

section Lists

variable {α : Type}

lemma destutter'_concat [DecidableEq α] (a b : α) (l : List α) :
    (l ++ [b]).destutter' (· ≠ ·) a =
      if (l.destutter' (· ≠ ·) a).getLast? = some b then l.destutter' (· ≠ ·) a
      else l.destutter' (· ≠ ·) a ++ [b] := by
  induction l generalizing a with
  | nil =>
    by_cases h : a = b <;> simp [h]
  | cons c l ih =>
    by_cases h : a = c
    · rw [List.cons_append, List.destutter'_cons_neg _ (not_not.2 h),
        List.destutter'_cons_neg _ (not_not.2 h), ih]
    · have hlast : (a :: l.destutter' (· ≠ ·) c).getLast? = (l.destutter' (· ≠ ·) c).getLast? := by
        cases hl : l.destutter' (· ≠ ·) c with
        | nil => exact absurd hl (List.destutter'_ne_nil _ _)
        | cons d ds => exact List.getLast?_cons_cons
      rw [List.cons_append, List.destutter'_cons_pos _ h, List.destutter'_cons_pos _ h, ih, hlast]
      split_ifs <;> rfl

/-- One more element is kept unless it repeats the last one that was kept. -/
lemma destutter_concat [DecidableEq α] (l : List α) (b : α) :
    (l ++ [b]).destutter (· ≠ ·) =
      if (l.destutter (· ≠ ·)).getLast? = some b then l.destutter (· ≠ ·)
      else l.destutter (· ≠ ·) ++ [b] := by
  cases l with
  | nil => rfl
  | cons a l => exact destutter'_concat a b l

/-- What has been dropped already makes no difference to the end of a longer list. -/
lemma rtake_concat_rtake (l : List α) (b : α) (n : Nat) :
    (l.rtake n ++ [b]).rtake n = (l ++ [b]).rtake n := by
  cases n with
  | zero => rw [List.rtake_zero, List.rtake_zero]
  | succ n =>
    have hagain : (l.rtake (n + 1)).rtake n = l.rtake n := by
      simp [List.rtake_eq_reverse_take_reverse, List.take_take]
    rw [List.rtake_concat_succ, List.rtake_concat_succ, hagain]

lemma getLast?_rtake (l : List α) {n : Nat} (hn : n ≠ 0) : (l.rtake n).getLast? = l.getLast? := by
  rw [List.rtake, List.getLast?_drop]
  split_ifs with h
  · have hl : l.length = 0 := by omega
    rw [List.length_eq_zero_iff.1 hl, List.getLast?_nil]
  · rfl

end Lists

lemma log_concat (lines : List String) (line : String) :
    log (lines ++ [line]) =
      if Text.isBlankText line = true ∨ (log lines).getLast? = some line then log lines
      else log lines ++ [line] := by
  rw [log, List.filter_append]
  by_cases hblank : Text.isBlankText line = true
  · rw [if_pos (.inl hblank), List.filter_singleton, hblank]
    simp [log]
  · rw [Bool.not_eq_true] at hblank
    rw [List.filter_singleton, hblank]
    simp only [Bool.not_false, cond_true, Bool.false_eq_true, false_or]
    exact destutter_concat _ _

/-! ## Moves -/

/-- What is done with a history. -/
inductive Move where
  | push (line : String)
  | back
  | forth
  | rewind
  deriving DecidableEq

/-- The line that is pushed, if one is. -/
def Move.line? : Move → Option String
  | push line => some line
  | _ => none

/-- One move. -/
def move (h : History) : Move → History
  | .push line => h.push line
  | .back => h.back
  | .forth => h.forth
  | .rewind => h.rewind

/-- One move after another. -/
def run (h : History) (moves : List Move) : History := moves.foldl move h

/-- The history has the end of the log of these lines, and its cursor is not beyond the newest of
them. -/
structure Remembers (room : Nat) (lines : List String) (h : History) : Prop where
  size : h.size = room
  entries : h.entries = (log lines).rtake room
  cursor : h.cursor ≤ h.entries.length

lemma remembers_empty (room : Nat) : Remembers room [] (empty room) where
  size := rfl
  entries := by simp [empty, log]
  cursor := Nat.le_refl 0

namespace Remembers

variable {room : Nat} {lines : List String} {h : History}

/-- What is repeated is told from the log, unless there is no room for any line. -/
lemma accepts_iff (hr : Remembers room lines h) (line : String) : h.accepts line = true ↔
    Text.isBlankText line = false ∧ (room = 0 ∨ (log lines).getLast? ≠ some line) := by
  rw [accepts, hr.entries]
  by_cases hroom : room = 0
  · simp [hroom]
  · simp [getLast?_rtake _ hroom, hroom]

lemma push (hr : Remembers room lines h) (line : String) :
    Remembers room (lines ++ [line]) (h.push line) := by
  rw [History.push]
  split_ifs with haccepts
  · -- an accepted line is added to the log as well, or there is no room for any
    have hentries : (h.entries ++ [line]).rtake room = (log (lines ++ [line])).rtake room := by
      rw [hr.entries, rtake_concat_rtake, log_concat]
      obtain ⟨hblank, hlast⟩ := (hr.accepts_iff line).1 haccepts
      rcases hlast with rfl | hlast
      · rw [List.rtake_zero, List.rtake_zero]
      · rw [if_neg (by simp [hblank, hlast])]
    exact ⟨hr.size, (congrArg _ hr.size).trans hentries, Nat.le_refl _⟩
  · have hsame : log (lines ++ [line]) = log lines := by
      rw [log_concat, if_pos]
      rw [hr.accepts_iff, not_and_or, not_or, not_not, Bool.not_eq_false] at haccepts
      exact haccepts.imp_right And.right
    exact ⟨hr.size, hsame ▸ hr.entries, hr.cursor⟩

lemma move (hr : Remembers room lines h) (m : Move) :
    Remembers room (lines ++ m.line?.toList) (h.move m) := by
  have hsame : h.entries = (log (lines ++ [])).rtake room := by
    rw [List.append_nil]
    exact hr.entries
  cases m with
  | push line => exact hr.push line
  | back => exact ⟨hr.size, hsame, (Nat.sub_le _ _).trans hr.cursor⟩
  | forth => exact ⟨hr.size, hsame, Nat.min_le_right _ _⟩
  | rewind => exact ⟨hr.size, hsame, Nat.le_refl _⟩

end Remembers

/-- **Whatever is done with a history, it remembers the end of the log.** -/
theorem remembers_run (room : Nat) (moves : List Move) :
    Remembers room (moves.filterMap Move.line?) ((empty room).run moves) := by
  induction moves using List.reverseRecOn with
  | nil => exact remembers_empty room
  | append_singleton moves m ih =>
    have hline : [m].filterMap Move.line? = m.line?.toList := by
      cases m <;> rfl
    rw [run, List.foldl_append, List.filterMap_append, hline]
    exact ih.move m

/-! ## Going back and forth -/

/-- The history has the same lines and its cursor at the given place, and shows what is there: a line,
unless it is the place after all lines. -/
structure At (h : History) (place : Nat) (h' : History) : Prop where
  size : h'.size = h.size
  entries : h'.entries = h.entries
  cursor : h'.cursor = place
  shown : h'.current? = h.entries[place]?
  nothing_shown : h'.current? = none ↔ place = h.entries.length

variable {h : History}

lemma at_place {place : Nat} (hplace : place ≤ h.entries.length) :
    h.At place { h with cursor := place } where
  size := rfl
  entries := rfl
  cursor := rfl
  shown := rfl
  nothing_shown := by
    rw [current?, List.getElem?_eq_none_iff]
    exact ⟨hplace.antisymm, Eq.ge⟩

lemma iterate_back (h : History) (k : Nat) : back^[k] h = { h with cursor := h.cursor - k } := by
  induction k with
  | zero => rfl
  | succ k ih => rw [Function.iterate_succ_apply', ih, back, Nat.sub_sub]

lemma iterate_forth (hcursor : h.cursor ≤ h.entries.length) (k : Nat) :
    forth^[k] h = { h with cursor := min h.entries.length (h.cursor + k) } := by
  induction k with
  | zero => rw [Function.iterate_zero_apply, Nat.add_zero, Nat.min_eq_right hcursor]
  | succ k ih =>
    have hnext : min (min h.entries.length (h.cursor + k) + 1) h.entries.length =
        min h.entries.length (h.cursor + (k + 1)) := by omega
    rw [Function.iterate_succ_apply', ih, forth, hnext]

/-- **A history is the bounded end of a log, with a cursor that stays within it.**  A line that is
accepted takes the cursor to the end, and one that is not changes nothing; going back, forth or to the
end changes nothing but the cursor, and a number of steps at once takes it as far as it can go. -/
theorem run_keeps_end_of_log (room : Nat) (moves : List Move) :
    let h := (empty room).run moves
    let lines := log (moves.filterMap Move.line?)
    h.entries = lines.rtake room ∧ h.cursor ≤ h.entries.length ∧
      (∀ line, (h.accepts line = true ↔
          Text.isBlankText line = false ∧ (room = 0 ∨ lines.getLast? ≠ some line)) ∧
        if h.accepts line then (h.push line).cursor = (h.push line).entries.length
        else h.push line = h) ∧
      h.At h.entries.length h.rewind ∧
      ∀ k, h.At (h.cursor - k) (back^[k] h) ∧
        h.At (min h.entries.length (h.cursor + k)) (forth^[k] h) := by
  intro h lines
  have hr : Remembers room (moves.filterMap Move.line?) h := remembers_run room moves
  refine ⟨hr.entries, hr.cursor, fun line => ⟨hr.accepts_iff line, ?_⟩, at_place (Nat.le_refl _),
    fun k => ⟨?_, ?_⟩⟩
  · rw [push]
    split_ifs <;> rfl
  · rw [iterate_back]
    exact at_place ((Nat.sub_le _ _).trans hr.cursor)
  · rw [iterate_forth hr.cursor]
    exact at_place (Nat.min_le_left _ _)

/-- Blank lines, a repetition, more lines than there is room for, and steps beyond both ends. -/
example : let h := (empty 2).run [.push "a", .push " ", .push "a", .push "b", .back, .push "a",
      .back, .back, .back, .forth]
    (h.entries, h.cursor, h.current?, (forth^[2] h).current?) = (["b", "a"], 1, some "a", none) := by
  decide

end GuestShell.History
