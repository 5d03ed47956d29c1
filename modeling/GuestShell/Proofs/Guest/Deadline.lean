import GuestShell.Guest.Execution
import Mathlib.Tactic.Lemma

/-!
# A guest heeds its deadline

A guest looks at the epoch when it enters a function and at every round of a loop.  `HeedsDeadline` says
of a task that every look compares the epoch with the same deadline: from the deadline on the task is at
its end, with what it is stopped with, and before that it goes on to heed the deadline.  An instance of a
module does so with the deadline it was given (`heeds_instantiate`).
-/

namespace GuestShell

namespace Engine

variable {α β : Type} {stop : α} {deadline : Nat}

/-- Whether an answer says that the deadline was reached. -/
def expired (deadline : Nat) : (q : Request) → Answer q → Bool
  | .epoch, epoch => deadline ≤ epoch
  | _, _ => false

/-- Every look at the epoch stops the task from the deadline on, and no other answer does. -/
def HeedsDeadline (stop : α) (deadline : Nat) : Run α → Prop
  | .done _ => True
  | .ask q next => ∀ a, if expired deadline q a then next a = .done stop
    else HeedsDeadline stop deadline (next a)

lemma heeds_done (a : α) : HeedsDeadline stop deadline (.done a) := trivial

lemma heeds_ask {q : Request} {next : Answer q → Run α} (hq : ∀ a, expired deadline q a = false)
    (h : ∀ a, HeedsDeadline stop deadline (next a)) : HeedsDeadline stop deadline (.ask q next) := by
  intro a
  rw [hq a, if_neg Bool.false_ne_true]
  exact h a

lemma heeds_look {next : Nat → Run α} (h : ∀ epoch, HeedsDeadline stop deadline (next epoch)) :
    HeedsDeadline stop deadline (.ask .epoch fun (epoch : Nat) =>
      if deadline ≤ epoch then .done stop else next epoch) := by
  intro (epoch : Nat)
  by_cases hlate : deadline ≤ epoch
  · rw [if_pos (by simpa [expired] using hlate)]
    exact if_pos hlate
  · rw [if_neg (by simpa [expired] using hlate)]
    simpa only [if_neg hlate] using h epoch

lemma HeedsDeadline.next {q : Request}
    {next : Answer q → Run α} (h : HeedsDeadline stop deadline (.ask q next)) (a : Answer q) :
    HeedsDeadline stop deadline (next a) := by
  have ha := h a
  split at ha
  · rw [ha]
    exact heeds_done _
  · exact ha

lemma HeedsDeadline.stops {epoch : Nat} {next : Nat → Run α}
    (h : HeedsDeadline stop deadline (.ask .epoch next)) (hlate : deadline ≤ epoch) :
    next epoch = .done stop := by
  have ha := h epoch
  rwa [if_pos (by simpa [expired] using hlate)] at ha

lemma HeedsDeadline.bind {stop' : β} {t : Run α} {f : α → Run β}
    (h : HeedsDeadline stop deadline t) (hstop : f stop = .done stop')
    (hnext : ∀ a, HeedsDeadline stop' deadline (f a)) :
    HeedsDeadline stop' deadline (t.bind f) := by
  induction t with
  | done a => exact hnext a
  | ask q next ih =>
    intro a
    have ha := h a
    by_cases hlate : expired deadline q a = true
    · rw [if_pos hlate] at ha ⊢
      simp only [ha, Task.bind_done, hstop]
    · rw [if_neg hlate] at ha ⊢
      exact ih a ha

end Engine

open Engine

namespace Linked

variable {deadline : Nat}

lemma heeds_noteResult_bind {α : Type} {stop : α} {next : Unit → Engine.Run α} (l : Linked)
    (name : String) (v : Int64) (h : HeedsDeadline stop deadline (next ())) :
    HeedsDeadline stop deadline (l.noteResult name v >>= next) := by
  rw [noteResult]
  split
  · exact heeds_ask (fun _ => rfl) fun _ => h
  · exact h

/-- **A function heeds its deadline.** -/
theorem heeds_run (l : Linked) (fuel : Nat) (c : Control) (m : Memory) :
    HeedsDeadline (.error .interrupted) deadline (l.run deadline fuel c m) := by
  induction fuel generalizing c m with
  | zero => exact heeds_done _
  | succ fuel ih =>
    rw [run]
    cases c.step l.logs m with
    | next c m => exact ih c m
    | poll c m => exact heeds_look fun _ => ih c m
    | note o c m => exact heeds_ask (fun _ => rfl) fun _ => ih c m
    | leave v m => exact heeds_done _
    | trap => exact heeds_done _
    | call name args target c m =>
      simp only
      cases l.call? name with
      | none => exact heeds_done _
      | some found =>
        obtain ⟨index, s⟩ := found
        refine heeds_ask (fun _ => rfl) fun r => ?_
        obtain ⟨_ | v, m'⟩ := r
        · exact heeds_done _
        cases s.result with
        | none => exact ih c _
        | some k =>
          cases v with
          | none => exact heeds_done _
          | some v =>
            simp only
            split
            · exact heeds_noteResult_bind _ _ _ (ih _ _)
            · exact heeds_done _
    | callImport k c m =>
      simp only
      cases l.import? k with
      | none => exact heeds_done _
      | some found =>
        refine heeds_ask (fun _ => rfl) fun r => ?_
        obtain ⟨_ | _, m'⟩ := r
        · exact heeds_done _
        · exact ih c _

lemma heeds_enter (l : Linked) (c : Control) (m : Memory) :
    HeedsDeadline (.error .interrupted) deadline (l.enter deadline c m) :=
  heeds_look fun _ => l.heeds_run maxSteps c m

lemma heeds_callEntry (l : Linked) (e : EntryCall) (m : Memory) :
    HeedsDeadline (.error .interrupted) deadline (l.callEntry deadline e m) := by
  rw [callEntry]
  split
  · exact heeds_done _
  split
  · exact heeds_done _
  refine (l.heeds_enter _ m).bind rfl fun left => ?_
  cases left <;> exact heeds_done _

lemma heeds_begin (l : Linked) (m : Memory) :
    HeedsDeadline (.error .interrupted) deadline (l.begin deadline m) := by
  refine heeds_ask (fun _ => rfl) fun r => ?_
  obtain ⟨_ | e, m'⟩ := r
  · exact heeds_done _
  · exact l.heeds_callEntry e _

/-- **An instance heeds its deadline.** -/
theorem heeds_instantiate (l : Linked) :
    HeedsDeadline (.error .interrupted) deadline (l.instantiate deadline) := by
  rw [instantiate]
  cases l.freshMemory with
  | error e => exact heeds_done _
  | ok m =>
    cases l.program.start with
    | none => exact l.heeds_begin m
    | some code =>
      refine (l.heeds_enter _ m).bind rfl fun left => ?_
      obtain _ | ⟨v, m'⟩ := left
      · exact heeds_done _
      · exact l.heeds_begin m'

end Linked

/-- **A module looks at the epoch once, and its deadline is the next one.** -/
theorem CompiledModule.heeds_execute {m : CompiledModule} {table : List Signature}
    {next : Nat → Engine.Run (Except EngineError Int32)} (h : m.execute table = .ask .epoch next)
    (epoch : Nat) : HeedsDeadline (.error .interrupted) (epoch + 1) (next epoch) := by
  rw [execute] at h
  cases hlinked : Linked.ofProgram m.program table with
  | error e =>
    rw [hlinked] at h
    cases h
  | ok l =>
    rw [hlinked] at h
    cases h
    exact l.heeds_instantiate

end GuestShell
