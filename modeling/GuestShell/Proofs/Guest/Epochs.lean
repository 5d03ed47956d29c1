import GuestShell.Guest.Execution
import GuestShell.Proofs.Task.Answers

/-!
# A guest cannot tell one epoch from another

A module is given a deadline one epoch ahead, and what it finds at its looks is whether the deadline
was reached.  So in an epoch that stays what it is, it makes no difference which one that is
(`CompiledModule.heedless_execute`).

The proof goes along two runs with a deadline each, neither of which is reached (`Alike`).
-/

namespace GuestShell

namespace Engine

variable {α β : Type} {epoch epoch' : Nat}

/-- The epoch, known beforehand. -/
def epochIs (epoch : Nat) : (q : Request) → Option (Answer q)
  | .epoch => some epoch
  | _ => none

/-- It makes no difference which epoch it is, if it stays the same. -/
def Heedless (t : Run α) : Prop :=
  ∀ epoch epoch', t.answering (epochIs epoch) = t.answering (epochIs epoch')

/-- One task in its epoch does the same as the other one in the other. -/
def Alike (epoch epoch' : Nat) (t t' : Run α) : Prop :=
  t.answering (epochIs epoch) = t'.answering (epochIs epoch')

lemma alike_done (a : α) : Alike epoch epoch' (.done a) (.done a) := rfl

lemma alike_ask {q : Request} {next next' : Answer q → Run α} (hq : epochIs 0 q = none)
    (h : ∀ a, Alike epoch epoch' (next a) (next' a)) :
    Alike epoch epoch' (.ask q next) (.ask q next') := by
  have hnone (epoch : Nat) : epochIs epoch q = none := by cases q <;> cases hq <;> rfl
  rw [Alike, Task.answering_ask_of_none (hnone _), Task.answering_ask_of_none (hnone _)]
  exact congrArg _ (funext h)

/-- Neither of two looks finds its deadline reached. -/
lemma alike_look {deadline deadline' : Nat} {stop : α} {next next' : Run α}
    (hepoch : epoch < deadline) (hepoch' : epoch' < deadline') (h : Alike epoch epoch' next next') :
    Alike epoch epoch'
      (.ask .epoch fun (e : Nat) => if deadline ≤ e then .done stop else next)
      (.ask .epoch fun (e : Nat) => if deadline' ≤ e then .done stop else next') := by
  rw [Alike, Task.answering_ask_of_some rfl, Task.answering_ask_of_some rfl,
    if_neg (Nat.not_le.2 hepoch), if_neg (Nat.not_le.2 hepoch')]
  exact h

lemma Alike.bind {t t' : Run α} {f f' : α → Run β} (h : Alike epoch epoch' t t')
    (hnext : ∀ a, Alike epoch epoch' (f a) (f' a)) :
    Alike epoch epoch' (t.bind f) (t'.bind f') := by
  rw [Alike, Task.answering_bind, Task.answering_bind, h]
  exact congrArg _ (funext hnext)

end Engine

open Engine

namespace Linked

variable {epoch epoch' deadline deadline' : Nat} (hepoch : epoch < deadline)
  (hepoch' : epoch' < deadline')

include hepoch hepoch'

lemma alike_run (l : Linked) (fuel : Nat) (c : Control) (m : Memory) :
    Alike epoch epoch' (l.run deadline fuel c m) (l.run deadline' fuel c m) := by
  induction fuel generalizing c m with
  | zero => exact alike_done _
  | succ fuel ih =>
    rw [run, run]
    -- no step knows the deadline, so both runs are at the same place all along
    cases c.step l.logs m with
    | next c m => exact ih c m
    | poll c m => exact alike_look hepoch hepoch' (ih c m)
    | note o c m => exact alike_ask rfl fun _ => ih c m
    | leave v m => exact alike_done _
    | trap => exact alike_done _
    | call name args target c m =>
      simp only
      cases l.call? name with
      | none => exact alike_done _
      | some found =>
        obtain ⟨index, s⟩ := found
        refine alike_ask rfl fun r => ?_
        obtain ⟨_ | v, m'⟩ := r
        · exact alike_done _
        cases s.result with
        | none => exact ih c _
        | some k =>
          cases v with
          | none => exact alike_done _
          | some v =>
            simp only
            split
            · refine Alike.bind ?_ fun _ => ih _ _
              rw [noteResult]
              split
              · exact alike_ask rfl fun _ => alike_done _
              · exact alike_done _
            · exact alike_done _
    | callImport k c m =>
      simp only
      cases l.import? k with
      | none => exact alike_done _
      | some found =>
        refine alike_ask rfl fun r => ?_
        obtain ⟨_ | _, m'⟩ := r
        · exact alike_done _
        · exact ih c _

lemma alike_enter (l : Linked) (c : Control) (m : Memory) :
    Alike epoch epoch' (l.enter deadline c m) (l.enter deadline' c m) :=
  alike_look hepoch hepoch' (alike_run hepoch hepoch' l maxSteps c m)

lemma alike_begin (l : Linked) (m : Memory) :
    Alike epoch epoch' (l.begin deadline m) (l.begin deadline' m) := by
  refine alike_ask rfl fun r => ?_
  obtain ⟨_ | e, m'⟩ := r
  · exact alike_done _
  simp only [callEntry]
  split
  · exact alike_done _
  split
  · exact alike_done _
  refine (alike_enter hepoch hepoch' l _ _).bind fun left => ?_
  cases left <;> exact alike_done _

/-- Two instances of a module do the same, each before its deadline. -/
lemma alike_instantiate (l : Linked) :
    Alike epoch epoch' (l.instantiate deadline) (l.instantiate deadline') := by
  rw [instantiate, instantiate]
  cases l.freshMemory with
  | error e => exact alike_done _
  | ok m =>
    cases l.program.start with
    | none => exact alike_begin hepoch hepoch' l m
    | some code =>
      refine (alike_enter hepoch hepoch' l _ m).bind fun left => ?_
      obtain _ | ⟨v, m'⟩ := left
      · exact alike_done _
      · exact alike_begin hepoch hepoch' l m'

end Linked

/-- **A module does the same in every epoch.** -/
theorem CompiledModule.heedless_execute (m : CompiledModule) (table : List Signature) :
    Heedless (m.execute table) := by
  intro epoch epoch'
  rw [execute]
  cases Linked.ofProgram m.program table with
  | error e => rfl
  | ok l =>
    simp only
    rw [Task.answering_ask_of_some rfl, Task.answering_ask_of_some rfl]
    exact Linked.alike_instantiate (Nat.lt_succ_self epoch) (Nat.lt_succ_self epoch') l

end GuestShell
