import GuestShell.Run.Runnable
import GuestShell.Proofs.Task.Runs

/-!
# The course of a run

Between two requests of its guest, a sandbox holds a process.  `Course` says which processes these can
be: the one that the run begins with, and whatever serving one request after another makes of it.  The
requests are any requests and may be answered in any way, so the course of every run is among them
(`always_course`).
-/

namespace GuestShell.Runnable

variable {δ : Type} {call : Caller δ} {choose : Chooser} {start p : Process δ}

/-- A process that serving requests leads to. -/
inductive Course (call : Caller δ) (choose : Chooser) (start : Process δ) : Process δ → Prop
  | start : Course call choose start start
  | served {p q : Process δ} (r : Engine.Request) {a : Engine.Answer r}
      {log : Task.Log Run.Request Run.Answer} : Course call choose start p →
      Task.Runs (serve call choose r p) log (a, q) → Course call choose start q

/-- **However a module is executed, its run keeps to the course.** -/
theorem always_course (m : CompiledModule) (table : List Signature) :
    ((m.execute table).within (serve call choose) start).Always fun r =>
      Course call choose start r.2 := by
  refine Task.always_within (fun r p hp => ?_) _ .start
  exact Task.always_iff_runs.2 fun log a h => hp.served r h

variable {R : FileTree → Slots δ → Prop}
  (hcall : ∀ index args p, R p.tree p.descriptors →
    (call index args p).Always fun r => R r.2.tree r.2.descriptors)

include hcall

lemma always_serve_of_call (r : Engine.Request) (hp : R p.tree p.descriptors) :
    (serve call choose r p).Always fun s => R s.2.tree s.2.descriptors := by
  cases r with
  | epoch => exact fun _ => hp
  | note o => exact fun _ => hp
  | entry exports m => exact hp
  | call index args m => exact Task.always_bind.2 (hcall index args { p with memory := m } hp)

/-- **What every call keeps holds all along the course.** -/
theorem Course.keeps (hstart : R start.tree start.descriptors) (h : Course call choose start p) :
    R p.tree p.descriptors := by
  induction h with
  | start => exact hstart
  | served r _ hrun ih =>
    exact Task.always_iff_runs.1 (always_serve_of_call hcall r ih) _ _ hrun

end GuestShell.Runnable
