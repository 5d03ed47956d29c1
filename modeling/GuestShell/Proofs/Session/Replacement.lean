import GuestShell.Session.Replacement
import GuestShell.Proofs.Guest.Deadline
import Mathlib.Tactic.Lemma

/-!
# What a restart stops, and what it misses

The deadline of a guest is one more than the epoch at the moment when its module is instantiated, and a
restart raises the epoch once.  So everything depends on which comes first.  A guest that was there when
the epoch was raised stops at its next look.  A job that was not yet instantiated gets a deadline that
the epoch does not reach: the worker was abandoned, and its guest runs on.  Both halves are in
`restart_stops_begun_jobs`; `abandoned_guest_runs_on` is such a guest.
-/

namespace GuestShell

open Engine

namespace Replacement

variable {work : Run (Except EngineError Int32)} {e deadline : Nat} {x y : Replacement}
  {rest : Run (Except EngineError Int32)}

/-- The epoch was raised once, or not yet. -/
lemma epoch_eq (h : Reachable work (start e) x) : x.epoch = e + x.foreground.hasRaised.toNat := by
  induction h with
  | start => rfl
  | step _ hstep ih =>
    cases hstep with
    | raised h => simp [ih, h, Foreground.hasRaised]
    | interrupted h | cancelled h | replaced h => simp [ih, h, Foreground.hasRaised]
    | taken | instantiated | looked | served => exact ih

/-- Nobody's deadline is beyond the next epoch. -/
lemma deadline_le (h : Reachable work (start e) x) (hjob : x.job = .running deadline rest) :
    deadline ≤ x.epoch + 1 := by
  induction h generalizing rest with
  | start => cases hjob
  | step _ hstep ih =>
    cases hstep with
    | interrupted | cancelled | replaced => exact ih hjob
    | raised => exact Nat.le_succ_of_le (ih hjob)
    | taken => cases hjob
    | instantiated =>
      cases hjob
      exact Nat.le_refl _
    | looked h | served _ h =>
      cases hjob
      exact ih h

lemma heeds_of_reachable {m : CompiledModule} {table : List Signature}
    (h : Reachable (m.execute table) (start e) x) (hjob : x.job = .running deadline rest) :
    HeedsDeadline (.error .interrupted) deadline rest := by
  induction h generalizing rest with
  | start => cases hjob
  | step _ hstep ih =>
    cases hstep with
    | interrupted | raised | cancelled | replaced => exact ih hjob
    | taken => cases hjob
    | instantiated _ hwork =>
      cases hjob
      exact CompiledModule.heeds_execute hwork _
    | looked h | served _ h =>
      cases hjob
      exact (ih h).next _

/-- A guest keeps its deadline. -/
lemma running_of_reachable (hjob : x.job = .running deadline rest) (h : Reachable work x y) :
    ∃ rest, y.job = .running deadline rest := by
  induction h with
  | start => exact ⟨rest, hjob⟩
  | step _ hstep ih =>
    obtain ⟨rest, hjob⟩ := ih
    cases hstep with
    | interrupted | raised | cancelled | replaced => exact ⟨rest, hjob⟩
    | taken h | instantiated h =>
      rw [h] at hjob
      cases hjob
    | looked h | served _ h =>
      rw [h] at hjob
      cases hjob
      exact ⟨_, rfl⟩

/-- A job that is begun after the epoch was raised gets the next deadline. -/
lemma late_of_reachable (hraised : x.foreground.hasRaised = true)
    (hjob : ∀ deadline rest, x.job ≠ .running deadline rest) (h : Reachable work x y) :
    y.foreground.hasRaised = true ∧ ∀ deadline rest, y.job = .running deadline rest →
      y.epoch < deadline := by
  induction h with
  | start => exact ⟨hraised, fun _ _ h => absurd h (hjob _ _)⟩
  | step _ hstep ih =>
    obtain ⟨hraised, hlate⟩ := ih
    cases hstep with
    | interrupted h | raised h => simp [h, Foreground.hasRaised] at hraised
    | cancelled | replaced => exact ⟨rfl, hlate⟩
    | taken => exact ⟨hraised, nofun⟩
    | instantiated =>
      refine ⟨hraised, fun _ _ h => ?_⟩
      cases h
      exact Nat.lt_succ_self _
    | looked hjob | served _ hjob =>
      refine ⟨hraised, fun _ _ h => ?_⟩
      cases h
      exact hlate _ _ hjob

lemma Reachable.trans {z : Replacement} (hx : Reachable work x y) (hy : Reachable work y z) :
    Reachable work x z := by
  induction hy with
  | start => exact hx
  | step _ hstep ih => exact ih.step hstep

/-- **A restart stops the jobs that were begun before it raised the epoch, and no others.**  Say the two
sides have come to `y` and later to `x`, where the epoch was raised.  A guest that was running at `y`,
before the epoch was raised, has reached its deadline and is interrupted as soon as it looks.  A job that
was still to be begun at `y`, with the epoch raised, runs with a deadline beyond the epoch for good. -/
theorem restart_stops_begun_jobs {m : CompiledModule} {table : List Signature}
    (hy : Reachable (m.execute table) (start e) y) (hx : Reachable (m.execute table) y x)
    (hraised : x.foreground.hasRaised = true) :
    (∀ deadline rest, y.foreground.hasRaised = false → y.job = .running deadline rest →
      deadline ≤ x.epoch ∧ ∃ rest, x.job = .running deadline rest ∧
        ∀ next, rest = .ask .epoch next → next x.epoch = .done (.error .interrupted)) ∧
    (y.foreground.hasRaised = true → (∀ deadline rest, y.job ≠ .running deadline rest) →
      ∀ deadline rest, x.job = .running deadline rest → x.epoch < deadline) := by
  constructor
  · intro deadline rest hbefore hjob
    have hlate : deadline ≤ x.epoch := by
      -- The epoch is raised between the two, and the deadline was at most the next epoch.
      have hle := deadline_le hy hjob
      have hepoch := epoch_eq hy
      have hepoch' := epoch_eq (hy.trans hx)
      rw [hbefore] at hepoch
      rw [hraised] at hepoch'
      simp only [Bool.toNat_false, Bool.toNat_true] at hepoch hepoch'
      omega
    obtain ⟨rest', hjob'⟩ := running_of_reachable hjob hx
    refine ⟨hlate, rest', hjob', fun next hrest => ?_⟩
    have hheeds := heeds_of_reachable (hy.trans hx) hjob'
    rw [hrest] at hheeds
    exact hheeds.stops hlate
  · intro hafter hjob
    exact (late_of_reachable hafter hjob hx).2

/-- A module that only turns in a loop. -/
def spinner : CompiledModule where
  program := { Program.nothing with entry := some "main", code := [.loop [] (.literal 1)] }

/-- An instance of the spinner. -/
def spinning (deadline : Nat) : Run (Except EngineError Int32) :=
  Linked.instantiate ⟨spinner.program, []⟩ deadline

/-- The spinner has the host choose its entry point. -/
def entryOfSpinner : Request := .entry (spinner.program.exportList.map (·.name)) (.zeros 0)

def namesMain : Answer entryOfSpinner := (.ok ⟨"main", []⟩, .zeros 0)

theorem restart_stops_begun_jobs_spinner :
    ∃ y x next, Reachable (spinner.execute []) (start 0) y ∧ Reachable (spinner.execute []) y x ∧
      x.foreground.hasRaised = true ∧ y.foreground.hasRaised = false ∧
      y.job = .running 1 (spinning 1) ∧ x.job = .running 1 (.ask .epoch next) ∧
      next x.epoch = .done (.error .interrupted) := by
  have hbegun : Reachable (spinner.execute []) (start 0) ⟨0, .attending, .running 1 (spinning 1)⟩ :=
    Reachable.start |>.step (.taken rfl) |>.step (.instantiated rfl rfl)
  have hraised : Reachable (spinner.execute []) ⟨0, .attending, .running 1 (spinning 1)⟩
      ⟨1, .cancelling, .running 1 (spinning 1)⟩ :=
    Reachable.start |>.step (.interrupted rfl) |>.step (.raised rfl)
  have hentered := hraised.step <| .served (q := entryOfSpinner) namesMain rfl nofun
  obtain ⟨-, _, hjob, hstops⟩ := (restart_stops_begun_jobs hbegun hentered rfl).1 1 _ rfl rfl
  cases hjob
  exact ⟨_, _, _, hbegun, hentered, rfl, rfl, rfl, rfl, hstops _ rfl⟩

/-- **An abandoned guest can run on.**  The restart is over before the old worker takes its job.  The
deadline is then beyond the epoch, and the guest goes on where it looks. -/
theorem abandoned_guest_runs_on :
    ∃ x deadline next, Reachable (spinner.execute []) (start 0) x ∧ x.foreground = .returned ∧
      x.job = .running deadline (.ask .epoch next) ∧ x.epoch < deadline ∧
      next x.epoch ≠ .done (.error .interrupted) := by
  have hreturned : Reachable (spinner.execute []) (start 0) ⟨1, .returned, .queued⟩ :=
    Reachable.start |>.step (.interrupted rfl) |>.step (.raised rfl) |>.step (.cancelled rfl)
      |>.step (.replaced rfl)
  have hrunning : Reachable (spinner.execute []) (start 0) ⟨1, .returned, .running 2 (spinning 2)⟩ :=
    hreturned.step (.taken rfl) |>.step (.instantiated rfl rfl)
  -- The host names the entry point, and the guest enters it.
  have hentered := hrunning.step <| .served (q := entryOfSpinner) namesMain rfl nofun
  exact ⟨_, _, _, hentered.step (.looked rfl), rfl, rfl, by decide, nofun⟩

end Replacement

end GuestShell
