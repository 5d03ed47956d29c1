import GuestShell.Proofs.Session.Quiet
import GuestShell.Session.Foreground
import Mathlib.Data.List.Basic

/-!
# What a run gets in the foreground

In a quiet session in the foreground a run gets the clock and the lines of its surroundings, and what
it shows and asks goes straight to the terminal.  A line that is typed comes to the terminal as well.
-/

namespace GuestShell

namespace Foreground

open Session

variable {α : Type} {c c' : Context} {caption caption' : Caption} {log : Background.Log}

/-- What a request brings to the terminal. -/
def shownOf : (q : Run.Request) × Run.Answer q → List Worker.Event
  | ⟨.stdout chunk, _⟩ => [.stdout chunk]
  | ⟨.stderr chunk, _⟩ => [.stderr chunk]
  | ⟨.readLine, some line⟩ => [.stdout (Text.encode line)]
  | _ => []

/-- What a session in the foreground has of its run. -/
structure Mirrors (epoch : Nat) (caption : Caption) (inner : Run.Log) (log : Background.Log) :
    Prop where
  undisturbed : Run.Undisturbed epoch (clocksOf log) inner
  lines : Stdin.answersIn inner = (typed log).map (Option.map (· ++ "\n"))
  captions : Run.captions caption inner = captions log
  output : inner.flatMap shownOf = output log

lemma Mirrors.cons {epoch : Nat} {q : Run.Request} {a : Run.Answer q} {inner : Run.Log}
    {before after : Background.Log} (h : Mirrors epoch caption [⟨q, a⟩] before)
    (hrest : Mirrors epoch (caption.after q a) inner after) :
    Mirrors epoch caption (⟨q, a⟩ :: inner) (before ++ after) := by
  constructor
  · rw [clocksOf_append]
    exact h.undisturbed.append hrest.undisturbed
  · rw [typed_append, List.map_append, ← h.lines, ← hrest.lines]
    exact List.filterMap_append (l := [_])
  · rw [captions_append, ← h.captions, ← hrest.captions]
    simp only [Run.captions, List.append_nil]
  · rw [output_append, ← h.output, ← hrest.output]
    rw [← List.flatMap_append]
    rfl

lemma mirrors_serve {q : Run.Request} {a : Run.Answer q}
    (h : SharedTask.Ran ((serve q).run caption) c log (a, caption') c') (hquiet : Quiet log) :
    c' = c ∧ caption' = caption.after q a ∧ Mirrors c.epoch caption [⟨q, a⟩] log := by
  have hcalm (hq : Run.Calm c.epoch q a) : ∀ e ∈ [(⟨q, a⟩ : (q : Run.Request) × Run.Answer q)],
      Run.Calm c.epoch e.1 e.2 := by simpa using hq
  cases q with
  | stdout chunk | stderr chunk | clock | note o =>
    obtain ⟨⟨a, c₁⟩, rest, rfl, hend⟩ := Task.runs_ask_iff.1 h
    obtain ⟨rfl, hend⟩ := Task.runs_done_iff.1 hend
    cases hend
    obtain rfl : c' = c := hquiet.untouched _ List.mem_cons_self
    exact ⟨rfl, rfl, ⟨hcalm trivial, rfl⟩, rfl, rfl, rfl⟩
  | isInterrupted | epoch =>
    obtain ⟨rfl, hend⟩ := Task.runs_done_iff.1 h
    cases hend
    exact ⟨rfl, rfl, ⟨hcalm rfl, rfl⟩, rfl, rfl, rfl⟩
  | readLine =>
    obtain ⟨⟨line, c₁⟩, rest, rfl, hrest⟩ := Task.runs_ask_iff.1 h
    obtain ⟨hasked, hafter⟩ := quiet_cons.1 hquiet
    obtain rfl : c₁ = c := hquiet.untouched _ List.mem_cons_self
    cases line with
    | none =>
      obtain ⟨rfl, hend⟩ := Task.runs_done_iff.1 hrest
      cases hend
      exact ⟨rfl, rfl, ⟨hcalm trivial, rfl⟩, rfl, rfl, rfl⟩
    | some line =>
      obtain ⟨⟨u, c₂⟩, rest, rfl, hend⟩ := Task.runs_ask_iff.1 hrest
      obtain ⟨rfl, hend⟩ := Task.runs_done_iff.1 hend
      cases hend
      obtain rfl : c' = c₁ := hafter.untouched _ List.mem_cons_self
      exact ⟨rfl, rfl, ⟨hcalm trivial, rfl⟩, rfl, rfl, rfl⟩

/-- **A quiet session in the foreground mirrors its run.** -/
theorem mirrors_run {r : Running α} {a : α}
    (h : SharedTask.Ran ((r.interpret serve).run caption) c log (a, caption') c')
    (hquiet : Quiet log) :
    c' = c ∧ ∃ inner, Task.Runs r inner a ∧ Mirrors c.epoch caption inner log := by
  induction r generalizing caption c log with
  | done b =>
    obtain ⟨rfl, hpair, rfl⟩ := SharedTask.ran_pure_iff.1 h
    obtain ⟨rfl, rfl⟩ := Prod.mk.inj hpair
    exact ⟨rfl, [], .done _, ⟨Run.undisturbed_nil _, rfl, rfl, rfl⟩⟩
  | ask q next ih =>
    rw [Task.interpret, StateT.run_bind] at h
    obtain ⟨⟨b, caption₁⟩, c₁, before, after, rfl, hserve, hrest⟩ := SharedTask.ran_bind_iff.1 h
    obtain ⟨hbefore, hafter⟩ := quiet_append.1 hquiet
    obtain ⟨rfl, rfl, hfirst⟩ := mirrors_serve hserve hbefore
    obtain ⟨rfl, inner, hinner, hmirrors⟩ := ih b hrest hafter
    exact ⟨rfl, ⟨q, b⟩ :: inner, .ask b hinner, hfirst.cons hmirrors⟩

/-- A run attached to the terminal; what it comes to may be more than a report. -/
def observe (r : Running α) : Sitting α := do
  return (← (r.interpret serve).run .empty).1

lemma run_bind (r : Running α) (f : α → Report) :
    run (r.bind fun a => return f a) = f <$> observe r := by
  rw [run, Task.interpret_bind, StateT.run_bind, observe, bind_assoc, map_bind]
  rfl

theorem mirrors_of_ran_observe {r : Running α} {a : α}
    (h : SharedTask.Ran (observe r) c log a c') (hquiet : Quiet log) :
    ∃ inner, Task.Runs r inner a ∧ Mirrors c.epoch .empty inner log := by
  obtain ⟨⟨a, caption⟩, c₁, before, after, rfl, hrun, hend⟩ := SharedTask.ran_bind_iff.1 h
  obtain ⟨rfl, rfl, rfl⟩ := SharedTask.ran_pure_iff.1 hend
  rw [List.append_nil] at hquiet ⊢
  exact (mirrors_run hrun hquiet).2

lemma flatMap_shownOf {inner : Run.Log} (hsilent : Run.Silent inner) :
    inner.flatMap shownOf = Run.output inner := by
  refine List.flatMap_congr fun ⟨q, a⟩ he => ?_
  cases q with
  | readLine =>
    have ha : a = none := hsilent a (List.mem_filterMap.2 ⟨_, he, rfl⟩)
    rw [ha]
    rfl
  | _ => rfl

end Foreground

/-! ## Captured runs -/

namespace Capture

variable {q : Run.Request} {c : Capture} {log : Run.Log} {epoch : Nat} {clocks : List Moment}

lemma undisturbed_serve {p : Run.Answer q × Capture} (h : Task.Runs (serve q c) log p)
    (hlog : Run.Undisturbed epoch clocks log) :
    Run.Undisturbed epoch clocks [⟨q, p.1⟩] ∧ Run.Silent [⟨q, p.1⟩] := by
  cases q with
  | stdout | stderr | readLine | isInterrupted =>
    obtain ⟨rfl, rfl⟩ := Task.runs_done_iff.1 h
    obtain ⟨-, rfl⟩ := hlog
    exact ⟨⟨by simp [Run.Calm], rfl⟩, by simp [Run.Silent, Stdin.answersIn]⟩
  | clock | epoch | note =>
    obtain ⟨_, _, rfl, hrest⟩ := Task.runs_ask_iff.1 h
    obtain ⟨rfl, rfl⟩ := Task.runs_done_iff.1 hrest
    exact ⟨hlog, by simp [Run.Silent, Stdin.answersIn]⟩

/-- A captured run is as undisturbed as its capturing, and gets no lines. -/
lemma undisturbed_within_serve {α : Type} {r : Running α} {p : α × Capture}
    (h : Task.Runs (r.within serve c) log p) (hlog : Run.Undisturbed epoch clocks log) :
    ∃ inner, Task.Runs r inner p.1 ∧ p.2 = c.addAll inner ∧ Run.Undisturbed epoch clocks inner ∧
      Run.Silent inner := by
  induction r generalizing c log clocks with
  | done a =>
    obtain ⟨rfl, rfl⟩ := Task.runs_done_iff.1 h
    exact ⟨[], .done a, rfl, hlog, by simp [Run.Silent, Stdin.answersIn]⟩
  | ask q next ih =>
    obtain ⟨⟨a, c'⟩, before, after, rfl, hserve, hrest⟩ := Task.runs_bind_iff.1 h
    obtain ⟨first, rest, rfl, hbefore, hafter⟩ := hlog.of_append
    obtain rfl : c' = c.add q := runs_serve hserve
    obtain ⟨hundisturbed, hsilent⟩ := undisturbed_serve hserve hbefore
    obtain ⟨inner, hinner, hp, hundisturbed', hsilent'⟩ := ih a hrest hafter
    refine ⟨⟨q, a⟩ :: inner, .ask a hinner, hp, hundisturbed.append hundisturbed', ?_⟩
    intro line hline
    rw [← List.singleton_append, Stdin.answersIn, List.filterMap_append, List.mem_append] at hline
    exact hline.elim (hsilent line) (hsilent' line)

end Capture

namespace Foreground

open Session

/-- The run of a captured session in the foreground. -/
theorem undisturbed_of_ran_runCaptured {α : Type} {r : Running α} {f : α → Report}
    {run : CapturedRun} {c c' : Context} {log : Background.Log}
    (h : SharedTask.Ran (runCaptured (r.bind fun a => return f a)) c log run c')
    (hquiet : Quiet log) :
    ∃ a inner, run = ⟨Capture.empty.addAll inner, f a⟩ ∧ Task.Runs r inner a ∧
      Run.Undisturbed c.epoch (clocksOf log) inner ∧ Run.Silent inner := by
  obtain ⟨outer, houter, hmirrors⟩ := mirrors_of_ran_observe h hquiet
  obtain ⟨⟨report, capture⟩, rfl, hwithin⟩ := Task.runs_map_iff.1 houter
  obtain ⟨inner, hinner, rfl, hundisturbed, hsilent⟩ :=
    Capture.undisturbed_within_serve hwithin hmirrors.undisturbed
  obtain ⟨a, rfl, hrun⟩ := Task.runs_map_iff.1 hinner
  exact ⟨a, inner, rfl, hrun, hundisturbed, hsilent⟩

end Foreground

end GuestShell
