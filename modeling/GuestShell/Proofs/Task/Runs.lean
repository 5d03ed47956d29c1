import GuestShell.Task
import Mathlib.Tactic.Lemma

/-!
# Runs of tasks, told by what was asked and answered

A task is a finite tree: whatever is answered, it comes to an end with a value.  `Always` says that
every value it can end with has a property.  It is proved along the task (`always_bind`), and of a
task that is run within another, from an invariant of the state that is carried along
(`always_within`).

What a task asked on its way is not part of its value.  `recording` answers as before and keeps a
list of the requests, and forgetting the list gives the task back (`forget_within_recording`).  With
the list one can say what holds if nothing harmful was asked (`always_within_recording`).

A run of a task is one way through it: a log of requests with their answers, and the value at the end
(`Task.Runs`).  A run of two tasks one after the other is a run of each, with the logs one after the
other (`runs_bind_iff`).  However the surroundings decide on their answers, there is a run with these
answers, and `trace` computes it (`runs_trace`, `obeys_trace`).

A run of a shared task begins and ends in a state (`SharedTask.Ran`).  Its log has the states, too:
the one that goes out with a request and the one that comes back with the answer.
-/

namespace GuestShell

namespace Task

/-! ## What holds however a task is answered -/

section Always

variable {ω ω' : Type} {ans : ω → Type} {ans' : ω' → Type} {α β σ : Type}

/-- Every value that the task can end with has the property. -/
def Always (P : α → Prop) : Task ω ans α → Prop
  | done a => P a
  | ask _ next => ∀ r, (next r).Always P

lemma always_of_forall {P : α → Prop} (h : ∀ a, P a) (t : Task ω ans α) : t.Always P := by
  induction t with
  | done a => exact h a
  | ask o next ih => exact ih

lemma Always.imp {P Q : α → Prop} {t : Task ω ans α} (h : t.Always P) (hPQ : ∀ a, P a → Q a) :
    t.Always Q := by
  induction t with
  | done a => exact hPQ a h
  | ask o next ih => exact fun r => ih r (h r)

/-- What always holds, holds of the value that fixed answers lead to. -/
lemma Always.interpret {P : α → Prop} {t : Task ω ans α} (h : t.Always P)
    (answer : (o : ω) → Id (ans o)) : P (t.interpret answer) := by
  induction t with
  | done a => exact h
  | ask o next ih => exact ih (answer o) (h (answer o))

/-- First one task, then the other. -/
@[simp] lemma always_bind {P : β → Prop} {t : Task ω ans α} {f : α → Task ω ans β} :
    (t.bind f).Always P ↔ t.Always fun a => (f a).Always P := by
  induction t with
  | done a => exact Iff.rfl
  | ask o next ih => exact forall_congr' ih

/-- Two tasks one after the other, run within another task. -/
lemma within_bind (answer : (o : ω) → σ → Task ω' ans' (ans o × σ)) (t : Task ω ans α)
    (f : α → Task ω ans β) (s : σ) :
    (t.bind f).within answer s = (t.within answer s).bind fun r => (f r.1).within answer r.2 := by
  induction t generalizing s with
  | done a => rfl
  | ask o next ih => simp only [bind_ask, within, bind_assoc, ih]

/-- **What every answer keeps, the whole task keeps.** -/
theorem always_within {I : σ → Prop} {answer : (o : ω) → σ → Task ω' ans' (ans o × σ)}
    (step : ∀ o s, I s → (answer o s).Always fun r => I r.2) (t : Task ω ans α) {s : σ}
    (hs : I s) : (t.within answer s).Always fun r => I r.2 := by
  induction t generalizing s with
  | done a => exact hs
  | ask o next ih => exact always_bind.2 ((step o s hs).imp fun r hr => ih r.1 hr)

/-- Answers, and notes down what was asked. -/
def recording (answer : (o : ω) → σ → Task ω' ans' (ans o × σ)) (o : ω) (s : σ × List ω) :
    Task ω' ans' (ans o × (σ × List ω)) :=
  (answer o s.1).bind fun r => done (r.1, (r.2, s.2 ++ [o]))

/-- What is noted down makes no difference. -/
theorem forget_within_recording (answer : (o : ω) → σ → Task ω' ans' (ans o × σ))
    (t : Task ω ans α) (s : σ) (l : List ω) :
    ((t.within (recording answer) (s, l)).bind fun r => done (r.1, r.2.1)) =
      t.within answer s := by
  induction t generalizing s l with
  | done a => rfl
  | ask o next ih =>
    simp only [within, recording, bind_assoc, bind_done, ih]

/-- **What the harmless requests keep, a task keeps if it asked no other.** -/
theorem always_within_recording {I : σ → Prop} (harmless : ω → Prop)
    {answer : (o : ω) → σ → Task ω' ans' (ans o × σ)}
    (step : ∀ o s, harmless o → I s → (answer o s).Always fun r => I r.2) (t : Task ω ans α)
    {s : σ} (hs : I s) : (t.within (recording answer) (s, [])).Always fun r =>
      (∀ o ∈ r.2.2, harmless o) → I r.2.1 := by
  refine always_within (I := fun r : σ × List ω => (∀ o ∈ r.2, harmless o) → I r.1) ?_ t fun _ => hs
  rintro o ⟨s, asked⟩ hkept
  refine always_bind.2 ?_
  by_cases hall : ∀ a ∈ asked ++ [o], harmless a
  · have hs : I s := hkept fun a ha => hall a (List.mem_append_left _ ha)
    have ho : harmless o := hall o (List.mem_append_right _ (List.mem_singleton.2 rfl))
    exact (step o s ho hs).imp fun r hr _ => hr
  · exact always_of_forall (fun r hr => absurd hr hall) _

end Always

/-! ## Ways through a task -/

variable {ω : Type} {ans : ω → Type} {α β : Type}

/-- Requests with their answers, the first one first. -/
abbrev Log (ω : Type) (ans : ω → Type) : Type := List ((o : ω) × ans o)

/-- One way through a task. -/
inductive Runs : Task ω ans α → Log ω ans → α → Prop
  | done (a : α) : Runs (.done a) [] a
  | ask {o : ω} {next : ans o → Task ω ans α} {log : Log ω ans} {a : α} (r : ans o)
      (rest : Runs (next r) log a) : Runs (.ask o next) (⟨o, r⟩ :: log) a

lemma runs_done_iff {a b : α} {log : Log ω ans} : Runs (.done a) log b ↔ log = [] ∧ b = a := by
  constructor
  · rintro ⟨⟩
    exact ⟨rfl, rfl⟩
  · rintro ⟨rfl, rfl⟩
    exact .done b

lemma runs_done_pair_iff {σ : Type} {a b : α} {s s' : σ} {log : Log ω ans} :
    Runs (.done (a, s)) log (b, s') ↔ log = [] ∧ b = a ∧ s' = s :=
  runs_done_iff.trans (and_congr_right fun _ => Prod.mk.injEq _ _ _ _ ▸ Iff.rfl)

lemma runs_ask_iff {o : ω} {next : ans o → Task ω ans α} {log : Log ω ans} {a : α} :
    Runs (.ask o next) log a ↔ ∃ r rest, log = ⟨o, r⟩ :: rest ∧ Runs (next r) rest a := by
  constructor
  · rintro (_ | ⟨r, rest⟩)
    exact ⟨r, _, rfl, rest⟩
  · rintro ⟨r, rest, rfl, h⟩
    exact .ask r h

/-- **A run of two tasks is a run of the first and then one of the second.** -/
theorem runs_bind_iff {t : Task ω ans α} {f : α → Task ω ans β} {log : Log ω ans} {b : β} :
    Runs (t.bind f) log b ↔
      ∃ a before after, log = before ++ after ∧ Runs t before a ∧ Runs (f a) after b := by
  induction t generalizing log with
  | done a =>
    constructor
    · intro h
      exact ⟨a, [], log, rfl, .done a, h⟩
    · rintro ⟨a', before, after, rfl, ha, h⟩
      obtain ⟨rfl, rfl⟩ := runs_done_iff.1 ha
      exact h
  | ask o next ih =>
    rw [bind_ask, runs_ask_iff]
    constructor
    · rintro ⟨r, rest, rfl, h⟩
      obtain ⟨a, before, after, rfl, ha, hb⟩ := (ih r).1 h
      exact ⟨a, ⟨o, r⟩ :: before, after, rfl, .ask r ha, hb⟩
    · rintro ⟨a, before, after, rfl, ha, hb⟩
      obtain ⟨r, rest, rfl, hrest⟩ := runs_ask_iff.1 ha
      exact ⟨r, rest ++ after, rfl, (ih r).2 ⟨a, rest, after, rfl, hrest, hb⟩⟩

lemma runs_map_iff {t : Task ω ans α} {f : α → β} {log : Log ω ans} {b : β} :
    Runs (t.bind fun a => return f a) log b ↔ ∃ a, b = f a ∧ Runs t log a := by
  rw [runs_bind_iff]
  constructor
  · rintro ⟨a, before, after, rfl, ha, hb⟩
    obtain ⟨rfl, rfl⟩ := runs_done_iff.1 hb
    exact ⟨a, rfl, (List.append_nil before).symm ▸ ha⟩
  · rintro ⟨a, rfl, ha⟩
    exact ⟨a, log, [], (List.append_nil log).symm, ha, .done _⟩

/-- What comes after a task matters only at the ends of its runs. -/
lemma bind_congr {t : Task ω ans α} {f g : α → Task ω ans β}
    (h : ∀ log a, Runs t log a → f a = g a) : t.bind f = t.bind g := by
  induction t with
  | done a => exact h [] a (.done a)
  | ask o next ih =>
    rw [bind_ask, bind_ask]
    exact congrArg _ (funext fun r => ih r fun log a hrun => h _ a (.ask r hrun))

/-- What always holds is what holds at the end of every run. -/
lemma always_iff_runs {P : α → Prop} {t : Task ω ans α} :
    t.Always P ↔ ∀ log a, Runs t log a → P a := by
  constructor
  · intro h log a hrun
    induction hrun with
    | done a => exact h
    | ask r rest ih => exact ih (h r)
  · intro h
    induction t with
    | done a => exact h [] a (.done a)
    | ask o next ih => exact fun r => ih r fun log a hrun => h _ a (.ask r hrun)

/-- Every answer of the log is the one that was decided on, given what went before. -/
def Obeys (answer : Log ω ans → (o : ω) → ans o) (log : Log ω ans) : Prop :=
  ∀ before o r after, log = before ++ ⟨o, r⟩ :: after → r = answer before o

/-- The way through a task when each answer is decided on, given what went before. -/
def trace (answer : Log ω ans → (o : ω) → ans o) : Task ω ans α → Log ω ans × α
  | done a => ([], a)
  | ask o next =>
    let r := answer [] o
    let rest := trace (fun before => answer (⟨o, r⟩ :: before)) (next r)
    (⟨o, r⟩ :: rest.1, rest.2)

/-- **However requests are answered, a task runs to its end.** -/
theorem runs_trace (answer : Log ω ans → (o : ω) → ans o) (t : Task ω ans α) :
    Runs t (t.trace answer).1 (t.trace answer).2 := by
  induction t generalizing answer with
  | done a => exact .done a
  | ask o next ih => exact .ask _ (ih _ _)

lemma obeys_trace (answer : Log ω ans → (o : ω) → ans o) (t : Task ω ans α) :
    Obeys answer (t.trace answer).1 := by
  induction t generalizing answer with
  | done a => exact fun before o r after h => by simp [trace] at h
  | ask o next ih =>
    intro before o' r after h
    rcases before with _ | ⟨e, before⟩
    · obtain ⟨heq, -⟩ := List.cons.inj h
      cases heq
      rfl
    · obtain ⟨rfl, htail⟩ := List.cons.inj h
      exact ih _ _ before o' r after htail

/-- Answering two tasks one after the other. -/
lemma interpret_bind {m : Type → Type} [Monad m] [LawfulMonad m] (answer : (o : ω) → m (ans o))
    (t : Task ω ans α) (f : α → Task ω ans β) :
    (t.bind f).interpret answer = t.interpret answer >>= fun a => (f a).interpret answer := by
  induction t with
  | done a => simp only [bind_done, interpret, pure_bind]
  | ask o next ih => simp only [bind_ask, interpret, LawfulMonad.bind_assoc, ih]

end Task

namespace SharedTask

variable {σ ω : Type} {ans : ω → Type} {α β : Type}

/-- What passes between a shared task and its surroundings. -/
abbrev Log (σ ω : Type) (ans : ω → Type) : Type :=
  Task.Log (ω × σ) fun r => ans r.1 × σ

/-- One way through a shared task, from a state to a state. -/
def Ran (t : SharedTask σ ω ans α) (s : σ) (log : Log σ ω ans) (a : α) (s' : σ) : Prop :=
  Task.Runs (t s) log (a, s')

variable {s s' : σ} {log : Log σ ω ans}

lemma ran_pure_iff {a b : α} :
    Ran (pure a : SharedTask σ ω ans α) s log b s' ↔ log = [] ∧ b = a ∧ s' = s :=
  Task.runs_done_pair_iff

lemma ran_get_iff {a : σ} :
    Ran (get : SharedTask σ ω ans σ) s log a s' ↔ log = [] ∧ a = s ∧ s' = s :=
  ran_pure_iff (a := s)

lemma ran_modify_iff {f : σ → σ} {a : Unit} :
    Ran (modify f : SharedTask σ ω ans Unit) s log a s' ↔ log = [] ∧ s' = f s := by
  refine Task.runs_done_iff.trans (and_congr_right fun _ => ?_)
  rw [Prod.mk.injEq, and_iff_right rfl]

lemma ran_request_iff {o : ω} {a : ans o} :
    Ran (request o : SharedTask σ ω ans (ans o)) s log a s' ↔ log = [⟨(o, s), (a, s')⟩] := by
  constructor
  · intro h
    obtain ⟨r, rest, rfl, hrest⟩ := Task.runs_ask_iff.1 h
    obtain ⟨rfl, rfl⟩ := Task.runs_done_iff.1 hrest
    rfl
  · rintro rfl
    exact .ask _ (.done _)

/-- A run of two shared tasks is a run of the first and, from where it ends, one of the second. -/
theorem ran_bind_iff {t : SharedTask σ ω ans α} {f : α → SharedTask σ ω ans β} {b : β} :
    Ran (t >>= f) s log b s' ↔ ∃ a u before after,
      log = before ++ after ∧ Ran t s before a u ∧ Ran (f a) u after b s' := by
  refine Task.runs_bind_iff.trans ⟨?_, ?_⟩
  · rintro ⟨⟨a, u⟩, before, after, hlog, ha, hb⟩
    exact ⟨a, u, before, after, hlog, ha, hb⟩
  · rintro ⟨a, u, before, after, hlog, ha, hb⟩
    exact ⟨(a, u), before, after, hlog, ha, hb⟩

lemma ran_map_iff {t : SharedTask σ ω ans α} {f : α → β} {b : β} :
    Ran (f <$> t) s log b s' ↔ ∃ a, b = f a ∧ Ran t s log a s' := by
  rw [map_eq_pure_bind, ran_bind_iff]
  constructor
  · rintro ⟨a, u, before, after, rfl, ha, hb⟩
    obtain ⟨rfl, rfl, rfl⟩ := ran_pure_iff.1 hb
    exact ⟨a, rfl, (List.append_nil before).symm ▸ ha⟩
  · rintro ⟨a, rfl, ha⟩
    exact ⟨a, s', log, [], (List.append_nil log).symm, ha, ran_pure_iff.2 ⟨rfl, rfl, rfl⟩⟩

/-- The state as it is decides on what follows. -/
lemma ran_get_bind_iff {f : σ → SharedTask σ ω ans β} {b : β} :
    Ran (get >>= f) s log b s' ↔ Ran (f s) s log b s' :=
  Iff.rfl

/-- A change of the state, and then what follows. -/
lemma ran_modify_bind_iff {g : σ → σ} {f : PUnit → SharedTask σ ω ans β} {b : β} :
    Ran (modify g >>= f) s log b s' ↔ Ran (f ()) (g s) log b s' :=
  Iff.rfl

/-- However a task is answered within a shared task, it is one way through it. -/
lemma exists_runs_of_ran_interpret {τ κ : Type} {ans' : κ → Type} {u : Task κ ans' α}
    {answer : (o : κ) → StateT τ (SharedTask σ ω ans) (ans' o)} {t : τ} {p : α × τ}
    (h : Ran ((u.interpret answer).run t) s log p s') : ∃ inner, Task.Runs u inner p.1 := by
  induction u generalizing t s log with
  | done a =>
    obtain ⟨-, rfl, -⟩ := ran_pure_iff.1 h
    exact ⟨[], .done a⟩
  | ask o next ih =>
    rw [Task.interpret, StateT.run_bind] at h
    obtain ⟨⟨a, t'⟩, u, before, after, -, -, hrest⟩ := ran_bind_iff.1 h
    obtain ⟨inner, hinner⟩ := ih a hrest
    exact ⟨⟨o, a⟩ :: inner, .ask a hinner⟩

end SharedTask

end GuestShell
