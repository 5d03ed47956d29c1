import GuestShell.Proofs.Task.Runs

/-!
# What a task makes of its answers

Which requests a task may come to ask is told by `Only`, along with what it comes to.  That answers
make no difference to a task is told in two ways.

* `Ignores blur`: an answer and what `blur` makes of it lead on to the same task.
* `answering known`: the task with some requests answered beforehand, so that they are not asked.  If
  it is the same task for two sets of answers, it does not matter which of them it is given.

The main statement is `Ignores.runs_unique`: two runs with answers that the task cannot tell apart are
one run.
-/

namespace GuestShell.Task

variable {ω ω' : Type} {ans : ω → Type} {ans' : ω' → Type} {α β σ : Type}

/-! ## Requests -/

/-- The task asks nothing but what it may, and comes to a value with the property. -/
def Only (may : ω → Prop) (P : α → Prop) : Task ω ans α → Prop
  | done a => P a
  | ask o next => may o ∧ ∀ r, (next r).Only may P

section

variable {may may' : ω → Prop} {P Q : α → Prop} {t : Task ω ans α}

lemma Only.imp (h : t.Only may P) (hmay : ∀ o, may o → may' o) (hP : ∀ a, P a → Q a) :
    t.Only may' Q := by
  induction t with
  | done a => exact hP a h
  | ask o next ih => exact ⟨hmay o h.1, fun r => ih r (h.2 r)⟩

lemma Only.bind {R : β → Prop} {f : α → Task ω ans β} (h : t.Only may P)
    (hf : ∀ a, P a → (f a).Only may R) : (t.bind f).Only may R := by
  induction t with
  | done a => exact hf a h
  | ask o next ih => exact ⟨h.1, fun r => ih r (h.2 r)⟩

/-- What is kept while each request is served, is kept all along. -/
lemma only_within {may : ω' → Prop} {I : σ → Prop} {answer : (o : ω) → σ → Task ω' ans' (ans o × σ)}
    (step : ∀ o s, I s → (answer o s).Only may fun r => I r.2) (t : Task ω ans α) {s : σ} (hs : I s) :
    (t.within answer s).Only may fun r => I r.2 := by
  induction t generalizing s with
  | done a => exact hs
  | ask o next ih => exact (step o s hs).bind fun r hr => ih r.1 hr

lemma Only.of_runs {log : Log ω ans} {a : α} (h : t.Only may P) (hruns : Runs t log a) :
    P a ∧ ∀ e ∈ log, may e.1 := by
  induction hruns with
  | done a => exact ⟨h, by simp⟩
  | ask r rest ih =>
    obtain ⟨hP, hrest⟩ := ih (h.2 r)
    exact ⟨hP, List.forall_mem_cons.2 ⟨h.1, hrest⟩⟩

end

/-! ## Answers that make no difference -/

/-- An answer and what `blur` makes of it are the same to the task. -/
def Ignores (blur : (o : ω) → ans o → ans o) : Task ω ans α → Prop
  | done _ => True
  | ask o next => ∀ r, next (blur o r) = next r ∧ (next r).Ignores blur

/-- The log with what `blur` makes of the answers. -/
def blurred (blur : (o : ω) → ans o → ans o) (log : Log ω ans) : Log ω ans :=
  log.map fun e => ⟨e.1, blur e.1 e.2⟩

section

variable {blur : (o : ω) → ans o → ans o} {t : Task ω ans α}

lemma Ignores.bind {f : α → Task ω ans β} (h : t.Ignores blur) (hf : ∀ a, (f a).Ignores blur) :
    (t.bind f).Ignores blur := by
  induction t with
  | done a => exact hf a
  | ask o next ih => exact fun r => ⟨congrArg (·.bind f) (h r).1, ih r (h r).2⟩

lemma ignores_within {blur : (o : ω') → ans' o → ans' o}
    {answer : (o : ω) → σ → Task ω' ans' (ans o × σ)} (step : ∀ o s, (answer o s).Ignores blur)
    (t : Task ω ans α) (s : σ) : (t.within answer s).Ignores blur := by
  induction t generalizing s with
  | done a => trivial
  | ask o next ih => exact (step o s).bind fun r => ih r.1 r.2

/-- **Answers that a task cannot tell apart lead to the same end.**  Whether two logs agree is told
from their first entries on. -/
theorem Ignores.runs_unique (h : t.Ignores blur) (Agree : Log ω ans → Log ω ans → Prop)
    (hagree : ∀ o r₁ r₂ rest₁ rest₂, Agree (⟨o, r₁⟩ :: rest₁) (⟨o, r₂⟩ :: rest₂) →
      blur o r₁ = blur o r₂ ∧ Agree rest₁ rest₂)
    {log₁ log₂ : Log ω ans} {a₁ a₂ : α} (h₁ : Runs t log₁ a₁)
    (h₂ : Runs t log₂ a₂) (hlogs : Agree log₁ log₂) :
    a₁ = a₂ ∧ blurred blur log₁ = blurred blur log₂ := by
  induction h₁ generalizing log₂ with
  | done a =>
    obtain ⟨rfl, rfl⟩ := runs_done_iff.1 h₂
    exact ⟨rfl, rfl⟩
  | ask r₁ rest₁ ih =>
    obtain ⟨r₂, tail₂, rfl, rest₂⟩ := runs_ask_iff.1 h₂
    obtain ⟨hblur, hrest⟩ := hagree _ _ _ _ _ hlogs
    -- the second run goes on as the first one does
    have hnext := (h r₂).1
    rw [← hblur, (h r₁).1] at hnext
    obtain ⟨ha, htail⟩ := ih (h r₁).2 (hnext ▸ rest₂) hrest
    refine ⟨ha, ?_⟩
    rw [blurred, blurred, List.map_cons, List.map_cons, hblur]
    exact congrArg _ htail

end

/-! ## Answers given beforehand -/

/-- The task with some of its requests answered beforehand. -/
def answering (known : (o : ω) → Option (ans o)) : Task ω ans α → Task ω ans α
  | done a => done a
  | ask o next =>
    match known o with
    | some r => (next r).answering known
    | none => ask o fun r => (next r).answering known

section

variable {known : (o : ω) → Option (ans o)} {t : Task ω ans α}

lemma answering_ask_of_some {o : ω} {next : ans o → Task ω ans α} {r : ans o}
    (h : known o = some r) : (ask o next).answering known = (next r).answering known := by
  rw [answering, h]

lemma answering_ask_of_none {o : ω} {next : ans o → Task ω ans α} (h : known o = none) :
    (ask o next).answering known = ask o fun r => (next r).answering known := by
  rw [answering, h]

lemma answering_bind (f : α → Task ω ans β) :
    (t.bind f).answering known = (t.answering known).bind fun a => (f a).answering known := by
  induction t with
  | done a => rfl
  | ask o next ih =>
    rw [bind_ask]
    cases hknown : known o with
    | some r => rw [answering_ask_of_some hknown, answering_ask_of_some hknown, ih]
    | none =>
      rw [answering_ask_of_none hknown, answering_ask_of_none hknown, bind_ask]
      exact congrArg _ (funext ih)

lemma Only.answering_eq {P : α → Prop} (h : t.Only (fun o => known o = none) P) :
    t.answering known = t := by
  induction t with
  | done a => rfl
  | ask o next ih =>
    rw [answering_ask_of_none h.1]
    exact congrArg _ (funext fun r => ih r (h.2 r))

/-- Where a request is answered as the one that it is served by, it makes no difference which of the
two is answered beforehand. -/
lemma answering_within {known' : (o : ω') → Option (ans' o)}
    {answer : (o : ω) → σ → Task ω' ans' (ans o × σ)}
    (hsome : ∀ o r s, known o = some r → (answer o s).answering known' = done (r, s))
    (hnone : ∀ o s, known o = none → (answer o s).answering known' = answer o s)
    (t : Task ω ans α) (s : σ) :
    (t.within answer s).answering known' = (t.answering known).within answer s := by
  induction t generalizing s with
  | done a => rfl
  | ask o next ih =>
    rw [within, answering_bind]
    simp only [ih]
    cases hknown : known o with
    | some r => rw [hsome o r s hknown, bind_done, answering_ask_of_some hknown]
    | none => rw [hnone o s hknown, answering_ask_of_none hknown, within]

lemma Ignores.answering {blur : (o : ω) → ans o → ans o} (h : t.Ignores blur) :
    (t.answering known).Ignores blur := by
  induction t with
  | done a => trivial
  | ask o next ih =>
    cases hknown : known o with
    | some r =>
      rw [answering_ask_of_some hknown]
      exact ih r (h r).2
    | none =>
      rw [answering_ask_of_none hknown]
      exact fun r => ⟨congrArg _ (h r).1, ih r (h r).2⟩

/-- A run in which the requests in question are answered in the same way. -/
lemma Runs.answering {log : Log ω ans} {a : α} (h : Runs t log a)
    (hknown : ∀ e ∈ log, ∀ r, known e.1 = some r → e.2 = r) :
    Runs (t.answering known) (log.filter fun e => (known e.1).isNone) a := by
  induction h with
  | done a => exact .done a
  | @ask o next log a r rest ih =>
    obtain ⟨hfirst, hrest⟩ := List.forall_mem_cons.1 hknown
    cases ho : known o with
    | some r' =>
      obtain rfl : r = r' := hfirst r' ho
      rw [answering_ask_of_some ho, List.filter_cons_of_neg (by simp [ho])]
      exact ih hrest
    | none =>
      rw [answering_ask_of_none ho, List.filter_cons_of_pos (by simp [ho])]
      exact .ask r (ih hrest)

end

end GuestShell.Task
