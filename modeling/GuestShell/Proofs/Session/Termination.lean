import GuestShell.Proofs.Session.CutOff
import GuestShell.Proofs.Session.Parts

/-!
# After a context was terminated

Whoever terminates a context cancels its worker and interrupts the run in flight, if there is one.
Neither keeps a worker from later runs.  The cancelled worker still takes jobs; and where a session
fails, as it does when it is interrupted, a new worker takes the place of the old one.

`Terminated` are the contexts that one comes to by any calls after that.  The worker is the
cancelled one until the first of the sessions fails, each failure puts a new worker in the place of
the old one, and a session that nobody disturbs always has its program run
(`terminated_context_runs_on`).
-/

namespace GuestShell

namespace Session

open Background

variable {α : Type} {watched : Bool} {d d' : Desk} {c c' : Context} {log : Log}

/-! ## What others do to a context -/

/-- What may have become of a context while a request was answered: somebody has interrupted and
terminated it, as often as he liked. -/
inductive Meddles : Context → Context → Prop
  | refl (c : Context) : Meddles c c
  | interrupt {c c' : Context} (before : Meddles c c') : Meddles c c'.interrupt.2
  | terminate {c c' : Context} (before : Meddles c c') : Meddles c c'.terminate

/-- Nobody does anything else to the context. -/
def Meddled (log : Log) : Prop := ∀ e ∈ log, Meddles e.1.2 e.2.2

/-- The context has the worker it had, which stays cancelled if it is. -/
structure Keeps (c c' : Context) : Prop where
  backend : c'.backend = c.backend
  epoch : c'.epoch = c.epoch
  cancelled : c.worker.cancelled = true → c'.worker.cancelled = true

lemma Keeps.refl (c : Context) : Keeps c c := ⟨rfl, rfl, id⟩

lemma Keeps.trans {c₁ c₂ c₃ : Context} (h : Keeps c₁ c₂) (h' : Keeps c₂ c₃) : Keeps c₁ c₃ :=
  ⟨h'.backend.trans h.backend, h'.epoch.trans h.epoch, h'.cancelled ∘ h.cancelled⟩

lemma keeps_interrupt (c : Context) : Keeps c c.interrupt.2 := ⟨rfl, rfl, id⟩

lemma cancelled_terminate (m : Mailbox) : m.terminate.cancelled = true := by
  rw [Mailbox.terminate]
  split <;> rfl

lemma keeps_terminate (c : Context) : Keeps c c.terminate := by
  rw [Context.terminate]
  cases c.backend with
  | prompts => exact .refl c
  | worker => exact ⟨rfl, rfl, fun _ => cancelled_terminate _⟩

lemma Meddles.keeps (h : Meddles c c') : Keeps c c' := by
  induction h with
  | refl => exact .refl c
  | interrupt _ ih => exact ih.trans (keeps_interrupt _)
  | terminate _ ih => exact ih.trans (keeps_terminate _)

/-! ## Parts of a session -/

/-- From every place on the way the context keeps its worker. -/
structure KeptAlong (c : Context) (log : Log) (c' : Context) : Prop where
  whole : Keeps c c'
  since : ∀ e ∈ log, Keeps e.2.2 c'

lemma keptAlong_nil (h : Keeps c c') : KeptAlong c [] c' := ⟨h, List.forall_mem_nil _⟩

lemma KeptAlong.append {c₁ : Context} {before after : Log} (h : KeptAlong c before c₁)
    (h' : KeptAlong c₁ after c') : KeptAlong c (before ++ after) c' :=
  ⟨h.whole.trans h'.whole,
    List.forall_mem_append.2 ⟨fun e he => (h.since e he).trans h'.whole, h'.since⟩⟩

/-- The parts of attending change nothing else about the context than others do. -/
lemma keptAlong_of_made {t : Attending α} {r : Except Ending α} (h : Made t)
    (hran : Ran t d c log r d' c') (hmeddled : Meddled log) : KeptAlong c log c' := by
  induction h generalizing d c log d' c' with
  | pure a =>
    obtain ⟨rfl, -, -, rfl⟩ := ran_pure_iff.1 hran
    exact keptAlong_nil (.refl _)
  | finished | interrupted =>
    obtain ⟨rfl, -, -, rfl⟩ := ran_throw_iff.1 hran
    exact keptAlong_nil (.refl _)
  | bind first next ihfirst ihnext =>
    rcases ran_bind_iff.1 hran with ⟨e, -, hfirst⟩ | ⟨b, d₁, c₁, before, after, rfl, hfirst, hnext⟩
    · exact ihfirst hfirst hmeddled
    · obtain ⟨hbefore, hafter⟩ := List.forall_mem_append.1 hmeddled
      exact (ihfirst hfirst hbefore).append (ihnext b hnext hafter)
  | ask q =>
    obtain ⟨a, -, -, rfl⟩ := ran_ask_iff.1 hran
    exact ⟨(hmeddled _ List.mem_cons_self).keeps, List.forall_mem_singleton.2 (.refl _)⟩
  | desk | context =>
    obtain ⟨rfl, -, -, rfl⟩ := ran_pure_iff.1 hran
    exact keptAlong_nil (.refl _)
  | modifyDesk g =>
    obtain ⟨rfl, -, -, rfl⟩ := ran_modifyDesk_iff.1 hran
    exact keptAlong_nil (.refl _)
  | @exchange _ g f leaves next ih =>
    rw [ran_mailbox_bind_iff, ran_putMailbox_bind_iff] at hran
    have hput : Keeps c { c with worker := g c.worker } := ⟨rfl, rfl, fun h => (leaves _).trans h⟩
    exact (keptAlong_nil hput).append (ih _ hran hmeddled)

/-! ## Whole sessions -/

/-- **A session keeps its worker, or fails and puts a new one in its place.** -/
theorem keptAlong_session {work : Working Unit} {result : Except SessionError Harvest}
    (h : SharedTask.Ran (session watched work) c log result c') (hmeddled : Meddled log) :
    (∀ harvest, result = .ok harvest → KeptAlong c log c') ∧
      ∀ e, result = .error e →
        c'.worker = .fresh ∧ c'.epoch = c.epoch + 1 ∧ c'.backend = c.backend := by
  rw [session, SharedTask.ran_get_bind_iff, SharedTask.ran_modify_bind_iff,
    SharedTask.ran_bind_iff] at h
  obtain ⟨p, c₁, before, after, rfl, hattend, hclose⟩ := h
  obtain ⟨rfl, -, hok, herror⟩ := ran_close hclose
  rw [List.append_nil] at hmeddled ⊢
  have hkept := keptAlong_of_made (made_attendTo watched _ work) hattend hmeddled
  refine ⟨fun harvest hharvest => ?_, fun e he => ?_⟩
  · obtain rfl := hok harvest hharvest
    exact ⟨⟨hkept.whole.backend, hkept.whole.epoch, hkept.whole.cancelled⟩, fun e he =>
      ⟨(hkept.since e he).backend, (hkept.since e he).epoch, (hkept.since e he).cancelled⟩⟩
  · obtain rfl := herror e he
    exact ⟨rfl, congrArg (· + 1) hkept.whole.epoch, hkept.whole.backend⟩

/-- **A session that nobody disturbs takes its run to the end**, whether the worker was cancelled or
not. -/
theorem ran_session_quiet (watched : Bool) {job : Running Report}
    {result : Except SessionError Harvest}
    (h : SharedTask.Ran (session watched (Worker.work (!watched) job)) c log result c')
    (hquiet : Quiet log) :
    ∃ inner report, result = .ok (.ofRun inner report) ∧ Task.Runs job inner report ∧
      (watched = true → output log = Run.output inner) ∧
      (c.worker.cancelled = true → Run.CutOff inner ∧ captions log = []) := by
  cases hcancelled : c.worker.cancelled with
  | true =>
    obtain ⟨inner, report, rfl, hinner, hcut, -, hcaptions, houtput⟩ :=
      ran_session_cancelled hcancelled h hquiet
    exact ⟨inner, report, rfl, hinner, houtput, fun _ => ⟨hcut, hcaptions⟩⟩
  | false =>
    have hjob : (job.bind fun report => return id report) = job := Task.bind_pure job
    rw [← hjob, session_bind] at h
    obtain ⟨p, rfl, hran⟩ := SharedTask.ran_map_iff.1 h
    obtain ⟨report, inner, rfl, hinner, hmirrors⟩ := mirrors_of_ran_observe hcancelled hran hquiet
    exact ⟨inner, report, rfl, hinner, fun hwatched => (hmirrors.output hwatched).symm, nofun⟩

/-! ## Calls on a context -/

/-- How many of a session have failed. -/
def failures {ε : Type} (result : Except ε α) : ℕ := if result.isOk then 0 else 1

/-- Somebody has a program run, attached to the terminal or not. -/
inductive Sits (c : Context) (log : Log) : (failures : ℕ) → Context → Prop
  | run {job : Running Report} {result : Except SessionError Report} {c' : Context}
    (ran : SharedTask.Ran (run job) c log result c') : Sits c log (failures result) c'
  | runCaptured {job : Running Report} {result : Except SessionError CapturedRun} {c' : Context}
    (ran : SharedTask.Ran (runCaptured job) c log result c') : Sits c log (failures result) c'

/-- One call keeps the worker, or it fails and puts a new one in its place. -/
lemma Sits.outcome {k : ℕ} (h : Sits c log k c') (hworker : c.backend = .worker)
    (hmeddled : Meddled log) : (k = 0 ∧ KeptAlong c log c') ∨
      (k = 1 ∧ c'.worker = .fresh ∧ c'.epoch = c.epoch + 1 ∧ c'.backend = c.backend) := by
  have hsession : ∃ watched work r, k = failures r ∧
      SharedTask.Ran (session watched work) c log r c' := by
    cases h with
    | run ran =>
      obtain ⟨r, rfl, hran⟩ := (ran_run_iff hworker).1 ran
      exact ⟨_, _, r, by cases r <;> rfl, hran⟩
    | runCaptured ran =>
      obtain ⟨r, rfl, hran⟩ := (ran_runCaptured_iff hworker).1 ran
      exact ⟨_, _, r, by cases r <;> rfl, hran⟩
  obtain ⟨watched, work, r, rfl, hran⟩ := hsession
  obtain ⟨hok, herror⟩ := keptAlong_session hran hmeddled
  cases r with
  | ok harvest => exact .inl ⟨rfl, hok harvest rfl⟩
  | error e => exact .inr ⟨rfl, herror e rfl⟩

/-- The contexts that one comes to after `start` was terminated.  So many sessions have failed
since, the one in flight included. -/
inductive Terminated (start : Context) : (failures : ℕ) → Context → Prop
  /-- Nothing was in flight. -/
  | idle (worker : start.backend = .worker) : Terminated start 0 start.terminate
  /-- The context was terminated while a session waited for an answer. -/
  | inFlight {log : Log} {k : ℕ} {c : Context} (worker : start.backend = .worker)
    (sits : Sits start log k c) (meddled : Meddled log)
    (terminated : ∃ e ∈ log, ∃ c₁, Meddles e.1.2 c₁ ∧ Meddles c₁.terminate e.2.2) :
    Terminated start k c
  | interrupt {n : ℕ} {c : Context} (before : Terminated start n c) :
    Terminated start n c.interrupt.2
  | sits {log : Log} {n k : ℕ} {c c' : Context} (before : Terminated start n c)
    (sits : Sits c log k c') (meddled : Meddled log) : Terminated start (n + k) c'

/-- Terminating a context with a worker cancels it for the contexts that keep it. -/
lemma Meddles.cancelled (h : Meddles c.terminate c') (hworker : c.backend = .worker) :
    c'.worker.cancelled = true := by
  refine h.keeps.cancelled ?_
  rw [Context.terminate, hworker]
  exact cancelled_terminate _

variable {start : Context} {n : ℕ}

/-- The worker is the cancelled one until a session fails, and each failure counts. -/
lemma Terminated.worker (h : Terminated start n c) :
    c.backend = .worker ∧ c.epoch = start.epoch + n ∧ (n = 0 → c.worker.cancelled = true) := by
  induction h with
  | idle worker =>
    have hkeeps := keeps_terminate start
    exact ⟨hkeeps.backend.trans worker, hkeeps.epoch, fun _ => (Meddles.refl _).cancelled worker⟩
  | inFlight worker sits meddled terminated =>
    rcases sits.outcome worker meddled with ⟨rfl, hkept⟩ | ⟨rfl, -, hepoch, hbackend⟩
    · obtain ⟨e, he, c₁, hbefore, hafter⟩ := terminated
      have hlast := hkept.since e he
      -- the backend is the same all along
      have hworker : c₁.backend = .worker := by
        rw [← (keeps_terminate c₁).backend, ← hafter.keeps.backend, ← hlast.backend,
          hkept.whole.backend, worker]
      exact ⟨hkept.whole.backend.trans worker, hkept.whole.epoch,
        fun _ => hlast.cancelled (hafter.cancelled hworker)⟩
    · exact ⟨hbackend.trans worker, hepoch, nofun⟩
  | interrupt _ ih => exact ih
  | sits _ sits meddled ih =>
    obtain ⟨hworker, hepoch, hcancelled⟩ := ih
    rcases sits.outcome hworker meddled with ⟨rfl, hkept⟩ | ⟨rfl, -, hepoch', hbackend⟩
    · exact ⟨hkept.whole.backend.trans hworker, hkept.whole.epoch.trans hepoch,
        fun hn => hkept.whole.cancelled (hcancelled hn)⟩
    · exact ⟨hbackend.trans hworker, by rw [hepoch', hepoch]; rfl, nofun⟩

/-- **A context that was terminated runs on.**  Take any calls after that, with any interrupts.

* The worker is the cancelled one as long as no session fails.  Each session that fails, the one in
  flight included, puts a new worker in the place of the old one.
* A program can always be run, and if nobody disturbs it, it is run to its end and what it writes is
  shown or kept.  On the cancelled worker it is only cut off from input. -/
theorem terminated_context_runs_on (h : Terminated start n c) :
    c.epoch = start.epoch + n ∧ (n = 0 → c.worker.cancelled = true) ∧
    (∀ log k c', Sits c log k c' → Meddled log →
      (k = 0 ∧ Keeps c c') ∨ (k = 1 ∧ c'.worker = .fresh ∧ c'.epoch = c.epoch + 1)) ∧
    (∀ job, (∃ log result c', SharedTask.Ran (run job) c log result c' ∧ Quiet log) ∧
      ∀ log result c', SharedTask.Ran (run job) c log result c' → Quiet log →
        ∃ inner report, result = .ok report ∧ Task.Runs job inner report ∧
          output log = Run.output inner ∧
          (c.worker.cancelled = true → Run.CutOff inner ∧ captions log = [])) ∧
    ∀ job, (∃ log result c', SharedTask.Ran (runCaptured job) c log result c' ∧ Quiet log) ∧
      ∀ log result c', SharedTask.Ran (runCaptured job) c log result c' → Quiet log →
        ∃ inner report, result = .ok ⟨Capture.empty.addAll inner, report⟩ ∧
          Task.Runs job inner report ∧ (c.worker.cancelled = true → Run.CutOff inner) := by
  obtain ⟨hworker, hepoch, hcancelled⟩ := h.worker
  -- whatever the clock shows and whoever types, somebody may leave the session in peace
  have hquiet {γ : Type} (t : Sitting γ) :
      ∃ log result c', SharedTask.Ran t c log result c' ∧ Quiet log := by
    obtain ⟨log, result, c', hran, hattended⟩ := exists_attended (fun _ => 0) (fun _ => none) t c
    exact ⟨log, result, c', hran, hattended.quiet⟩
  refine ⟨hepoch, hcancelled, fun log k c' hsits hmeddled => ?_, fun job => ⟨hquiet _, ?_⟩,
    fun job => ⟨hquiet _, ?_⟩⟩
  · exact (hsits.outcome hworker hmeddled).imp (fun h => ⟨h.1, h.2.whole⟩)
      fun h => ⟨h.1, h.2.1, h.2.2.1⟩
  · intro log result c' hran hquiet
    obtain ⟨r, rfl, hsession⟩ := (ran_run_iff hworker).1 hran
    obtain ⟨inner, report, rfl, hinner, houtput, hcut⟩ :=
      ran_session_quiet true hsession hquiet
    exact ⟨inner, report, rfl, hinner, houtput rfl, hcut⟩
  · intro log result c' hran hquiet
    obtain ⟨r, rfl, hsession⟩ := (ran_runCaptured_iff hworker).1 hran
    obtain ⟨inner, report, rfl, hinner, -, hcut⟩ :=
      ran_session_quiet false hsession hquiet
    exact ⟨inner, report, rfl, hinner, fun h => (hcut h).1⟩

/-- On a context that was terminated while nothing was in flight. -/
theorem terminated_context_runs_on_idle :
    Terminated (.fresh .worker) 0 (Context.fresh .worker).terminate ∧
      ∃ log report c', SharedTask.Ran (run (twoWrites [0x61] [0x62]))
          (Context.fresh .worker).terminate log (.ok report) c' ∧
        output log = [.stdout [0x61], .stdout [0x62]] := by
  have hterminated : Terminated (.fresh .worker) 0 (Context.fresh .worker).terminate := .idle rfl
  obtain ⟨-, -, -, hrun, -⟩ := terminated_context_runs_on hterminated
  obtain ⟨⟨log, result, c', hran, hquiet⟩, hquietly⟩ := hrun (twoWrites [0x61] [0x62])
  obtain ⟨inner, report, rfl, hinner, houtput, -⟩ := hquietly log result c' hran hquiet
  obtain ⟨_, _, rfl, hsecond⟩ := Task.runs_ask_iff.1 hinner
  obtain ⟨_, _, rfl, hend⟩ := Task.runs_ask_iff.1 hsecond
  obtain ⟨rfl, -⟩ := Task.runs_done_iff.1 hend
  exact ⟨hterminated, log, report, c', hran, houtput⟩

/-- Somebody terminates the context as soon as he sees output. -/
def terminating (_ : Log) : (q : Request × Context) → Answer q.1 × Context
  | (.stdout _, c) => ((), c.terminate)
  | (.stderr _, c) => ((), c)
  | (.readLine _, c) => (.abandoned, c)
  | (.prompt _, c) => (none, c)
  | (.hasTurn .., c) => (true, c)
  | (.clock, c) => (0, c)
  | (.note _, c) => ((), c)

/-- After a fresh context was terminated a program is run and its output shown; and where a session
was in flight, a new worker is there when it has ended. -/
theorem terminated_context_has_worker :
    (∃ log report c', SharedTask.Ran (run (twoWrites [0x61] [0x62]))
        (Context.fresh .worker).terminate log (.ok report) c' ∧
      output log = [.stdout [0x61], .stdout [0x62]]) ∧
    ∃ before c after c', SharedTask.Ran (run (twoWrites [0x61] [0x62])) (.fresh .worker)
        (before ++ ⟨(.stdout [0x61], c), ((), c.terminate)⟩ :: after) (.error .interrupted) c' ∧
      c'.worker = .fresh :=
  ⟨⟨_, _, _, Task.runs_trace calm _, rfl⟩, [_, _], _, [], _, Task.runs_trace terminating _, rfl⟩

end Session

end GuestShell
