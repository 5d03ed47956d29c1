import GuestShell.Proofs.Session.Transport

/-!
# What attending is made of

Attending to a worker is put together from a few parts (`Made`).  It asks, looks at its desk and at
the context, and changes the desk and the mailbox; and it breaks off where the last event was attended
to or somebody has interrupted it.  What these parts have in common, and putting parts together keeps,
all of attending has (`made_attendTo`).

So a session fails only because it was interrupted or because its worker broke down
(`failure_of_ran_session`).
-/

namespace GuestShell

namespace Background

variable {α : Type} {d d' : Desk} {c c' : Context} {log : Log}

/-- A part of attending.  What it does to the mailbox leaves the flag of cancelling alone. -/
inductive Made : {α : Type} → Attending α → Prop
  | pure {α : Type} (a : α) : Made (pure a : Attending α)
  | finished {α : Type} : Made (throw .finished : Attending α)
  | interrupted {α : Type} : Made (throw (.failed .interrupted) : Attending α)
  | bind {α β : Type} {t : Attending β} {f : β → Attending α} (first : Made t)
    (next : ∀ b, Made (f b)) : Made (t >>= f)
  | ask (q : Session.Request) : Made (ask q)
  | desk : Made (getThe Desk : Attending Desk)
  | modifyDesk (g : Desk → Desk) : Made (modifyThe Desk g : Attending PUnit)
  | context : Made context
  | exchange {α : Type} {g : Mailbox → Mailbox} {f : Mailbox → Attending α}
    (leaves : ∀ m, (g m).cancelled = m.cancelled) (next : ∀ m, Made (f m)) :
    Made (mailbox >>= fun m => putMailbox (g m) >>= fun _ => f m)

lemma cancelled_collect (m : Mailbox) : m.collect.2.cancelled = m.cancelled := by
  rw [Mailbox.collect]
  split <;> rfl

/-! ## All parts of attending -/

lemma made_answer (watched : Bool) (caption : String) : Made (answer watched caption) := by
  cases watched with
  | false => exact .pure _
  | true =>
    refine (Made.ask _).bind fun reading => ?_
    cases reading with
    | line | ended => exact .pure _
    | abandoned => exact .interrupted

lemma made_attend (watched : Bool) (e : Worker.Event) : Made (attend watched e) := by
  cases e with
  | stdout chunk | stderr chunk =>
    cases watched with
    | false => exact .modifyDesk _
    | true => exact (Made.ask _).bind fun _ => .modifyDesk _
  | readLine caption =>
    refine (made_answer watched caption).bind fun line => ?_
    exact Made.exchange (f := fun _ => pure ()) (fun _ => rfl) fun _ => .pure _
  | failed e => exact .modifyDesk _
  | finished files => exact (Made.modifyDesk _).bind fun _ => .finished

lemma made_attendAll (watched : Bool) : Made (attendAll watched) := by
  have hall (events : List Worker.Event) : Made (events.forM (attend watched)) := by
    induction events with
    | nil => exact .pure _
    | cons e events ih => exact (made_attend watched e).bind fun _ => ih
  exact Made.desk.bind fun d => (Made.modifyDesk _).bind fun _ => hall _

lemma made_meanwhile (watched : Bool) (token : Nat) : Made (meanwhile watched token) := by
  refine Made.desk.bind fun d => (Made.ask _).bind fun turned => ?_
  cases turned with
  | true =>
    refine (made_attendAll watched).bind fun _ => Made.context.bind fun c => ?_
    split
    · exact .interrupted
    · exact .pure _
  | false => exact .modifyDesk _

lemma made_post (watched : Bool) (token : Nat) (e : Worker.Event) : Made (post watched token e) :=
  (made_meanwhile watched token).bind fun _ => .modifyDesk _

lemma made_serve (watched : Bool) (token : Nat) (q : Worker.Request) :
    Made (serve watched token q) := by
  cases q with
  | send e => exact made_post watched token e
  | exchange caption =>
    refine Made.exchange (g := Mailbox.hold) (fun _ => rfl) fun _ => Made.context.bind fun c => ?_
    split
    · exact Made.exchange (g := Mailbox.release) (fun _ => rfl) fun _ => .pure _
    · refine ((made_post _ _ _).bind fun _ => made_attendAll _).bind fun _ => ?_
      exact Made.exchange (g := fun m => m.collect.2) cancelled_collect fun _ => .pure _
  | isCancelled => exact Made.context.bind fun c => .pure _
  | clock | note o => exact .ask _
  | epoch => exact (made_meanwhile watched token).bind fun _ => Made.context.bind fun c => .pure _

/-- **All of attending is put together from these parts.** -/
theorem made_attendTo (watched : Bool) (token : Nat) (work : Working Unit) :
    Made (attendTo watched token work) := by
  have hwork : Made (work.interpret (serve watched token)) := by
    induction work with
    | done a => exact .pure a
    | ask q next ih => exact (made_serve watched token q).bind ih
  exact hwork.bind fun _ => made_attendAll watched

/-! ## Why a session fails -/

/-- Attending fails only because it is interrupted. -/
lemma Made.failed {t : Attending α} (h : Made t) {e : SessionError}
    (hran : Ran t d c log (.error (.failed e)) d' c') : e = .interrupted := by
  induction h generalizing d c log d' c' with
  | pure a => cases (ran_pure_iff.1 hran).2.1
  | finished => cases (ran_throw_iff.1 hran).2.1
  | interrupted =>
    cases (ran_throw_iff.1 hran).2.1
    rfl
  | bind first next ihfirst ihnext =>
    rcases ran_bind_iff.1 hran with ⟨e', he, hfirst⟩ | ⟨b, d₁, c₁, before, after, -, -, hnext⟩
    · cases he
      exact ihfirst hfirst
    · exact ihnext b hnext
  | ask q =>
    obtain ⟨a, ha, -⟩ := ran_ask_iff.1 hran
    cases ha
  | desk | context => cases (ran_pure_iff.1 hran).2.1
  | modifyDesk g => cases (ran_modifyDesk_iff.1 hran).2.1
  | exchange leaves next ihnext =>
    rw [ran_mailbox_bind_iff, ran_putMailbox_bind_iff] at hran
    exact ihnext _ hran

/-- Where a session ends: a failure puts a new worker in the place of the old one. -/
lemma ran_close {p : Except Ending Unit × Desk} {result : Except SessionError Harvest}
    (h : SharedTask.Ran (close p) c log result c') :
    log = [] ∧ result = outcome p.2.harvest p.1 ∧
      (∀ harvest, result = .ok harvest → c' = { c with interrupts := c.interrupts.clear }) ∧
      ∀ e, result = .error e → c' = { c with interrupts := c.interrupts.clear }.restart := by
  rw [close, SharedTask.ran_modify_bind_iff] at h
  cases hresult : outcome p.2.harvest p.1 with
  | ok harvest =>
    rw [hresult] at h
    obtain ⟨rfl, rfl, rfl⟩ := SharedTask.ran_pure_iff.1 h
    exact ⟨rfl, rfl, fun _ _ => rfl, nofun⟩
  | error e =>
    rw [hresult] at h
    obtain ⟨rfl, hend⟩ := Task.runs_done_iff.1 h
    obtain ⟨rfl, rfl⟩ := Prod.mk.inj hend
    exact ⟨rfl, rfl, nofun, fun _ _ => rfl⟩

/-- **A session fails because it was interrupted or because its worker broke down.** -/
theorem failure_of_ran_session {watched : Bool} {work : Working Unit} {e : SessionError}
    (h : SharedTask.Ran (session watched work) c log (.error e) c') :
    e = .interrupted ∨ ∃ reason, e = .worker reason := by
  rw [session, SharedTask.ran_get_bind_iff, SharedTask.ran_modify_bind_iff,
    SharedTask.ran_bind_iff] at h
  obtain ⟨p, c₁, before, after, -, hattend, hclose⟩ := h
  obtain ⟨-, houtcome, -⟩ := ran_close hclose
  obtain ⟨ending, desk⟩ := p
  rcases ending with (_ | e') | _
  · cases houtcome
  · cases houtcome
    exact .inl ((made_attendTo watched _ work).failed hattend)
  · cases houtcome
    exact .inr ⟨_, rfl⟩

end Background

namespace Session

open Background

variable {c c' : Context} {log : Log}

/-- A run in the foreground or on a worker, as the context has it. -/
def inBackend {α : Type} (foreground : Sitting α) (watched : Bool) (work : Working Unit)
    (made : Harvest → α) : Sitting (Except SessionError α) := do
  match (← get).backend with
  | .prompts => return .ok (← foreground)
  | .worker => return (← session watched work).map made

lemma run_eq (job : Running Report) :
    run job = inBackend (Foreground.run job) true (Worker.work false job)
      fun h => ⟨h.files, h.error⟩ :=
  rfl

lemma runCaptured_eq (job : Running Report) :
    runCaptured job = inBackend (Foreground.runCaptured job) false (Worker.work true job)
      fun h => ⟨h.capture, ⟨h.files, h.error⟩⟩ :=
  rfl

section

variable {α : Type} {foreground : Sitting α} {watched : Bool} {work : Working Unit}
  {made : Harvest → α}

lemma ran_inBackend_worker_iff {result : Except SessionError α} (hworker : c.backend = .worker) :
    SharedTask.Ran (inBackend foreground watched work made) c log result c' ↔
      ∃ r, result = r.map made ∧ SharedTask.Ran (session watched work) c log r c' := by
  rw [inBackend, SharedTask.ran_get_bind_iff, hworker]
  simp only
  rw [← map_eq_pure_bind, SharedTask.ran_map_iff]

/-- In the foreground nothing fails. -/
lemma failure_of_ran_inBackend {e : SessionError}
    (h : SharedTask.Ran (inBackend foreground watched work made) c log (.error e) c') :
    e = .interrupted ∨ ∃ reason, e = .worker reason := by
  cases hbackend : c.backend with
  | prompts =>
    rw [inBackend, SharedTask.ran_get_bind_iff, hbackend] at h
    simp only at h
    rw [← map_eq_pure_bind, SharedTask.ran_map_iff] at h
    obtain ⟨_, he, -⟩ := h
    cases he
  | worker =>
    obtain ⟨r, hr, hran⟩ := (ran_inBackend_worker_iff hbackend).1 h
    cases r with
    | ok harvest => cases hr
    | error e' =>
      cases hr
      exact failure_of_ran_session hran

end

variable {job : Running Report}

lemma ran_run_iff {result : Except SessionError Report} (hworker : c.backend = .worker) :
    SharedTask.Ran (run job) c log result c' ↔
      ∃ r, result = r.map (fun h : Harvest => ⟨h.files, h.error⟩) ∧
        SharedTask.Ran (session true (Worker.work false job)) c log r c' := by
  rw [run_eq, ran_inBackend_worker_iff hworker]

lemma ran_runCaptured_iff {result : Except SessionError CapturedRun}
    (hworker : c.backend = .worker) :
    SharedTask.Ran (runCaptured job) c log result c' ↔
      ∃ r, result = r.map (fun h : Harvest => ⟨h.capture, ⟨h.files, h.error⟩⟩) ∧
        SharedTask.Ran (session false (Worker.work true job)) c log r c' := by
  rw [runCaptured_eq, ran_inBackend_worker_iff hworker]

/-- Why a run at the terminal has no report. -/
lemma failure_of_ran_run {e : SessionError}
    (h : SharedTask.Ran (run job) c log (.error e) c') :
    e = .interrupted ∨ ∃ reason, e = .worker reason := by
  rw [run_eq] at h
  exact failure_of_ran_inBackend h

/-- Why a run without a terminal has no report. -/
lemma failure_of_ran_runCaptured {e : SessionError}
    (h : SharedTask.Ran (runCaptured job) c log (.error e) c') :
    e = .interrupted ∨ ∃ reason, e = .worker reason := by
  rw [runCaptured_eq] at h
  exact failure_of_ran_inBackend h

end Session

end GuestShell
