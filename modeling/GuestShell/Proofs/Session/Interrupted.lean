import GuestShell.Proofs.Session.Attending
import GuestShell.Proofs.Session.Parts
import Mathlib.Data.List.Induction

/-!
# Interrupts

In its turn the side of the terminal goes through the inbox, and only then it looks whether its token
was hit.  So an interrupt does not keep anything back that is there already: it is shown
(`turn_shows_what_is_there`), and if the end of the run is there as well, the session ends as if
nobody had interrupted it (`session_outruns_interrupt`).

Whoever has a handle may interrupt, and all handles stand for the same tokens.  A token can be hit from
the moment when its run is installed until the next run is installed or the run is cleared: that is
its time.  It is hit exactly if somebody interrupts in its time (`isHit_run_iff`), and interrupting
tells truly whether it was in the time of a token (`isActive_run_iff`).

A session installs its token when it begins and clears it when it ends, in whatever way it ends
(`interrupts_session`).  So between two sessions it is nobody's time: to interrupt there leaves the
context as it is, and no later session can tell.  Both together are `interrupts_hit_run_in_flight`.
-/

namespace GuestShell

/-! ## What is there already -/

namespace Background

variable {watched : Bool} {token : Nat} {d d' : Desk} {c c' : Context} {log : Log}
  {r : Except Ending Unit}

/-- **What is there comes before an interrupt.**  Take any turn, whatever is in the inbox, whether the
token is hit already or only in the midst of the turn.

* Nothing is shown but what is in the inbox, in its order, and unless the line editor gives a question
  up, all of it up to the last event of the run.
* If that event is there, the run comes to its end as without an interrupt.
* If not, the session goes on only if the token is not hit. -/
theorem turn_shows_what_is_there (h : Ran (turn watched token) d c log r d' c') :
    requests log <+: (throughLast d.inbox).flatMap (asked watched) ∧
    (gaveUp log = false → requests log = (throughLast d.inbox).flatMap (asked watched) ∧
      d'.harvest = (throughLast d.inbox).foldl Harvest.add d.harvest) ∧
    r = if gaveUp log then .error (.failed .interrupted)
      else if d.inbox.any (·.isLast) then .error .finished
      else if c'.interrupts.isHit token then .error (.failed .interrupted) else .ok () := by
  rw [turn] at h
  rcases ran_bind_iff.1 h with ⟨e, rfl, hall⟩ | ⟨_, d₁, c₁, before, after, rfl, hall, hheed⟩
  · have hshown := shown_attendAll hall
    refine ⟨hshown.begun, fun hgave => ⟨hshown.all hgave, by rw [hshown.kept hgave]⟩, ?_⟩
    have hending := hshown.ending
    rw [endingOf] at hending
    rw [hending]
    split_ifs at hending ⊢ <;> rfl
  · have hshown := shown_attendAll hall
    obtain ⟨hgave, hlast⟩ := endingOf_eq_ok_iff.1 hshown.ending.symm
    obtain ⟨rfl, rfl, rfl, rfl⟩ := ran_heed_iff.1 hheed
    rw [List.append_nil, hgave, hlast]
    exact ⟨hshown.begun, fun _ => ⟨hshown.all hgave, by rw [hshown.kept hgave]⟩, rfl⟩

/-- A context whose only token is hit. -/
def hitContext : Context :=
  { Context.fresh .worker with interrupts := Interrupts.start.install.fire.2 }

theorem turn_shows_what_is_there_hit :
    ∃ log d c, Ran (turn true 0) ⟨.empty, [.stdout [0x61], .finished []], 2⟩ hitContext log
        (.error .finished) d c ∧
      hitContext.interrupts.isHit 0 = true ∧ requests log = [.stdout [0x61]] := by
  have hran : Ran (turn true 0) ⟨.empty, [.stdout [0x61], .finished []], 2⟩ hitContext
      [⟨(.stdout [0x61], hitContext), ((), hitContext)⟩] (.error .finished) _ hitContext :=
    .ask _ (.done _)
  obtain ⟨-, hshown, -⟩ := turn_shows_what_is_there hran
  exact ⟨_, _, _, hran, rfl, (hshown rfl).1⟩

/-- A worker that writes two lines and is done. -/
def twoLines : Working Unit := do
  Worker.ask (.send (.stdout [0x61, 0x0A]))
  Worker.ask (.send (.stdout [0x62, 0x0A]))
  Worker.ask (.send (.finished []))

/-- Somebody interrupts as soon as he sees output; by then the worker is done. -/
def interrupting (_ : Log) : (q : Session.Request × Context) → Session.Answer q.1 × Context
  | (.stdout _, c) => ((), c.interrupt.2)
  | (.stderr _, c) => ((), c)
  | (.readLine _, c) => (.abandoned, c)
  | (.prompt _, c) => (none, c)
  | (.hasTurn .., c) => (false, c)
  | (.clock, c) => (0, c)
  | (.note _, c) => ((), c)

theorem session_outruns_interrupt :
    ∃ before c after h c', SharedTask.Ran (session true twoLines) (.fresh .worker)
        (before ++ ⟨(.stdout [0x61, 0x0A], c), ((), c.interrupt.2)⟩ :: after) (.ok h) c' ∧
      c.interrupt.1 = true ∧ requests after = [.stdout [0x62, 0x0A]] :=
  ⟨[_, _, _], _, [_], _, _, Task.runs_trace interrupting _, rfl, rfl⟩

end Background

namespace Interrupts

/-! ## Calls on the tokens -/

/-- What handles are used for. -/
inductive Call where
  | install
  | clear
  | interrupt
  deriving DecidableEq

/-- What a call makes of the tokens. -/
def perform (i : Interrupts) : Call → Interrupts
  | .install => i.install
  | .clear => i.clear
  | .interrupt => i.fire.2

/-- What calls make of the tokens, one after another. -/
def run (i : Interrupts) (calls : List Call) : Interrupts := calls.foldl perform i

lemma run_append (i : Interrupts) (before after : List Call) :
    i.run (before ++ after) = (i.run before).run after :=
  List.foldl_append

lemma run_concat (i : Interrupts) (calls : List Call) (c : Call) :
    i.run (calls ++ [c]) = (i.run calls).perform c :=
  run_append i calls [c]

lemma fst_fire (i : Interrupts) : i.fire.1 = i.isActive := by
  rw [fire, isActive]
  split <;> simp [*]

@[simp] lemma current_fire (i : Interrupts) : i.fire.2.current = i.current := by
  rw [fire]
  split <;> simp [*]

/-- With no run in flight there is nothing to interrupt. -/
lemma fire_of_idle {i : Interrupts} (h : i.current = none) : i.fire = (false, i) := by
  rw [fire, h]

lemma isHit_append_false (hit : List Bool) (current : Option ℕ) (k : ℕ) :
    isHit ⟨hit ++ [false], current⟩ k = isHit ⟨hit, current⟩ k := by
  simp only [isHit, List.getD_eq_getElem?_getD, List.getElem?_append]
  split_ifs with hk
  · rfl
  · rw [List.getElem?_eq_none (not_lt.1 hk)]
    cases k - hit.length <;> rfl

/-- A new token is not hit. -/
lemma isHit_install (i : Interrupts) : i.install.isHit i.hit.length = false := by
  simp [install, isHit]

/-! ## Numbers -/

/-- There is a token for each run that was installed. -/
lemma length_hit_run (calls : List Call) :
    (start.run calls).hit.length = calls.count .install := by
  induction calls using List.reverseRecOn with
  | nil => rfl
  | append_singleton calls c ih =>
    rw [run_concat, List.count_append, ← ih]
    cases c with
    | install => exact List.length_append
    | clear => rfl
    | interrupt =>
      rw [perform, fire]
      split <;> simp

/-! ## Times -/

/-- The time of a token goes on: no run is installed, and none is cleared. -/
def GoesOn (calls : List Call) : Prop := .install ∉ calls ∧ .clear ∉ calls

lemma goesOn_concat_iff {calls : List Call} {c : Call} :
    GoesOn (calls ++ [c]) ↔ GoesOn calls ∧ c = .interrupt := by
  cases c <;> simp [GoesOn]

/-- After these calls it is the time of the token with this number. -/
def IsTimeOf (k : ℕ) (calls : List Call) : Prop :=
  ∃ before since, calls = before ++ .install :: since ∧ before.count .install = k ∧ GoesOn since

/-- Whether it still is the time of a token is up to the last call. -/
lemma isTimeOf_concat_iff {k : ℕ} {calls : List Call} {c : Call} :
    IsTimeOf k (calls ++ [c]) ↔
      (c = .install ∧ calls.count .install = k) ∨ (c = .interrupt ∧ IsTimeOf k calls) := by
  constructor
  · rintro ⟨before, since, hcalls, hk, hsince⟩
    rcases List.eq_nil_or_concat since with rfl | ⟨since, c', rfl⟩
    · obtain ⟨rfl, hc⟩ := List.append_inj' hcalls rfl
      exact .inl ⟨List.singleton_inj.1 hc, hk⟩
    · rw [List.concat_eq_append] at hcalls hsince
      obtain ⟨hgoes, rfl⟩ := goesOn_concat_iff.1 hsince
      rw [← List.cons_append, ← List.append_assoc] at hcalls
      obtain ⟨rfl, hc⟩ := List.append_inj' hcalls rfl
      exact .inr ⟨List.singleton_inj.1 hc, before, since, rfl, hk, hgoes⟩
  · rintro (⟨rfl, hk⟩ | ⟨rfl, before, since, rfl, hk, hsince⟩)
    · exact ⟨calls, [], rfl, hk, by simp [GoesOn]⟩
    · exact ⟨before, since ++ [.interrupt], by simp, hk, goesOn_concat_iff.2 ⟨hsince, rfl⟩⟩

/-- **The run in flight is the one whose time it is.** -/
theorem current_run_iff {calls : List Call} {k : ℕ} :
    (start.run calls).current = some k ↔ IsTimeOf k calls := by
  induction calls using List.reverseRecOn with
  | nil => simp [run, start, IsTimeOf]
  | append_singleton calls c ih =>
    rw [run_concat, isTimeOf_concat_iff, ← ih, ← length_hit_run]
    cases c <;> simp [perform, install, clear]

/-- Whether a run is in flight is whether it is the time of a token. -/
lemma isActive_run_iff {calls : List Call} :
    (start.run calls).isActive = true ↔ ∃ k, IsTimeOf k calls := by
  rw [isActive, Option.isSome_iff_exists]
  exact exists_congr fun _ => current_run_iff

/-! ## Hits -/

/-- Somebody has interrupted in the time of the token with this number. -/
def InterruptedIn (k : ℕ) (calls : List Call) : Prop :=
  ∃ before after, calls = before ++ .interrupt :: after ∧ IsTimeOf k before

lemma interruptedIn_concat_iff {k : ℕ} {calls : List Call} {c : Call} :
    InterruptedIn k (calls ++ [c]) ↔
      InterruptedIn k calls ∨ (c = .interrupt ∧ IsTimeOf k calls) := by
  constructor
  · rintro ⟨before, after, hcalls, htime⟩
    rcases List.eq_nil_or_concat after with rfl | ⟨after, c', rfl⟩
    · obtain ⟨rfl, hc⟩ := List.append_inj' hcalls rfl
      exact .inr ⟨List.singleton_inj.1 hc, htime⟩
    · rw [List.concat_eq_append, ← List.cons_append, ← List.append_assoc] at hcalls
      obtain ⟨rfl, -⟩ := List.append_inj' hcalls rfl
      exact .inl ⟨before, after, rfl, htime⟩
  · rintro (⟨before, after, rfl, htime⟩ | ⟨rfl, htime⟩)
    · exact ⟨before, after ++ [c], by simp, htime⟩
    · exact ⟨calls, [], rfl, htime⟩

/-- An interrupt hits the token whose time it is, and no other. -/
lemma isHit_fire_iff {i : Interrupts} {k : ℕ} (h : ∀ k, i.current = some k → k < i.hit.length) :
    i.fire.2.isHit k = true ↔ i.isHit k = true ∨ i.current = some k := by
  rw [fire]
  cases hcurrent : i.current with
  | none => simp
  | some j =>
    have hj := h j hcurrent
    simp only [isHit, List.getD_eq_getElem?_getD, List.getElem?_set, Option.some.injEq]
    by_cases hjk : j = k
    · subst hjk
      simp [hj]
    · simp [hjk]

/-- The run in flight has a token. -/
lemma lt_length_hit_run {calls : List Call} {k : ℕ} (h : (start.run calls).current = some k) :
    k < (start.run calls).hit.length := by
  obtain ⟨before, since, rfl, rfl, -⟩ := current_run_iff.1 h
  simp [length_hit_run, List.count_append]

/-- **A token is hit exactly if somebody interrupts in its time.** -/
theorem isHit_run_iff {calls : List Call} {k : ℕ} :
    (start.run calls).isHit k = true ↔ InterruptedIn k calls := by
  induction calls using List.reverseRecOn with
  | nil => simp [run, start, isHit, InterruptedIn]
  | append_singleton calls c ih =>
    rw [run_concat, interruptedIn_concat_iff, ← ih]
    cases c with
    | install =>
      rw [perform, install, isHit_append_false]
      simp [isHit]
    | clear => simp [perform, clear, isHit]
    | interrupt =>
      rw [perform, isHit_fire_iff fun _ => lt_length_hit_run, current_run_iff]
      simp

/-- Once hit, a token stays so. -/
lemma isHit_run_append {calls more : List Call} {k : ℕ} (h : (start.run calls).isHit k = true) :
    (start.run (calls ++ more)).isHit k = true := by
  obtain ⟨before, after, rfl, htime⟩ := isHit_run_iff.1 h
  exact isHit_run_iff.2 ⟨before, after ++ more, by simp, htime⟩

/-! ## One session -/

/-- The calls of a session in whose time somebody interrupts so often. -/
def sessionCalls (interrupts : ℕ) : List Call :=
  .install :: List.replicate interrupts .interrupt ++ [.clear]

lemma run_replicate_succ (i : Interrupts) (n : ℕ) :
    i.run (List.replicate (n + 1) .interrupt) = (i.run (List.replicate n .interrupt)).fire.2 := by
  rw [List.replicate_succ', run_concat, perform]

lemma current_run_replicate (i : Interrupts) (n : ℕ) :
    (i.run (List.replicate n .interrupt)).current = i.current := by
  induction n with
  | zero => rfl
  | succ n ih => rw [run_replicate_succ, current_fire, ih]

end Interrupts

namespace Background

open Interrupts (Call sessionCalls)

variable {α β : Type} {watched : Bool} {token n : ℕ} {d d' : Desk} {c c' : Context} {log : Log}

/-- So often somebody has interrupted while the requests of a log were answered.  What else has become
of the context meanwhile is left open. -/
inductive Fired : Log → ℕ → Prop
  | nil : Fired [] 0
  | cons {q : Session.Request} {a : Session.Answer q} {c c' : Context} {log : Log} {n : ℕ} (k : ℕ)
    (here : c'.interrupts = c.interrupts.run (List.replicate k .interrupt)) (rest : Fired log n) :
    Fired (⟨(q, c), (a, c')⟩ :: log) (k + n)

lemma Fired.of_append {before after : Log} (h : Fired (before ++ after) n) :
    ∃ k l, n = k + l ∧ Fired before k ∧ Fired after l := by
  induction before generalizing n with
  | nil => exact ⟨0, n, (Nat.zero_add n).symm, .nil, h⟩
  | cons e before ih =>
    rcases h with _ | ⟨k, here, rest⟩
    obtain ⟨l, m, rfl, hbefore, hafter⟩ := ih rest
    exact ⟨k + l, m, (Nat.add_assoc k l m).symm, .cons k here hbefore, hafter⟩

/-- The parts of attending leave the tokens to whoever interrupts. -/
lemma interrupts_of_made {t : Attending α} {r : Except Ending α} (h : Made t)
    (hran : Ran t d c log r d' c') (hfired : Fired log n) :
    c'.interrupts = c.interrupts.run (List.replicate n .interrupt) := by
  induction h generalizing d c log n d' c' with
  | pure a =>
    obtain ⟨rfl, -, -, rfl⟩ := ran_pure_iff.1 hran
    cases hfired
    rfl
  | finished | interrupted =>
    obtain ⟨rfl, -, -, rfl⟩ := ran_throw_iff.1 hran
    cases hfired
    rfl
  | bind first next ihfirst ihnext =>
    rcases ran_bind_iff.1 hran with ⟨e, -, hfirst⟩ | ⟨b, d₁, c₁, before, after, rfl, hfirst, hnext⟩
    · exact ihfirst hfirst hfired
    · obtain ⟨k, l, rfl, hbefore, hafter⟩ := hfired.of_append
      rw [ihnext b hnext hafter, ihfirst hfirst hbefore, ← Interrupts.run_append,
        List.replicate_append_replicate]
  | ask q =>
    obtain ⟨a, -, -, rfl⟩ := ran_ask_iff.1 hran
    rcases hfired with _ | ⟨k, here, rest⟩
    cases rest
    exact here
  | desk | context =>
    obtain ⟨rfl, -, -, rfl⟩ := ran_pure_iff.1 hran
    cases hfired
    rfl
  | modifyDesk g =>
    obtain ⟨rfl, -, -, rfl⟩ := ran_modifyDesk_iff.1 hran
    cases hfired
    rfl
  | exchange leaves next ih =>
    rw [ran_mailbox_bind_iff, ran_putMailbox_bind_iff] at hran
    have hrest := ih _ hran hfired
    exact hrest

/-! ## Why attending is interrupted -/

/-- Where this part of attending is interrupted, the line editor has given a question up or the token
is hit. -/
def HasReason (token : ℕ) (t : Attending α) : Prop :=
  ∀ ⦃d c log d' c'⦄, Ran t d c log (.error (.failed .interrupted)) d' c' →
    gaveUp log = true ∨ c'.interrupts.isHit token = true

lemma HasReason.bind {t : Attending β} {f : β → Attending α} (h : HasReason token t)
    (hnext : ∀ b, HasReason token (f b)) : HasReason token (t >>= f) := by
  intro d c log d' c' hran
  rcases ran_bind_iff.1 hran with ⟨e, he, hfirst⟩ | ⟨b, d₁, c₁, before, after, rfl, -, hrest⟩
  · obtain rfl := Except.error.inj he
    exact h hfirst
  · refine (hnext b hrest).imp_left fun hgave => ?_
    rw [gaveUp_append, hgave, Bool.or_true]

lemma hasReason_pure (a : α) : HasReason token (pure a : Attending α) := by
  intro d c log d' c' hran
  cases (ran_pure_iff.1 hran).2.1

lemma hasReason_ask (q : Session.Request) : HasReason token (ask q) := by
  intro d c log d' c' hran
  obtain ⟨a, ha, -⟩ := ran_ask_iff.1 hran
  cases ha

lemma hasReason_modifyDesk (g : Desk → Desk) :
    HasReason token (modifyThe Desk g : Attending PUnit) := by
  intro d c log d' c' hran
  cases (ran_modifyDesk_iff.1 hran).2.1

/-- Where nobody gives a question up, attending to what is there is not interrupted. -/
lemma hasReason_attendAll : HasReason token (attendAll watched) := by
  intro d c log d' c' hran
  have hending := (shown_attendAll hran).ending
  rw [endingOf] at hending
  split_ifs at hending with hgave hlast
  · exact .inl hgave
  · cases hending

lemma hasReason_heed : HasReason token (heed token) := by
  intro d c log d' c' hran
  obtain ⟨-, hr, -, rfl⟩ := ran_heed_iff.1 hran
  split_ifs at hr with hhit
  exact .inr hhit

lemma hasReason_meanwhile : HasReason token (meanwhile watched token) := by
  have hrest (turned : Bool) : HasReason token (if turned then turn watched token
      else modifyThe Desk fun d => { d with ahead := d.ahead + 1 }) := by
    cases turned with
    | true => exact hasReason_attendAll.bind fun _ => hasReason_heed
    | false => exact hasReason_modifyDesk _
  intro d c log d' c' hran
  exact (hasReason_ask _).bind hrest (ran_desk_bind_iff.1 hran)

lemma hasReason_post (e : Worker.Event) : HasReason token (post watched token e) :=
  hasReason_meanwhile.bind fun _ => hasReason_modifyDesk _

lemma hasReason_serve (q : Worker.Request) : HasReason token (serve watched token q) := by
  cases q with
  | send e => exact hasReason_post e
  | exchange caption =>
    have hsignal : HasReason token (do post watched token (.readLine caption); attendAll watched) :=
      (hasReason_post _).bind fun _ => hasReason_attendAll
    intro d c log d' c' hran
    rw [serve, Mailbox.request, ran_mailbox_bind_iff, ran_putMailbox_bind_iff,
      ran_mailbox_bind_iff] at hran
    split_ifs at hran
    · rw [ran_mailbox_bind_iff, ran_putMailbox_bind_iff] at hran
      exact hasReason_pure none hran
    · -- the line that was given is taken
      refine hsignal.bind (fun _ => ?_) hran
      intro d c log d' c' hran
      rw [ran_mailbox_bind_iff, ran_putMailbox_bind_iff] at hran
      exact hasReason_pure _ hran
  | isCancelled =>
    intro d c log d' c' hran
    exact hasReason_pure _ (ran_mailbox_bind_iff (f := fun m => pure m.cancelled) |>.1 hran)
  | clock | note o => exact hasReason_ask _
  | epoch =>
    refine hasReason_meanwhile.bind fun _ => ?_
    intro d c log d' c' hran
    exact hasReason_pure _ (ran_context_bind_iff (f := fun c => pure c.epoch) |>.1 hran)

/-- **Attending is interrupted only for a reason.** -/
theorem hasReason_attendTo (work : Working Unit) : HasReason token (attendTo watched token work) := by
  have hwork : HasReason token (work.interpret (serve watched token)) := by
    induction work with
    | done a => exact hasReason_pure a
    | ask q next ih => exact (hasReason_serve q).bind ih
  exact hwork.bind fun _ => hasReason_attendAll

/-! ## Sessions -/

variable {work : Working Unit} {result : Except SessionError Harvest}

/-- **A session installs its token, and clears it in whatever way it ends.** -/
theorem interrupts_session (h : SharedTask.Ran (session watched work) c log result c')
    (hfired : Fired log n) : c'.interrupts = c.interrupts.run (sessionCalls n) ∧
      (result = .error .interrupted →
        gaveUp log = true ∨ c'.interrupts.isHit c.interrupts.hit.length = true) := by
  rw [session, SharedTask.ran_get_bind_iff, SharedTask.ran_modify_bind_iff,
    SharedTask.ran_bind_iff] at h
  obtain ⟨p, c₁, before, after, rfl, hattend, hclose⟩ := h
  obtain ⟨rfl, hresult, hok, herror⟩ := ran_close hclose
  obtain ⟨ending, desk⟩ := p
  rw [List.append_nil] at hfired ⊢
  have hcleared : c'.interrupts = c₁.interrupts.clear := by
    cases hr : result with
    | ok harvest => rw [hok harvest hr]
    | error e => rw [herror e hr, Context.restart]
  have hfiring := interrupts_of_made (made_attendTo watched _ work) hattend hfired
  constructor
  · rw [hcleared, hfiring, sessionCalls, Interrupts.run_concat]
    rfl
  · rintro rfl
    rcases ending with (_ | e) | _
    · cases hresult
    · obtain rfl := Except.error.inj hresult
      rw [hcleared]
      exact hasReason_attendTo work hattend
    · cases hresult

/-- The contexts that one comes to from a fresh one, with the calls that were made on the way: by
sessions, in whose time others interrupt, and by whatever happens between two sessions, where others
interrupt as well. -/
inductive History : List Call → Context → Prop
  | fresh (b : Backend) : History [] (.fresh b)
  | session {calls : List Call} {watched : Bool} {work : Working Unit} {log : Log} {n : ℕ}
    {result : Except SessionError Harvest} {c c' : Context} (before : History calls c)
    (ran : SharedTask.Ran (session watched work) c log result c') (fired : Fired log n) :
    History (calls ++ sessionCalls n) c'
  | between {calls : List Call} {c c' : Context} (before : History calls c) (n : ℕ)
    (fired : c'.interrupts = c.interrupts.run (List.replicate n .interrupt)) :
    History (calls ++ List.replicate n .interrupt) c'

variable {calls : List Call}

/-- The tokens are what the calls have made of them, and nothing is in flight. -/
lemma History.interrupts (h : History calls c) :
    c.interrupts = Interrupts.start.run calls ∧ c.interrupts.current = none := by
  induction h with
  | fresh b => exact ⟨rfl, rfl⟩
  | @session calls _ _ _ n _ _ c' before ran fired ih =>
    have hsession : c'.interrupts = Interrupts.start.run (calls ++ sessionCalls n) := by
      rw [(interrupts_session ran fired).1, ih.1, Interrupts.run_append]
    refine ⟨hsession, ?_⟩
    -- the last call of a session clears it
    rw [hsession, sessionCalls, ← List.append_assoc, Interrupts.run_concat]
    rfl
  | between before n fired ih =>
    rw [fired, Interrupts.current_run_replicate, ih.1, Interrupts.run_append]
    exact ⟨rfl, ih.1 ▸ ih.2⟩

/-- Its own token is hit exactly if somebody interrupts in the time of the session. -/
lemma isHit_sessionCalls_iff (calls : List Call) (n : ℕ) :
    (Interrupts.start.run (calls ++ sessionCalls n)).isHit (calls.count .install) = true ↔ 0 < n := by
  induction n with
  | zero =>
    have hfresh : (Interrupts.start.run (calls ++ sessionCalls 0)).isHit (calls.count .install) =
        false := by
      rw [← Interrupts.length_hit_run, Interrupts.run_append]
      exact Interrupts.isHit_install _
    simp [hfresh]
  | succ n =>
    refine iff_of_true (Interrupts.isHit_run_iff.2 ?_) n.succ_pos
    refine ⟨calls ++ [.install], List.replicate n .interrupt ++ [.clear], ?_, calls, [], rfl, rfl, ?_⟩
    · simp [sessionCalls, List.replicate_succ]
    · simp [Interrupts.GoesOn]

/-- **Interrupts hit the run in flight and no other.**  Take any calls on the handles, in any order.

* A token is hit exactly if somebody interrupted after its run was installed and before the next one was
  installed or cleared, and it stays so.
* Interrupting tells whether a run is installed.

And take any context that sessions have gone through and in which others interrupt, in a session or
between two.  Between sessions an interrupt finds nothing and leaves the whole context as it is.  The
token of the next session is hit exactly if somebody interrupts in that session, and if nobody does and
no question is given up, the session is not interrupted. -/
theorem interrupts_hit_run_in_flight :
    (∀ calls : List Call,
      (∀ k, (Interrupts.start.run calls).isHit k = true ↔
        ∃ before since after, calls = before ++ .install :: since ++ .interrupt :: after ∧
          before.count .install = k ∧ .install ∉ since ∧ .clear ∉ since) ∧
      ((Interrupts.start.run calls).fire.1 = true ↔
        ∃ before since, calls = before ++ .install :: since ∧ .install ∉ since ∧ .clear ∉ since) ∧
      ∀ more k, (Interrupts.start.run calls).isHit k = true →
        (Interrupts.start.run (calls ++ more)).isHit k = true) ∧
    ∀ calls c, History calls c → c.interrupt = (false, c) ∧
      ∀ watched work log n result c', SharedTask.Ran (session watched work) c log result c' →
        Fired log n →
          (c'.interrupts.isHit (calls.count .install) = true ↔ 0 < n) ∧
          (result = .error .interrupted → 0 < n ∨ gaveUp log = true) := by
  refine ⟨fun calls => ⟨fun k => ?_, ?_, fun more k => Interrupts.isHit_run_append⟩,
    fun calls c hhistory => ?_⟩
  · rw [Interrupts.isHit_run_iff]
    constructor
    · rintro ⟨_, after, rfl, before, since, rfl, hk, hsince⟩
      exact ⟨before, since, after, rfl, hk, hsince⟩
    · rintro ⟨before, since, after, rfl, hk, hsince⟩
      exact ⟨_, after, rfl, before, since, rfl, hk, hsince⟩
  · rw [Interrupts.fst_fire, Interrupts.isActive_run_iff]
    constructor
    · rintro ⟨k, before, since, rfl, -, hsince⟩
      exact ⟨before, since, rfl, hsince⟩
    · rintro ⟨before, since, rfl, hsince⟩
      exact ⟨_, before, since, rfl, rfl, hsince⟩
  · obtain ⟨hinterrupts, hidle⟩ := hhistory.interrupts
    refine ⟨?_, fun watched work log n result c' hran hfired => ?_⟩
    · rw [Context.interrupt, Interrupts.fire_of_idle hidle]
    · obtain ⟨hsession, hreason⟩ := interrupts_session hran hfired
      have hhit : c'.interrupts.isHit (calls.count .install) = true ↔ 0 < n := by
        rw [hsession, hinterrupts, ← Interrupts.run_append, isHit_sessionCalls_iff]
      refine ⟨hhit, fun hresult => ?_⟩
      rcases hreason hresult with hgave | htoken
      · exact .inr hgave
      · rw [hinterrupts, Interrupts.length_hit_run] at htoken
        exact .inl (hhit.1 htoken)

/-- A context whose only session is over; somebody has interrupted it. -/
def interruptedContext : Context := { Context.fresh .worker with interrupts := ⟨[true], none⟩ }

/-- Somebody interrupts twice in a session and once after it; the next session is left alone. -/
theorem interrupts_hit_run_in_flight_two_sessions :
    History (sessionCalls 2 ++ [.interrupt]) interruptedContext ∧
      ∃ log result c', SharedTask.Ran (session true twoLines) interruptedContext log result c' ∧
        Fired log 0 ∧ interruptedContext.interrupts.isHit 0 = true ∧
        c'.interrupts.isHit 1 = false := by
  have hfirst : SharedTask.Ran (session true twoLines) (.fresh .worker) _ _ interruptedContext :=
    Task.runs_trace interrupting _
  have hfired : Fired ((session true twoLines (.fresh .worker)).trace interrupting).1 2 :=
    .cons 0 rfl <| .cons 0 rfl <| .cons 0 rfl <| .cons 1 rfl <| .cons 1 rfl .nil
  have hhistory : History (sessionCalls 2 ++ [.interrupt]) interruptedContext :=
    ((History.fresh .worker).session hfirst hfired).between 1 rfl
  have hsecond := Task.runs_trace Session.calm (session true twoLines interruptedContext)
  have hquiet : Fired ((session true twoLines interruptedContext).trace Session.calm).1 0 :=
    .cons 0 rfl <| .cons 0 rfl <| .cons 0 rfl <| .cons 0 rfl <| .cons 0 rfl .nil
  obtain ⟨-, hnext⟩ := interrupts_hit_run_in_flight.2 _ _ hhistory
  obtain ⟨hhit, -⟩ := hnext true twoLines _ 0 _ _ hsecond hquiet
  have hmissed := mt hhit.1 (Nat.lt_irrefl 0)
  exact ⟨hhistory, _, _, _, hsecond, hquiet, rfl, Bool.eq_false_iff.2 hmissed⟩

end Background

end GuestShell
