import GuestShell.Proofs.Session.Quiet

/-!
# What a worker reports of its run

A worker that nobody cancels reports what its run shows and asks, in this order, and then how it
ended (`told_work`).  So what is reported of a run that nobody watches is output, at most one
failure, and the files.
-/

namespace GuestShell

/-- The events of a run as a worker reports them; a worker that nobody watches does not ask. -/
def Run.events (headless : Bool) (c : Caption) : Run.Log → List Worker.Event
  | [] => []
  | ⟨q, a⟩ :: log =>
    (if headless then [] else (c.asked q).map .readLine) ++ Background.eventsOf q ++
      Run.events headless (c.after q a) log

namespace Worker

variable {α : Type} {headless : Bool} {epoch : Nat}

/-! ## Events -/

/-- Whether the event is a chunk of output. -/
def Event.isOutput : Event → Bool
  | .stdout _ | .stderr _ => true
  | .readLine _ | .failed _ | .finished _ => false

/-- Whether the event can wait while the worker goes on. -/
def Event.canWait : Event → Bool
  | .stdout _ | .stderr _ | .failed _ => true
  | .readLine _ | .finished _ => false

/-- The chunks of output among some events. -/
def outputs (events : List Event) : List Event := events.filter (·.isOutput)

/-- The captions of the questions among some events. -/
def captions (events : List Event) : List String :=
  events.filterMap fun
    | .readLine caption => some caption
    | _ => none

@[simp] lemma outputs_append (before after : List Event) :
    outputs (before ++ after) = outputs before ++ outputs after :=
  List.filter_append ..

@[simp] lemma captions_append (before after : List Event) :
    captions (before ++ after) = captions before ++ captions after :=
  List.filterMap_append

lemma events_headless (c : Caption) (inner : Run.Log) :
    Run.events true c inner = Run.output inner := by
  induction inner generalizing c with
  | nil => rfl
  | cons e inner ih => exact congrArg (_ ++ ·) (ih _)

lemma events_of_unasked (c : Caption) {inner : Run.Log} (h : ∀ e ∈ inner, e.1 ≠ .readLine) :
    Run.events headless c inner = Run.output inner := by
  induction inner generalizing c with
  | nil => rfl
  | cons e inner ih =>
    obtain ⟨q, a⟩ := e
    obtain ⟨hq, hrest⟩ := List.forall_mem_cons.1 h
    have hasked : (if headless then [] else (c.asked q).map Event.readLine) = [] := by
      cases q with
      | readLine => exact absurd rfl hq
      | _ => cases headless <;> rfl
    rw [Run.events, hasked, ih _ hrest]
    rfl

lemma outputs_eventsOf (q : Run.Request) :
    outputs (Background.eventsOf q) = Background.eventsOf q := by
  cases q <;> rfl

lemma outputs_output (inner : Run.Log) : outputs (Run.output inner) = Run.output inner := by
  induction inner with
  | nil => rfl
  | cons e inner ih =>
    rw [Run.output, List.flatMap_cons, outputs_append, outputs_eventsOf]
    exact congrArg (_ ++ ·) ih

lemma outputs_events (c : Caption) (inner : Run.Log) :
    outputs (Run.events headless c inner) = Run.output inner := by
  induction inner generalizing c with
  | nil => rfl
  | cons e inner ih =>
    obtain ⟨q, a⟩ := e
    have hasked : outputs (if headless then [] else (c.asked q).map .readLine) = [] := by
      cases headless <;> cases q <;> rfl
    rw [Run.events, outputs_append, outputs_append, hasked, outputs_eventsOf, ih]
    rfl

lemma captions_events (c : Caption) (inner : Run.Log) :
    captions (Run.events false c inner) = Run.captions c inner := by
  induction inner generalizing c with
  | nil => rfl
  | cons e inner ih =>
    obtain ⟨q, a⟩ := e
    rw [Run.events, captions_append, ih, Run.captions]
    exact congrArg (· ++ _) (by cases q <;> rfl)

/-! ## Logs -/

/-- What passes between a worker and its surroundings. -/
abbrev Log : Type := Task.Log Request Answer

/-- What was reported. -/
def told (log : Log) : List Event :=
  log.flatMap fun
    | ⟨.send e, _⟩ => [e]
    | ⟨.exchange caption, _⟩ => [.readLine caption]
    | _ => []

/-- What was answered where a line was asked for. -/
def received (log : Log) : List (Option String) :=
  log.filterMap fun
    | ⟨.exchange _, line⟩ => some line
    | _ => none

/-- What the clock showed, each time somebody looked. -/
def clocksOf (log : Log) : List Moment :=
  log.filterMap fun
    | ⟨.clock, now⟩ => some now
    | _ => none

/-- An answer of surroundings that do not disturb. -/
def Calm (epoch : Nat) : (q : Request) → Answer q → Prop
  | .epoch, e => e = epoch
  | .isCancelled, cancelled => cancelled = false
  | .send _, _ | .exchange _, _ | .clock, _ | .note _, _ => True

/-- Nobody cancels the worker, and the epoch is always the same one. -/
def Undisturbed (epoch : Nat) (log : Log) : Prop := ∀ e ∈ log, Calm epoch e.1 e.2

@[simp] lemma told_append (before after : Log) : told (before ++ after) = told before ++ told after :=
  List.flatMap_append

@[simp] lemma received_append (before after : Log) :
    received (before ++ after) = received before ++ received after :=
  List.filterMap_append

@[simp] lemma clocksOf_append (before after : Log) :
    clocksOf (before ++ after) = clocksOf before ++ clocksOf after :=
  List.filterMap_append

/-- What the log of a worker has of its run. -/
structure Mirrors (headless : Bool) (epoch : Nat) (caption : Caption) (inner : Run.Log) (log : Log) :
    Prop where
  undisturbed : Run.Undisturbed epoch (clocksOf log) inner
  silent : headless = true → Run.Silent inner
  lines : headless = false → Stdin.answersIn inner = received log
  told : told log = Run.events headless caption inner

lemma Mirrors.cons {caption : Caption} {q : Run.Request} {a : Run.Answer q} {inner : Run.Log}
    {before after : Log} (h : Mirrors headless epoch caption [⟨q, a⟩] before)
    (hrest : Mirrors headless epoch (caption.after q a) inner after) :
    Mirrors headless epoch caption (⟨q, a⟩ :: inner) (before ++ after) := by
  have hlines : Stdin.answersIn (⟨q, a⟩ :: inner) =
      Stdin.answersIn [⟨q, a⟩] ++ Stdin.answersIn inner := List.filterMap_append (l := [_])
  constructor
  · rw [clocksOf_append]
    exact h.undisturbed.append hrest.undisturbed
  · intro hheadless line hline
    rw [hlines, List.mem_append] at hline
    exact hline.elim (h.silent hheadless line) (hrest.silent hheadless line)
  · intro hwatched
    rw [hlines, received_append, h.lines hwatched, hrest.lines hwatched]
  · rw [told_append, h.told, hrest.told]
    simp only [Run.events, List.append_nil]

variable {caption caption' : Caption} {log : Log}

lemma mirrors_serve {q : Run.Request} {a : Run.Answer q}
    (h : Task.Runs ((serve headless q).run caption) log (a, caption'))
    (hlog : Undisturbed epoch log) :
    caption' = caption.after q a ∧ Mirrors headless epoch caption [⟨q, a⟩] log := by
  have hcalm (hq : Run.Calm epoch q a) : ∀ e ∈ [(⟨q, a⟩ : (q : Run.Request) × Run.Answer q)],
      Run.Calm epoch e.1 e.2 := by simpa using hq
  have hsilent (hq : q ≠ .readLine) : Run.Silent [⟨q, a⟩] := by
    cases q with
    | readLine => exact absurd rfl hq
    | _ => simp [Run.Silent, Stdin.answersIn]
  cases q with
  | stdout chunk | stderr chunk | clock | note o =>
    obtain ⟨a, rest, rfl, hend⟩ := Task.runs_ask_iff.1 h
    obtain ⟨rfl, hend⟩ := Task.runs_done_iff.1 hend
    cases hend
    exact ⟨rfl, ⟨hcalm trivial, rfl⟩, fun _ => hsilent (by simp), fun _ => rfl, by cases headless <;> rfl⟩
  | isInterrupted | epoch =>
    obtain ⟨a, rest, rfl, hend⟩ := Task.runs_ask_iff.1 h
    obtain ⟨rfl, hend⟩ := Task.runs_done_iff.1 hend
    cases hend
    have ha := hlog _ List.mem_cons_self
    exact ⟨rfl, ⟨hcalm ha, rfl⟩, fun _ => hsilent (by simp), fun _ => rfl, by cases headless <;> rfl⟩
  | readLine =>
    cases headless with
    | true =>
      obtain ⟨rfl, hend⟩ := Task.runs_done_iff.1 h
      cases hend
      exact ⟨rfl, ⟨hcalm trivial, rfl⟩, fun _ => by simp [Run.Silent, Stdin.answersIn], by simp, rfl⟩
    | false =>
      obtain ⟨(cancelled : Bool), rest, rfl, hrest⟩ := Task.runs_ask_iff.1 h
      obtain rfl : cancelled = false := hlog _ List.mem_cons_self
      obtain ⟨(line : Option String), rest, rfl, hend⟩ := Task.runs_ask_iff.1 hrest
      cases line with
      | none | some line =>
        obtain ⟨rfl, hend⟩ := Task.runs_done_iff.1 hend
        cases hend
        exact ⟨rfl, ⟨hcalm trivial, rfl⟩, by simp, fun _ => rfl, rfl⟩

/-- **A worker mirrors its run.** -/
theorem mirrors_run {r : Running α} {a : α}
    (h : Task.Runs ((r.interpret (serve headless)).run caption) log (a, caption'))
    (hlog : Undisturbed epoch log) :
    ∃ inner, Task.Runs r inner a ∧ Mirrors headless epoch caption inner log := by
  induction r generalizing caption log with
  | done b =>
    obtain ⟨rfl, hpair⟩ := Task.runs_done_iff.1 h
    obtain ⟨rfl, rfl⟩ := Prod.mk.inj hpair
    refine ⟨[], .done _, Run.undisturbed_nil _, ?_, fun _ => rfl, rfl⟩
    simp [Run.Silent, Stdin.answersIn]
  | ask q next ih =>
    rw [Task.interpret, StateT.run_bind] at h
    obtain ⟨⟨b, caption₁⟩, before, after, rfl, hserve, hrest⟩ := Task.runs_bind_iff.1 h
    obtain ⟨hbefore, hafter⟩ := List.forall_mem_append.1 hlog
    obtain ⟨rfl, hfirst⟩ := mirrors_serve hserve hbefore
    obtain ⟨inner, hinner, hmirrors⟩ := ih b hrest hafter
    exact ⟨⟨q, b⟩ :: inner, .ask b hinner, hfirst.cons hmirrors⟩

/-! ## The whole work -/

/-- Reports a failure, if there is one. -/
def fail (report : Report) : Working Unit :=
  match report.error with
  | some e => ask (.send (.failed e))
  | none => pure ()

lemma conclude_eq (report : Report) :
    conclude report = (fail report).bind fun _ => ask (.send (.finished report.files)) := by
  rw [conclude, fail]
  cases report.error <;> rfl

/-- The work without its last event, and what the run comes to. -/
def allButLast (headless : Bool) (r : Running α) (f : α → Report) : Working α :=
  ((r.interpret (serve headless)).run .empty).bind fun p => (fail (f p.1)).bind fun _ => return p.1

lemma work_bind (r : Running α) (f : α → Report) :
    work headless (r.bind fun a => return f a) =
      (allButLast headless r f).bind fun a => ask (.send (.finished (f a).files)) := by
  have hsplit : ((r.bind fun a => return f a).interpret (serve headless)).run .empty =
      ((r.interpret (serve headless)).run .empty).bind fun p => return (f p.1, p.2) := by
    rw [Task.interpret_bind, StateT.run_bind]
    rfl
  rw [work, hsplit, allButLast]
  simp only [bind, Task.bind_assoc]
  exact congrArg _ (funext fun p => conclude_eq (f p.1))

lemma only_serve (q : Run.Request) (caption : Caption) :
    ((serve headless q).run caption).Only (fun q => ∀ e, q = .send e → e.canWait = true)
      fun _ => True := by
  cases q with
  | stdout chunk | stderr chunk =>
    refine ⟨fun e he => ?_, fun _ => trivial⟩
    cases he
    rfl
  | isInterrupted | clock | epoch | note o => exact ⟨nofun, fun _ => trivial⟩
  | readLine =>
    cases headless with
    | true => trivial
    | false =>
      refine ⟨nofun, fun (cancelled : Bool) => ?_⟩
      cases cancelled with
      | true => trivial
      | false =>
        refine ⟨nofun, fun (line : Option String) => ?_⟩
        cases line <;> trivial

/-- Only the last event ends the attending, and questions go another way. -/
lemma only_allButLast (r : Running α) (f : α → Report) :
    (allButLast headless r f).Only (fun q => ∀ e, q = .send e → e.canWait = true) fun _ => True := by
  have hrun (caption : Caption) : ((r.interpret (serve headless)).run caption).Only
      (fun q => ∀ e, q = .send e → e.canWait = true) fun _ => True := by
    induction r generalizing caption with
    | done a => trivial
    | ask q next ih =>
      rw [Task.interpret, StateT.run_bind]
      exact (only_serve q caption).bind fun p _ => ih p.1 p.2
  refine (hrun .empty).bind fun p _ => Task.Only.bind (P := fun _ => True) ?_ fun _ _ => trivial
  rw [fail]
  cases (f p.1).error with
  | none => trivial
  | some e =>
    refine ⟨fun e he => ?_, fun _ => trivial⟩
    cases he
    rfl

/-- What passes where a failure is reported, if there is one. -/
def failure (report : Report) : Log :=
  report.error.toList.map fun e => ⟨.send (.failed e), ()⟩

lemma log_of_runs_fail {report : Report} (h : Task.Runs (fail report) log ()) :
    log = failure report := by
  rw [fail] at h
  rw [failure]
  cases herror : report.error with
  | none =>
    rw [herror] at h
    exact (Task.runs_done_iff.1 h).1
  | some e =>
    rw [herror] at h
    obtain ⟨_, rest, rfl, hend⟩ := Task.runs_ask_iff.1 h
    obtain ⟨rfl, -⟩ := Task.runs_done_iff.1 hend
    rfl

lemma told_failure (report : Report) :
    told (failure report) = report.error.toList.map .failed := by
  rw [failure]
  cases report.error <;> rfl

lemma received_failure (report : Report) : received (failure report) = [] := by
  rw [failure]
  cases report.error <;> rfl

lemma clocksOf_failure (report : Report) : clocksOf (failure report) = [] := by
  rw [failure]
  cases report.error <;> rfl

/-- **A worker reports the events of its run, and then its failure.** -/
theorem mirrors_allButLast {r : Running α} {f : α → Report} {a : α}
    (h : Task.Runs (allButLast headless r f) log a) (hlog : Undisturbed epoch log) :
    ∃ inner before, log = before ++ failure (f a) ∧ Task.Runs r inner a ∧
      Mirrors headless epoch .empty inner before := by
  obtain ⟨⟨b, caption⟩, before, after, rfl, hrun, hend⟩ := Task.runs_bind_iff.1 h
  obtain ⟨inner, hinner, hmirrors⟩ := mirrors_run hrun (List.forall_mem_append.1 hlog).1
  obtain ⟨_, last, rest, rfl, hfail, hdone⟩ := Task.runs_bind_iff.1 hend
  obtain ⟨rfl, rfl⟩ := Task.runs_done_iff.1 hdone
  exact ⟨inner, before, by rw [log_of_runs_fail hfail, List.append_nil], hinner, hmirrors⟩

/-- **A worker reports the events of its run, and then its end.** -/
theorem told_work {r : Running α} {f : α → Report}
    (h : Task.Runs (work headless (r.bind fun a => return f a)) log ())
    (hlog : Undisturbed epoch log) :
    ∃ inner a, Task.Runs r inner a ∧
      told log = Run.events headless .empty inner ++ Background.endEvents (f a) ∧
      Run.Undisturbed epoch (clocksOf log) inner ∧ (headless = true → Run.Silent inner) := by
  rw [work_bind] at h
  obtain ⟨a, most, last, rfl, hmost, hlast⟩ := Task.runs_bind_iff.1 h
  obtain ⟨inner, before, rfl, hinner, hmirrors⟩ :=
    mirrors_allButLast hmost (List.forall_mem_append.1 hlog).1
  obtain ⟨_, rest, rfl, hdone⟩ := Task.runs_ask_iff.1 hlast
  obtain ⟨rfl, -⟩ := Task.runs_done_iff.1 hdone
  refine ⟨inner, a, hinner, ?_, ?_, hmirrors.silent⟩
  · rw [told_append, told_append, hmirrors.told, told_failure, List.append_assoc]
    rfl
  · rw [clocksOf_append, clocksOf_append, clocksOf_failure, List.append_assoc]
    exact (List.append_nil _).symm ▸ hmirrors.undisturbed

end Worker

end GuestShell
