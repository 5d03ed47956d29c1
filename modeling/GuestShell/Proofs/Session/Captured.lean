import GuestShell.Session.Basic
import GuestShell.Proofs.Run.Captured
import GuestShell.Proofs.Session.Attending

/-!
# Captured sessions

A session without a terminal captures its run in the foreground or on a worker.  Both ways keep the same
of it: the text of standard output is put together from the chunks, each decoded by itself
(`runCaptured_decodes_chunks`).

On a worker the chunks go through the inbox.  What a desk is `due` is what there will be when the inbox
is attended to; a turn leaves it as it is, and every event that is sent adds itself.  `Brings` says that
of a part of the work, whatever turns come in between.
-/

namespace GuestShell

namespace Background

variable {α β : Type} {d d' : Desk} {c c' : Context} {token : Nat} {log : Log}

/-! ## Desks nobody watches -/

/-- The end of the run is not yet there. -/
def Desk.Open (d : Desk) : Prop := d.inbox.any (·.isLast) = false

/-- What there will be when the inbox is attended to. -/
def Desk.due (d : Desk) : Harvest := d.inbox.foldl Harvest.add d.harvest

/-- Where nobody watches, nothing is asked and nobody gives up. -/
lemma ran_attendAll_unwatched {r : Except Ending Unit} (h : Ran (attendAll false) d c log r d' c') :
    r = endingOf false (d.inbox.any (·.isLast)) ∧
      d' = ⟨(throughLast d.inbox).foldl Harvest.add d.harvest, [], 0⟩ := by
  have hshown := shown_attendAll h
  have hasked (e : Worker.Event) : asked false e = [] := by cases e <;> rfl
  have hlog : log = [] := by
    have hbegun := hshown.begun
    rw [List.flatMap_eq_nil_iff.2 fun e _ => hasked e, List.prefix_nil] at hbegun
    exact List.map_eq_nil_iff.1 hbegun
  subst hlog
  exact ⟨hshown.ending, hshown.kept rfl⟩

/-! ## What the work brings -/

/-- However this part of the work goes on, at an open desk it does not come to the end of the run; and
if it comes to its own end, the desk is still open and has got some events. -/
def Brings (t : Attending α) (P : α → List Worker.Event → Prop) : Prop :=
  ∀ ⦃d c log r d' c'⦄, d.Open → Ran t d c log r d' c' →
    r ≠ .error .finished ∧ ∀ a, r = .ok a → d'.Open ∧
      ∃ events, P a events ∧ d'.due = events.foldl Harvest.add d.due

lemma Brings.bind {t : Attending α} {f : α → Attending β} {P : α → List Worker.Event → Prop}
    {Q : β → List Worker.Event → Prop} (h : Brings t P)
    (hnext : ∀ a before, P a before → Brings (f a) fun b after => Q b (before ++ after)) :
    Brings (t >>= f) Q := by
  intro d c log r d' c' hopen hran
  rcases ran_bind_iff.1 hran with ⟨e, rfl, hfirst⟩ | ⟨a, d₁, c₁, before, after, -, hfirst, hrest⟩
  · obtain ⟨hr, -⟩ := h hopen hfirst
    refine ⟨fun heq => hr ?_, nofun⟩
    obtain rfl := Except.error.inj heq
    rfl
  · obtain ⟨hopen, begun, hP, hdue⟩ := (h hopen hfirst).2 a rfl
    obtain ⟨hr, hend⟩ := hnext a begun hP hopen hrest
    refine ⟨hr, fun b hb => ?_⟩
    obtain ⟨hopen', events, hQ, hdue'⟩ := hend b hb
    exact ⟨hopen', begun ++ events, hQ, by rw [hdue', hdue, List.foldl_append]⟩

lemma brings_of_unchanged {t : Attending α} {P : α → List Worker.Event → Prop}
    (h : ∀ ⦃d c log r d' c'⦄, Ran t d c log r d' c' → ∃ a, r = .ok a ∧ d' = d ∧ P a []) :
    Brings t P := by
  intro d c log r d' c' hopen hran
  obtain ⟨a, rfl, rfl, hP⟩ := h hran
  refine ⟨nofun, fun b hb => ?_⟩
  obtain rfl := Except.ok.inj hb
  exact ⟨hopen, [], hP, rfl⟩

lemma brings_pure {a : α} {P : α → List Worker.Event → Prop} (h : P a []) : Brings (pure a) P := by
  refine brings_of_unchanged fun d c log r d' c' hran => ?_
  obtain ⟨-, rfl, rfl, -⟩ := ran_pure_iff.1 hran
  exact ⟨a, rfl, rfl, h⟩

lemma brings_context_bind {f : Context → Attending α} {P : α → List Worker.Event → Prop}
    (h : ∀ c, Brings (f c) P) : Brings (context >>= f) P :=
  fun _ c _ _ _ _ hopen hran => h c hopen (ran_context_bind_iff.1 hran)

lemma brings_ask (q : Session.Request) : Brings (ask q) fun _ events => events = [] := by
  refine brings_of_unchanged fun d c log r d' c' hran => ?_
  obtain ⟨a, rfl, rfl, -⟩ := ran_ask_iff.1 hran
  exact ⟨a, rfl, rfl, rfl⟩

lemma Brings.imp {t : Attending α} {P Q : α → List Worker.Event → Prop} (h : Brings t P)
    (hPQ : ∀ a events, P a events → Q a events) : Brings t Q := by
  intro d c log r d' c' hopen hran
  obtain ⟨hr, hend⟩ := h hopen hran
  refine ⟨hr, fun a ha => ?_⟩
  obtain ⟨hopen', events, hP, hdue⟩ := hend a ha
  exact ⟨hopen', events, hPQ a events hP, hdue⟩

/-! ## Turns and events -/

lemma brings_turn : Brings (turn false token) fun _ events => events = [] := by
  intro d c log r d' c' hopen hran
  rw [turn] at hran
  rcases ran_bind_iff.1 hran with ⟨e, rfl, hall⟩ | ⟨_, d₁, c₁, before, after, -, hall, hheed⟩
  · obtain ⟨hr, -⟩ := ran_attendAll_unwatched hall
    rw [hopen] at hr
    cases hr
  · obtain ⟨-, rfl⟩ := ran_attendAll_unwatched hall
    obtain ⟨-, rfl, rfl, -⟩ := ran_heed_iff.1 hheed
    refine ⟨by split <;> nofun, fun _ _ => ⟨rfl, [], rfl, ?_⟩⟩
    have hall : throughLast d.inbox = d.inbox := by
      simpa only [throughLast, List.append_nil] using throughLast_append hopen []
    rw [hall]
    rfl

lemma brings_meanwhile : Brings (meanwhile false token) fun _ events => events = [] := by
  intro d c log r d' c' hopen hran
  refine (brings_ask _).bind (fun turned before hbefore => ?_) hopen (ran_desk_bind_iff.1 hran)
  subst hbefore
  cases turned with
  | true => exact brings_turn
  | false =>
    intro d c log r d' c' hopen hran
    obtain ⟨-, rfl, rfl, -⟩ := ran_modifyDesk_iff.1 hran
    exact ⟨nofun, fun _ _ => ⟨hopen, [], rfl, rfl⟩⟩

/-- An event that is sent waits behind the others. -/
lemma ran_post {e : Worker.Event} {r : Except Ending Unit} (hopen : d.Open)
    (h : Ran (post false token e) d c log r d' c') : r ≠ .error .finished ∧ (r = .ok () →
      d'.due = d.due.add e ∧ ∃ before, before.any (·.isLast) = false ∧ d'.inbox = before ++ [e]) := by
  rw [post] at h
  rcases ran_bind_iff.1 h with ⟨e, rfl, hmean⟩ | ⟨_, d₁, c₁, before, after, -, hmean, hpost⟩
  · exact ⟨(brings_meanwhile hopen hmean).1, nofun⟩
  · obtain ⟨hopen₁, _, rfl, hdue⟩ := (brings_meanwhile hopen hmean).2 _ rfl
    obtain ⟨-, rfl, rfl, -⟩ := ran_modifyDesk_iff.1 hpost
    refine ⟨nofun, fun _ => ⟨?_, d₁.inbox, hopen₁, rfl⟩⟩
    rw [Desk.due, List.foldl_append, List.foldl_cons, List.foldl_nil]
    exact congrArg (Harvest.add · e) hdue

lemma brings_post {e : Worker.Event} (he : e.isLast = false) :
    Brings (post false token e) fun _ events => events = [e] := by
  intro d c log r d' c' hopen hran
  obtain ⟨hr, hend⟩ := ran_post hopen hran
  refine ⟨hr, fun _ hok => ?_⟩
  obtain ⟨hdue, before, hbefore, hinbox⟩ := hend hok
  refine ⟨?_, [e], rfl, hdue⟩
  rw [Desk.Open, hinbox, List.any_append, hbefore, List.any_cons, he]
  rfl

/-! ## The whole run -/

/-- What a request of a run is reported as. -/
def eventsOf : Run.Request → List Worker.Event
  | .stdout chunk => [.stdout chunk]
  | .stderr chunk => [.stderr chunk]
  | _ => []

lemma brings_serve (q : Run.Request) (caption : Caption) :
    Brings (((Worker.serve true q).run caption).interpret (serve false token)) fun _ events =>
      events = eventsOf q := by
  cases q with
  | stdout chunk =>
    exact (brings_post rfl).bind fun _ _ hbefore => brings_pure (by rw [hbefore]; rfl)
  | stderr chunk =>
    exact (brings_post rfl).bind fun _ _ hbefore => brings_pure (by rw [hbefore]; rfl)
  | readLine => exact brings_pure rfl
  | isInterrupted => exact brings_context_bind fun c => brings_pure rfl
  | clock => exact (brings_ask _).bind fun _ _ hbefore => brings_pure (by rw [hbefore]; rfl)
  | epoch =>
    have hread : Brings (serve false token .epoch) fun _ events => events = [] :=
      brings_meanwhile.bind fun _ _ hbefore => brings_context_bind fun c =>
        brings_pure (by rw [hbefore]; rfl)
    exact hread.bind fun _ _ hbefore => brings_pure (by rw [hbefore]; rfl)
  | note o => exact (brings_ask _).bind fun _ _ hbefore => brings_pure (by rw [hbefore]; rfl)

/-- **A run on a worker brings what it asked to be shown.** -/
theorem brings_run (r : Running α) (caption : Caption) :
    Brings (((r.interpret (Worker.serve true)).run caption).interpret (serve false token))
      fun p events => ∃ inner, Task.Runs r inner p.1 ∧ events = inner.flatMap (eventsOf ·.1) := by
  induction r generalizing caption with
  | done a => exact brings_pure ⟨[], .done a, rfl⟩
  | ask q next ih =>
    have hsplit := Task.interpret_bind (serve false token) ((Worker.serve true q).run caption) fun p =>
      ((next p.1).interpret (Worker.serve true)).run p.2
    rw [Task.interpret, StateT.run_bind]
    refine hsplit ▸ (brings_serve q caption).bind fun p before hbefore => ?_
    refine (ih p.1 p.2).imp ?_
    rintro p' events ⟨inner, hinner, rfl⟩
    exact ⟨⟨q, p.1⟩ :: inner, .ask p.1 hinner, by rw [hbefore, List.flatMap_cons]⟩

lemma foldl_add_eventsOf (h : Harvest) (inner : Run.Log) :
    (inner.flatMap (eventsOf ·.1)).foldl Harvest.add h =
      { h with capture := h.capture.addAll inner } := by
  induction inner generalizing h with
  | nil => rfl
  | cons e inner ih =>
    obtain ⟨q, a⟩ := e
    rw [List.flatMap_cons, List.foldl_append, ih]
    cases q <;> rfl

/-- How the end of a run is reported. -/
def endEvents (report : Report) : List Worker.Event :=
  report.error.toList.map .failed ++ [.finished report.files]

lemma interpret_send (watched : Bool) (e : Worker.Event) :
    (Worker.ask (.send e)).interpret (serve watched token) = post watched token e :=
  bind_pure _

lemma ran_conclude {report : Report} {r : Except Ending Unit} (hopen : d.Open)
    (h : Ran ((Worker.conclude report).interpret (serve false token)) d c log r d' c') :
    r ≠ .error .finished ∧ (r = .ok () →
      d'.due = (endEvents report).foldl Harvest.add d.due ∧
      ∃ before, before.any (·.isLast) = false ∧ d'.inbox = before ++ [.finished report.files]) := by
  obtain ⟨files, _ | e⟩ := report
  · rw [Worker.conclude, interpret_send] at h
    exact ran_post hopen h
  · have hboth : (Worker.conclude ⟨files, some e⟩).interpret (serve false token) =
        post false token (.failed e) >>= fun _ => post false token (.finished files) := by
      rw [← interpret_send, ← interpret_send, ← Task.interpret_bind]
      rfl
    rw [hboth] at h
    rcases ran_bind_iff.1 h with ⟨ending, rfl, hfailed⟩ | ⟨_, d₁, c₁, before, after, -, hfailed, hend⟩
    · exact ⟨(brings_post rfl hopen hfailed).1, nofun⟩
    · obtain ⟨hopen₁, _, rfl, hdue₁⟩ := (brings_post rfl hopen hfailed).2 _ rfl
      obtain ⟨hr, hpost⟩ := ran_post hopen₁ hend
      refine ⟨hr, fun hok => ?_⟩
      obtain ⟨hdue, hinbox⟩ := hpost hok
      exact ⟨by rw [hdue, hdue₁]; rfl, hinbox⟩

/-- **What comes of a captured run is what it asked to be shown, and its report.** -/
theorem ran_attendTo {run : Running Report}
    (h : Ran (attendTo false token (Worker.work true run)) .empty c log (.error .finished) d' c') :
    ∃ inner report, Task.Runs run inner report ∧
      d'.harvest = ⟨Capture.empty.addAll inner, report.error, report.files⟩ := by
  have hopen : Desk.empty.Open := rfl
  have hwork := Task.interpret_bind (serve false token)
    ((run.interpret (Worker.serve true)).run .empty) fun p => Worker.conclude p.1
  rcases ran_bind_iff.1 h with ⟨e, he, hwhole⟩ | ⟨_, d₂, c₂, _, _, -, hwhole, hattend⟩
  · obtain rfl := Except.error.inj he
    -- the end of the run is not attended to before all of it is sent
    rcases ran_bind_iff.1 (hwork ▸ hwhole) with
      ⟨e, he, hrun⟩ | ⟨p, d₁, c₁, _, _, -, hrun, hconclude⟩
    · obtain rfl := Except.error.inj he
      exact absurd rfl (brings_run run .empty hopen hrun).1
    · obtain ⟨hopen₁, -⟩ := (brings_run run .empty hopen hrun).2 p rfl
      exact absurd rfl (ran_conclude hopen₁ hconclude).1
  · rcases ran_bind_iff.1 (hwork ▸ hwhole) with
      ⟨e, he, -⟩ | ⟨p, d₁, c₁, _, _, -, hrun, hconclude⟩
    · cases he
    · obtain ⟨hopen₁, events, ⟨inner, hinner, rfl⟩, hdue₁⟩ :=
        (brings_run run .empty hopen hrun).2 p rfl
      obtain ⟨hdue₂, before, hbefore, hinbox⟩ := (ran_conclude hopen₁ hconclude).2 rfl
      obtain ⟨-, rfl⟩ := ran_attendAll_unwatched hattend
      refine ⟨inner, p.1, hinner, ?_⟩
      rw [foldl_add_eventsOf] at hdue₁
      rw [Desk.due, hinbox, hdue₁] at hdue₂
      rw [hinbox, throughLast_append hbefore, throughLast_cons_of_isLast rfl, hdue₂, endEvents]
      obtain ⟨⟨files, _ | e⟩, caption⟩ := p <;> rfl

/-- A session that succeeds has attended to the end of its run. -/
lemma ran_session {watched : Bool} {work : Working Unit} {harvest : Harvest}
    (h : SharedTask.Ran (session watched work) c log (.ok harvest) c') :
    ∃ token c₁ d₂ c₂ log', Ran (attendTo watched token work) .empty c₁ log' (.error .finished) d₂ c₂ ∧
      d₂.harvest = harvest := by
  rw [session, SharedTask.ran_get_bind_iff, SharedTask.ran_modify_bind_iff,
    SharedTask.ran_bind_iff] at h
  obtain ⟨⟨ending, d₂⟩, c₂, before, after, -, hattend, hrest⟩ := h
  rw [SharedTask.ran_modify_bind_iff] at hrest
  -- every other ending fails the session
  obtain ((_ | e) | _) := ending
  · obtain ⟨-, hok, -⟩ := SharedTask.ran_pure_iff.1 hrest
    exact ⟨_, _, d₂, c₂, before, hattend, (Except.ok.inj hok).symm⟩
  · obtain ⟨-, hok⟩ := Task.runs_done_iff.1 hrest
    cases hok
  · obtain ⟨-, hok⟩ := Task.runs_done_iff.1 hrest
    cases hok

end Background

/-! ## Both ways -/

namespace Session

variable {r : Running Report} {c c' : Context} {log : Background.Log} {run : CapturedRun}

lemma ran_foreground (h : SharedTask.Ran (Foreground.runCaptured r) c log run c') :
    ∃ inner, Task.Runs r inner run.report ∧ run.capture = Capture.empty.addAll inner := by
  obtain ⟨p, u, before, after, -, hrun, hrest⟩ := SharedTask.ran_bind_iff.1 h
  obtain ⟨-, rfl, -⟩ := SharedTask.ran_pure_iff.1 hrest
  obtain ⟨outer, houter⟩ := SharedTask.exists_runs_of_ran_interpret hrun
  exact runs_captured houter

lemma ran_background (h : SharedTask.Ran (Background.runCaptured r) c log (.ok run) c') :
    ∃ inner, Task.Runs r inner run.report ∧ run.capture = Capture.empty.addAll inner := by
  obtain ⟨result, u, before, after, -, hsession, hrest⟩ := SharedTask.ran_bind_iff.1 h
  obtain ⟨-, hok, -⟩ := SharedTask.ran_pure_iff.1 hrest
  cases result with
  | error e => cases hok
  | ok harvest =>
    obtain rfl := Except.ok.inj hok
    obtain ⟨token, c₁, d₂, c₂, log', hattend, rfl⟩ := Background.ran_session hsession
    obtain ⟨inner, report, hinner, hharvest⟩ := Background.ran_attendTo hattend
    rw [hharvest]
    exact ⟨inner, hinner, rfl⟩

/-- **A captured session keeps the text of each chunk.**  Wherever the run is, what is kept of standard
output is put together from what was written, each write decoded by itself.  So it is the text that was
written as a whole if every write is a text. -/
theorem runCaptured_decodes_chunks (h : SharedTask.Ran (runCaptured r) c log (.ok run) c') :
    ∃ inner, Task.Runs r inner run.report ∧
      run.capture.stdout = String.join ((Run.stdoutChunks inner).map Text.decodeLossy) ∧
      ∀ text, (Run.stdoutChunks inner).flatten = Text.encode text →
        (∀ chunk ∈ Run.stdoutChunks inner, ∃ s, chunk = Text.encode s) →
        run.capture.stdout = text := by
  have hkept : ∃ inner, Task.Runs r inner run.report ∧ run.capture = Capture.empty.addAll inner := by
    rw [runCaptured, SharedTask.ran_get_bind_iff] at h
    cases hbackend : c.backend with
    | prompts =>
      rw [hbackend] at h
      obtain ⟨run', u, before, after, -, hrun, hrest⟩ := SharedTask.ran_bind_iff.1 h
      obtain ⟨-, hok, -⟩ := SharedTask.ran_pure_iff.1 hrest
      obtain rfl := Except.ok.inj hok
      exact ran_foreground hrun
    | worker =>
      rw [hbackend] at h
      exact ran_background h
  obtain ⟨inner, hinner, hcapture⟩ := hkept
  have hstdout : run.capture.stdout =
      String.join ((Run.stdoutChunks inner).map Text.decodeLossy) := by
    rw [hcapture, Capture.stdout_addAll]
    exact String.empty_append
  exact ⟨inner, hinner, hstdout, fun text hall hwhole =>
    hstdout.trans (Text.join_decodeLossy hwhole hall)⟩

/-- A run that writes twice. -/
def twoWrites (first second : Bytes) : Running Report :=
  .ask (.stdout first) fun _ => .ask (.stdout second) fun _ => .done ⟨[], none⟩

/-- Surroundings that give a session its turn whenever it asks, and nothing else. -/
def calm (_ : Background.Log) : (q : Request × Context) → Answer q.1 × Context
  | (.stdout _, c) => ((), c)
  | (.stderr _, c) => ((), c)
  | (.readLine _, c) => (.ended, c)
  | (.prompt _, c) => (none, c)
  | (.hasTurn .., c) => (true, c)
  | (.clock, c) => (0, c)
  | (.note _, c) => ((), c)

lemma stdoutChunks_twoWrites {first second : Bytes} {inner : Run.Log} {report : Report}
    (h : Task.Runs (twoWrites first second) inner report) :
    Run.stdoutChunks inner = [first, second] := by
  obtain ⟨_, _, rfl, hrest⟩ := Task.runs_ask_iff.1 h
  obtain ⟨_, _, rfl, hend⟩ := Task.runs_ask_iff.1 hrest
  obtain ⟨rfl, -⟩ := Task.runs_done_iff.1 hend
  rfl

theorem runCaptured_decodes_chunks_whole :
    ∃ log run c, SharedTask.Ran (runCaptured (twoWrites (Text.encode "é") (Text.encode "!")))
      (.fresh .worker) log (.ok run) c ∧ run.capture.stdout = "é!" := by
  have hran := Task.runs_trace calm
    (runCaptured (twoWrites (Text.encode "é") (Text.encode "!")) (.fresh .worker))
  obtain ⟨inner, hinner, -, htext⟩ := runCaptured_decodes_chunks hran
  rw [stdoutChunks_twoWrites hinner] at htext
  refine ⟨_, _, _, hran, htext "é!" (by decide) fun chunk hchunk => ?_⟩
  simp only [List.mem_cons, List.not_mem_nil, or_false] at hchunk
  exact hchunk.elim (fun h => ⟨"é", h⟩) fun h => ⟨"!", h⟩

/-- A letter of two bytes, one in each write.  Neither place keeps it. -/
theorem runCaptured_loses_split_letter :
    [0xC3] ++ [0xA9] = Text.encode "é" ∧
    (∃ log run c, SharedTask.Ran (runCaptured (twoWrites [0xC3] [0xA9])) (.fresh .prompts) log
      (.ok run) c ∧ run.capture.stdout = "\uFFFD\uFFFD") ∧
    ∃ log run c, SharedTask.Ran (runCaptured (twoWrites [0xC3] [0xA9])) (.fresh .worker) log
      (.ok run) c ∧ run.capture.stdout = "\uFFFD\uFFFD" :=
  ⟨by decide, ⟨_, _, _, Task.runs_trace calm _, by decide +kernel⟩,
    ⟨_, _, _, Task.runs_trace calm _, by decide +kernel⟩⟩

end Session

end GuestShell
