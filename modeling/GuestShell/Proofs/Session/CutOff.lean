import GuestShell.Proofs.Session.Transport

/-!
# Runs on a worker that was cancelled

A worker that was cancelled takes the next run as any other worker does.  It looks at its flag only
where a program asks for a line or whether it was interrupted, so the program finds the end of input
and hears that it was interrupted (`Run.CutOff`), and everything else goes on: what it writes is
shown, and its run comes to its end.

`Passes` says that of a part of the work, and the main statement is `ran_session_cancelled`.
-/

namespace GuestShell

namespace Run

/-- An answer of a worker that was cancelled. -/
def Severed : (q : Request) → Answer q → Prop
  | .readLine, line => line = none
  | .isInterrupted, interrupted => interrupted = true
  | .stdout _, _ | .stderr _, _ | .clock, _ | .epoch, _ | .note _, _ => True

/-- The run is cut off from input, and told that it was interrupted. -/
def CutOff (log : Log) : Prop := ∀ e ∈ log, Severed e.1 e.2

end Run

namespace Background

open Session

variable {α β : Type} {watched : Bool} {token : Nat} {d d' : Desk} {c c' : Context} {log : Log}

/-! ## Parts of the work -/

/-- Some events are reported, and nothing is asked but to show what is there. -/
structure Carries (watched : Bool) (d : Desk) (events : List Worker.Event) (log : Log)
    (d' : Desk) : Prop where
  typed : typed log = []
  captions : captions log = []
  output : watched = true → output log ++ Worker.outputs d'.inbox =
    Worker.outputs d.inbox ++ Worker.outputs events
  due : d'.due = events.foldl Harvest.add d.due

lemma Carries.append {d₁ d₂ d₃ : Desk} {events events' : List Worker.Event} {log log' : Log}
    (h : Carries watched d₁ events log d₂) (h' : Carries watched d₂ events' log' d₃) :
    Carries watched d₁ (events ++ events') (log ++ log') d₃ := by
  constructor
  · rw [typed_append, h.typed, h'.typed]
    rfl
  · rw [captions_append, h.captions, h'.captions]
    rfl
  · intro hwatched
    rw [output_append, List.append_assoc, h'.output hwatched, ← List.append_assoc,
      h.output hwatched, List.append_assoc, Worker.outputs_append]
  · rw [List.foldl_append, h'.due, h.due]

/-- On a cancelled worker that nobody disturbs this part of the work comes to its end.  It leaves
the context alone, and some events are reported. -/
def Passes (watched : Bool) (token : Nat) (t : Attending α) (P : α → List Worker.Event → Prop) :
    Prop :=
  ∀ ⦃d c log r d' c'⦄, Ready token d c → c.worker.cancelled = true → Ran t d c log r d' c' →
    Quiet log → ∃ a events, r = .ok a ∧ c' = c ∧ P a events ∧ Ready token d' c ∧
      Carries watched d events log d'

variable {P : α → List Worker.Event → Prop}

lemma Passes.bind {t : Attending α} {f : α → Attending β} {Q : β → List Worker.Event → Prop}
    (h : Passes watched token t P)
    (hnext : ∀ a before, P a before →
      Passes watched token (f a) fun b after => Q b (before ++ after)) :
    Passes watched token (t >>= f) Q := by
  intro d c log r d' c' hready hcancelled hran hquiet
  rcases ran_bind_iff.1 hran with ⟨e, rfl, hfirst⟩ | ⟨a, d₁, c₁, before, after, rfl, hfirst, hrest⟩
  · obtain ⟨_, _, hok, -⟩ := h hready hcancelled hfirst hquiet
    cases hok
  · obtain ⟨hquiet₁, hquiet₂⟩ := quiet_append.1 hquiet
    obtain ⟨a, begun, ha, rfl, hP, hready₁, hcarries⟩ := h hready hcancelled hfirst hquiet₁
    obtain rfl := Except.ok.inj ha
    obtain ⟨b, events, rfl, rfl, hQ, hready', hcarries'⟩ :=
      hnext _ begun hP hready₁ hcancelled hrest hquiet₂
    exact ⟨b, begun ++ events, rfl, rfl, hQ, hready', hcarries.append hcarries'⟩

lemma Passes.imp {t : Attending α} {Q : α → List Worker.Event → Prop} (h : Passes watched token t P)
    (hPQ : ∀ a events, P a events → Q a events) : Passes watched token t Q := by
  intro d c log r d' c' hready hcancelled hran hquiet
  obtain ⟨a, events, rfl, rfl, hP, hrest⟩ := h hready hcancelled hran hquiet
  exact ⟨a, events, rfl, rfl, hPQ a events hP, hrest⟩

lemma passes_pure {a : α} (h : P a []) : Passes watched token (pure a) P := by
  intro d c log r d' c' hready _ hran _
  obtain ⟨rfl, rfl, rfl, rfl⟩ := ran_pure_iff.1 hran
  exact ⟨a, [], rfl, rfl, h, hready, rfl, rfl, fun _ => (List.append_nil _).symm, rfl⟩

lemma passes_context_bind {f : Context → Attending α}
    (h : ∀ c, c.worker.cancelled = true → Passes watched token (f c) P) :
    Passes watched token (context >>= f) P :=
  fun _ c _ _ _ _ hready hcancelled hran => h c hcancelled hready hcancelled hran

/-- A look at the clock, or a note, shows nothing. -/
lemma passes_ask {q : Session.Request} (h : q = .clock ∨ ∃ o, q = .note o) :
    Passes watched token (ask q) fun _ events => events = [] := by
  intro d c log r d' c' hready _ hran hquiet
  obtain ⟨a, rfl, rfl, rfl⟩ := ran_ask_iff.1 hran
  obtain rfl : c' = c := hquiet.untouched _ List.mem_cons_self
  refine ⟨a, [], rfl, rfl, rfl, hready, ?_⟩
  rcases h with rfl | ⟨o, rfl⟩ <;> exact ⟨rfl, rfl, fun _ => (List.append_nil _).symm, rfl⟩

lemma passes_meanwhile :
    Passes watched token (meanwhile watched token) fun _ events => events = [] := by
  intro d c log r d' c' hready _ hran hquiet
  obtain ⟨rfl, rfl, hdue, shown, hinbox, hshows⟩ := shows_meanwhile hready hran hquiet
  refine ⟨(), [], rfl, rfl, rfl, ⟨fun e he => ?_, hready.notHit⟩, hshows.typed, hshows.captions,
    fun hwatched => ?_, hdue⟩
  · exact hready.canWait e (hinbox ▸ List.mem_append_right _ he)
  · rw [hshows.output hwatched, hinbox, Worker.outputs_append]
    exact (List.append_nil _).symm

lemma passes_post {e : Worker.Event} (he : e.canWait = true) :
    Passes watched token (post watched token e) fun _ events => events = [e] := by
  intro d c log r d' c' hready _ hran hquiet
  obtain ⟨rfl, rfl, shown, left, hinbox, hleft, hdue, hshows⟩ := shows_post hready hran hquiet
  refine ⟨(), [e], rfl, rfl, rfl, ⟨?_, hready.notHit⟩, hshows.typed, hshows.captions,
    fun hwatched => ?_, ?_⟩
  · rw [hleft, List.forall_mem_append, List.forall_mem_singleton]
    exact ⟨fun e he => hready.canWait e (hinbox ▸ List.mem_append_right _ he), he⟩
  · rw [hshows.output hwatched, hleft, hinbox, Worker.outputs_append, Worker.outputs_append,
      List.append_assoc]
  · rw [Desk.due, hleft, List.foldl_append, hdue]

/-! ## The whole run -/

lemma passes_serve (q : Run.Request) (caption : Caption) :
    Passes watched token (((Worker.serve (!watched) q).run caption).interpret (serve watched token))
      fun p events => Run.Severed q p.1 ∧ events = eventsOf q := by
  cases q with
  | stdout chunk =>
    exact (passes_post rfl).bind fun _ _ hbefore => passes_pure ⟨trivial, by rw [hbefore]; rfl⟩
  | stderr chunk =>
    exact (passes_post rfl).bind fun _ _ hbefore => passes_pure ⟨trivial, by rw [hbefore]; rfl⟩
  | readLine =>
    cases watched with
    | false => exact passes_pure ⟨rfl, rfl⟩
    | true =>
      refine passes_context_bind fun c hcancelled => ?_
      rw [hcancelled]
      exact passes_pure ⟨rfl, rfl⟩
  | isInterrupted =>
    exact passes_context_bind fun c hcancelled => passes_pure ⟨hcancelled, rfl⟩
  | clock =>
    exact (passes_ask (.inl rfl)).bind fun _ _ hbefore =>
      passes_pure ⟨trivial, by rw [hbefore]; rfl⟩
  | epoch =>
    have hread : Passes watched token (serve watched token .epoch) fun _ events => events = [] :=
      passes_meanwhile.bind fun _ _ hbefore => passes_context_bind fun c _ =>
        passes_pure (by rw [hbefore]; rfl)
    exact hread.bind fun _ _ hbefore => passes_pure ⟨trivial, by rw [hbefore]; rfl⟩
  | note o =>
    exact (passes_ask (.inr ⟨o, rfl⟩)).bind fun _ _ hbefore =>
      passes_pure ⟨trivial, by rw [hbefore]; rfl⟩

/-- **A run on a cancelled worker comes to its end**, cut off from input. -/
theorem passes_run (r : Running α) (caption : Caption) :
    Passes watched token
      (((r.interpret (Worker.serve (!watched))).run caption).interpret (serve watched token))
      fun p events => ∃ inner, Task.Runs r inner p.1 ∧ Run.CutOff inner ∧
        events = Run.output inner := by
  induction r generalizing caption with
  | done a => exact passes_pure ⟨[], .done a, List.forall_mem_nil _, rfl⟩
  | ask q next ih =>
    have hsplit := Task.interpret_bind (serve watched token)
      ((Worker.serve (!watched) q).run caption) fun p =>
        ((next p.1).interpret (Worker.serve (!watched))).run p.2
    rw [Task.interpret, StateT.run_bind]
    refine hsplit ▸ (passes_serve q caption).bind fun p before hbefore => (ih p.1 p.2).imp ?_
    rintro p' events ⟨inner, hinner, hcut, rfl⟩
    obtain ⟨hsevered, rfl⟩ := hbefore
    exact ⟨⟨q, p.1⟩ :: inner, .ask p.1 hinner, List.forall_mem_cons.2 ⟨hsevered, hcut⟩, rfl⟩

lemma passes_fail (report : Report) :
    Passes watched token ((Worker.fail report).interpret (serve watched token)) fun _ events =>
      events = report.error.toList.map .failed := by
  rw [Worker.fail]
  cases report.error with
  | none => exact passes_pure rfl
  | some e => exact interpret_send watched (.failed e) ▸ passes_post rfl

lemma passes_allButLast (r : Running α) (f : α → Report) :
    Passes watched token ((Worker.allButLast (!watched) r f).interpret (serve watched token))
      fun a events => ∃ inner, Task.Runs r inner a ∧ Run.CutOff inner ∧
        events = Run.events true .empty inner ++ (f a).error.toList.map .failed := by
  rw [Worker.allButLast, Task.interpret_bind]
  refine (passes_run r .empty).bind fun p before hbefore => ?_
  obtain ⟨inner, hinner, hcut, rfl⟩ := hbefore
  rw [Task.interpret_bind]
  refine (passes_fail (f p.1)).bind fun _ failure hfailure => ?_
  subst hfailure
  exact passes_pure ⟨inner, hinner, hcut, by rw [Worker.events_headless, List.append_nil]⟩

/-! ## Sessions -/

/-- **A session on a cancelled worker takes its run to the end.**  The line editor is not asked, and
what the program writes is shown. -/
theorem ran_session_cancelled {job : Running Report} {result : Except SessionError Harvest}
    (hcancelled : c.worker.cancelled = true)
    (h : SharedTask.Ran (session watched (Worker.work (!watched) job)) c log result c')
    (hquiet : Quiet log) :
    ∃ inner report, result = .ok (.ofRun inner report) ∧ Task.Runs job inner report ∧
      Run.CutOff inner ∧ typed log = [] ∧ captions log = [] ∧
      (watched = true → output log = Run.output inner) := by
  have hjob : (job.bind fun report => return id report) = job := Task.bind_pure job
  rw [← hjob, session_bind] at h
  obtain ⟨p, rfl, hran⟩ := SharedTask.ran_map_iff.1 h
  have hready := ready_install c
  obtain ⟨report, d₁, c₁, first, last, rfl, hquiet₁, hmost, hshows, rfl⟩ :=
    ran_observe (fun _ _ _ _ hmost hquiet => by
      obtain ⟨a, _, rfl, rfl, -, hready', -⟩ :=
        passes_allButLast job id hready hcancelled hmost hquiet
      exact ⟨a, rfl, hready'⟩) hran hquiet
  obtain ⟨a, events, heq, -, ⟨inner, hinner, hcut, rfl⟩, -, hcarries⟩ :=
    passes_allButLast job id hready hcancelled hmost hquiet₁
  obtain rfl := Except.ok.inj heq
  refine ⟨inner, report, congrArg Except.ok (due_add_finished true .empty hcarries.due), hinner,
    hcut, ?_, ?_, fun hwatched => ?_⟩
  · rw [typed_append, hcarries.typed, hshows.typed]
    rfl
  · rw [captions_append, hcarries.captions, hshows.captions]
    rfl
  · have hfailure : Worker.outputs ((id report).error.toList.map .failed) = [] := by
      cases (id report).error <;> rfl
    rw [output_append, hshows.output hwatched, hcarries.output hwatched, Worker.outputs_append,
      Worker.outputs_events, hfailure, List.append_nil]
    rfl

end Background

end GuestShell
