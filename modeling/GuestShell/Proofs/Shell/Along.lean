import GuestShell.Shell.Crowd
import GuestShell.Proofs.Session.Parts

/-!
# The slots along a line

Where a line asks for something, others have the shell.  `Along` tells what holds at each of these
places and at the end, as long as nobody else touches the slots; `Left` is what may be left of a task
there.

Most parts of a line leave the slots alone (`Gentle`).  The slot for sessions is taken while a stage is
run as a program (`InProgram`) and at no other time, so no session is refused
(`proceeds_runStages`).  A line that finds both slots vacant has the slot for lines all along and leaves
both vacant again (`along_runLine`).
-/

namespace GuestShell.Shell

variable {κ ρ α β : Type} {s : Shell κ}

/-- The slots of a shell. -/
def slots (s : Shell κ) : Slot × Slot := (s.line, s.session)

/-! ## Whatever is answered -/

/-- What may be left of a task after some answers, if nobody else touches the slots. -/
inductive Left : Activity κ ρ α → Activity κ ρ α → Prop
  | whole (t : Activity κ ρ α) : Left t t
  | answered {t : Activity κ ρ α} {o : Request κ ρ × Shell κ}
    {next : Answer o.1 × Shell κ → Activity κ ρ α} (before : Left t (.ask o next))
    (a : Answer o.1 × Shell κ) (kept : slots a.2 = slots o.2) : Left t (next a)

/-- As long as nobody else touches the slots: wherever the task asks, `N` holds of the shell and of
what is left of the task, and where it ends `Q` holds of its value and the shell. -/
def Along (N : Shell κ → Activity κ ρ α → Prop) (Q : α → Shell κ → Prop) : Activity κ ρ α → Prop
  | .done r => Q r.1 r.2
  | .ask o next => N o.2 (.ask o next) ∧ ∀ a, slots a.2 = slots o.2 → Along N Q (next a)

section

variable {N N' : Shell κ → Activity κ ρ α → Prop} {Q Q' : α → Shell κ → Prop} {t : Activity κ ρ α}

lemma Along.imp (h : Along N Q t)
    (hN : ∀ o next, N o.2 (.ask o next) → N' o.2 (.ask o next))
    (hQ : ∀ a s, Q a s → Q' a s) : Along N' Q' t := by
  induction t with
  | done r => exact hQ _ _ h
  | ask o next ih => exact ⟨hN _ _ h.1, fun a ha => ih a (h.2 a ha)⟩

lemma Along.bind {M : Shell κ → Activity κ ρ β → Prop} {R : β → Shell κ → Prop}
    {f : α × Shell κ → Activity κ ρ β} (h : Along N Q t)
    (hN : ∀ o next, N o.2 (.ask o next) → M o.2 ((Task.ask o next).bind f))
    (hf : ∀ a s, Q a s → Along M R (f (a, s))) : Along M R (t.bind f) := by
  induction t with
  | done r => exact hf _ _ h
  | ask o next ih => exact ⟨hN _ _ h.1, fun a ha => ih a (h.2 a ha)⟩

lemma Along.of_left {u : Activity κ ρ α} (h : Along N Q t) (hleft : Left t u) : Along N Q u := by
  induction hleft with
  | whole => exact h
  | answered _ a kept ih => exact ih.2 a kept

/-- What is left of a task is left of the whole task. -/
lemma Along.with_left {whole : Activity κ ρ α} (h : Along N Q t) (hleft : Left whole t) :
    Along (fun s u => N s u ∧ Left whole u)
      (fun a s => Q a s ∧ Left whole (.done (a, s))) t := by
  induction t with
  | done r => exact ⟨h, hleft⟩
  | ask o next ih =>
    exact ⟨⟨h.1, hleft⟩, fun a ha => ih a (h.2 a ha) (hleft.answered a ha)⟩

end

/-! ## Parts that leave the slots alone -/

/-- The part leaves the slots alone, and `Q` holds of what it comes to. -/
def Gentle (Q : α → Prop) (t : Dispatching κ ρ α) : Prop :=
  ∀ s, Along (fun u _ => slots u = slots s) (fun a u => slots u = slots s ∧ Q a) (t s)

section

variable {P : β → Prop} {Q : α → Prop}

lemma gentle_pure {a : α} (h : Q a) : Gentle Q (pure a : Dispatching κ ρ α) := fun _ => ⟨rfl, h⟩

lemma gentle_ask (q : Request κ ρ) : Gentle (fun _ => True) (ask q) :=
  fun _ => ⟨rfl, fun _ kept => ⟨kept, trivial⟩⟩

lemma gentle_get : Gentle (fun _ => True) (get : Dispatching κ ρ (Shell κ)) :=
  fun _ => ⟨rfl, trivial⟩

lemma gentle_modify {g : Shell κ → Shell κ} (h : ∀ s, slots (g s) = slots s) :
    Gentle (fun _ => True) (modify g : Dispatching κ ρ Unit) :=
  fun s => ⟨h s, trivial⟩

lemma Gentle.bind {t : Dispatching κ ρ β} {f : β → Dispatching κ ρ α} (h : Gentle P t)
    (hf : ∀ b, P b → Gentle Q (f b)) : Gentle Q (t >>= f) := by
  intro s
  refine (h s).bind (fun _ _ hu => hu) fun b u hb => ?_
  rw [← hb.1]
  exact hf b hb.2 u

/-- A task whose every request is answered by such a part. -/
lemma gentle_interpret {ω : Type} {ans : ω → Type} {answer : (o : ω) → Dispatching κ ρ (ans o)}
    (h : ∀ o, Gentle (fun _ => True) (answer o)) {t : Task ω ans α} (ht : t.Always Q) :
    Gentle Q (t.interpret answer) := by
  induction t with
  | done a => exact gentle_pure ht
  | ask o next ih => exact (h o).bind fun a _ => ih a (ht a)

/-- Looking something up. -/
lemma gentle_look (l : Catalog.Lookup α) :
    Gentle (fun _ => True) (look l : Dispatching κ ρ (Except ResolveError α)) := by
  refine gentle_interpret (fun q => ?_) (Task.always_of_forall (fun _ => trivial) _)
  cases q with
  | get url | post url body => exact gentle_ask _
  | cached name => exact gentle_get.bind fun _ _ => gentle_pure trivial
  | keep name e => exact gentle_modify fun _ => rfl

/-- Whatever goes on in the context of the shell. -/
lemma gentle_inContext {t : Sitting α} (h : ∀ c, (t c).Always fun r => Q r.1) :
    Gentle Q (inContext t : Dispatching κ ρ α) := by
  have hview : Gentle (fun _ => True) (do return (← get).context : Dispatching κ ρ Context) :=
    gentle_get.bind fun _ _ => gentle_pure trivial
  have hput (c : Context) : Gentle (fun _ => True)
      (modify fun s => { s with context := c } : Dispatching κ ρ Unit) := gentle_modify fun _ => rfl
  have hserve (q : Session.Request) :
      Gentle (fun _ => True) (serveSession q : Dispatching κ ρ (Session.Answer q)) := by
    cases q <;> exact gentle_ask _
  refine hview.bind fun c _ => (gentle_interpret (fun q => ?_) (h c)).bind fun r hr => ?_
  · exact (hput _).bind fun _ _ => (hserve _).bind fun _ _ =>
      hview.bind fun _ _ => gentle_pure trivial
  · exact (hput _).bind fun _ _ => gentle_pure hr

end

/-! ## Parts that may stop the line -/

/-- It is not that a session was refused. -/
def Unrefused (r : Except DispatchError α) : Prop := r ≠ .error (.session .alreadyRunning)

lemma gentle_unstopped {P : α → Prop} {t : Dispatching κ ρ α} (h : Gentle P t) :
    Gentle Unrefused (unstopped t).run :=
  h.bind fun _ _ => gentle_pure nofun

lemma gentle_throw {e : DispatchError} (h : e ≠ .session .alreadyRunning) :
    Gentle Unrefused (throw e : Stopping κ ρ α).run :=
  gentle_pure fun he => h (Except.error.inj he)

lemma gentle_run_bind {t : Stopping κ ρ β} {f : β → Stopping κ ρ α} (h : Gentle Unrefused t.run)
    (hf : ∀ b, Gentle Unrefused (f b).run) : Gentle Unrefused (t >>= f).run := by
  refine h.bind fun r hr => ?_
  cases r with
  | error e => exact gentle_pure fun he => hr (congrArg _ (Except.error.inj he))
  | ok b => exact hf b

lemma run_stopping {ε : Type} (wrap : ε → DispatchError) (t : Dispatching κ ρ (Except ε α)) :
    (stopping wrap t).run = t >>= fun r => pure (r.mapError wrap) := by
  rw [stopping, unstopped, ExceptT.run_bind_lift]
  refine bind_congr fun r => ?_
  cases r <;> rfl

lemma gentle_stopping {ε : Type} {wrap : ε → DispatchError} {t : Dispatching κ ρ (Except ε α)}
    (h : Gentle (fun r => ∀ e, r = .error e → wrap e ≠ .session .alreadyRunning) t) :
    Gentle Unrefused (stopping wrap t).run := by
  rw [run_stopping]
  refine h.bind fun r hr => gentle_pure ?_
  cases r with
  | error e => exact fun he => hr e rfl (Except.error.inj he)
  | ok a => exact nofun

/-! ## Programs -/

lemma gentle_load (name : String) : Gentle Unrefused (load name : Stopping κ ρ CatalogEntry).run := by
  refine gentle_run_bind (gentle_unstopped (gentle_ask _)) fun _ => ?_
  refine gentle_run_bind (gentle_unstopped (gentle_get.bind fun _ _ => gentle_look _)) fun found => ?_
  refine gentle_run_bind (gentle_unstopped (gentle_ask _)) fun _ => ?_
  cases found with
  | error e => exact gentle_throw nofun
  | ok e => exact gentle_pure nofun

lemma gentle_setFiles (files : List SavedFile) :
    Gentle (fun _ => True) (setFiles files : Dispatching κ ρ Unit) :=
  (gentle_modify fun _ => rfl).bind fun _ _ => gentle_ask _

/-- Looking a program up, running it and doing something with what it left behind. -/
lemma gentle_program {stage : Stage} {input : Option String}
    {how : Running Report → Sitting (Except SessionError β)} {k : β → Stopping κ ρ α}
    (hhow : ∀ {job c log e c'}, SharedTask.Ran (how job) c log (.error e) c' →
      e = .interrupted ∨ ∃ reason, e = .worker reason) (hk : ∀ b, Gentle Unrefused (k b).run) :
    Gentle Unrefused (do
      let e ← load stage.program
      let r ← running stage input e
      let b ← stopping .session (inContext (how r))
      k b : Stopping κ ρ α).run := by
  refine gentle_run_bind (gentle_load _) fun entry => ?_
  refine gentle_run_bind (gentle_get.bind fun _ _ => gentle_pure nofun) fun job => ?_
  refine gentle_run_bind (gentle_stopping (gentle_inContext fun c => ?_)) hk
  refine Task.always_iff_runs.2 fun log r hruns e hr => ?_
  obtain ⟨r, c'⟩ := r
  obtain rfl : r = .error e := hr
  rcases hhow hruns with rfl | ⟨reason, rfl⟩ <;> exact nofun

lemma run_getThe_bind (f : Shell κ → Stopping κ ρ α) (s : Shell κ) :
    (getThe (Shell κ) >>= f).run s = (f s).run s :=
  rfl

/-- Doing something while the session is open takes the slot for sessions meanwhile. -/
lemma along_inSession {t : Stopping κ ρ α} (ht : Gentle Unrefused t.run)
    (hs : s.session = .vacant) : Along (fun u _ => slots u = (s.line, ⟨true⟩))
      (fun r u => slots u = (s.line, .vacant) ∧ Unrefused r) ((inSession t).run s) := by
  have hacquire : s.session.acquire = .ok ⟨true⟩ := by rw [hs]; rfl
  -- the slot is given back whether `t` fails or not
  have hopen : (inSession t).run s = (t.run { s with session := ⟨true⟩ }).bind fun r =>
      .done (r.1, { r.2 with session := .vacant }) := by
    rw [inSession, run_getThe_bind, hacquire]
    have hclose : (do
        let result ← unstopped t.run
        modifyThe (Shell κ) fun s => { s with session := s.session.release }
        ExceptT.mk (return result) : Stopping κ ρ α).run = t.run >>= fun r s =>
          .done (r, { s with session := .vacant }) := by
      rw [unstopped, ExceptT.run_bind_lift]
      rfl
    exact congrFun hclose _
  rw [hopen]
  refine (ht _).bind (fun _ _ hu => hu) fun r u hr => ⟨?_, hr.2⟩
  exact congrArg (fun p => (p.1, Slot.vacant)) hr.1

/-- A stage of these, of which no command is registered, is run as a program, and then something
follows. -/
inductive InProgram (stages : List Stage) : Activity κ ρ α → Prop
  | attached {stage : Stage} {input : Option String} {s : Shell κ} {o : Request κ ρ × Shell κ}
    {next : Answer o.1 × Shell κ → Activity κ ρ (Except DispatchError Unit)}
    (mem : stage ∈ stages) (unregistered : s.registry.find? stage.program = none)
    (left : Left ((runAttached stage input).run s) (.ask o next))
    (follows : Except DispatchError Unit × Shell κ → Activity κ ρ α) :
    InProgram stages ((Task.ask o next).bind follows)
  | detached {stage : Stage} {input : Option String} {s : Shell κ} {o : Request κ ρ × Shell κ}
    {next : Answer o.1 × Shell κ → Activity κ ρ (Except DispatchError String)}
    (mem : stage ∈ stages) (unregistered : s.registry.find? stage.program = none)
    (left : Left ((runDetached stage input).run s) (.ask o next))
    (follows : Except DispatchError String × Shell κ → Activity κ ρ α) :
    InProgram stages ((Task.ask o next).bind follows)

lemma InProgram.bind {stages : List Stage} {t : Activity κ ρ α} (h : InProgram stages t)
    (f : α × Shell κ → Activity κ ρ β) : InProgram stages (t.bind f) := by
  cases h with
  | attached mem unregistered left follows =>
    rw [Task.bind_assoc]
    exact .attached mem unregistered left _
  | detached mem unregistered left follows =>
    rw [Task.bind_assoc]
    exact .detached mem unregistered left _

/-! ## Stages -/

/-- The slots of a shell with a line that is not in a session. -/
def atWork : Slot × Slot := (⟨true⟩, .vacant)

/-- While the line is at work its slot is taken, and the slot for sessions only while a program is
run. -/
structure AtStage (stages : List Stage) (s : Shell κ) (t : Activity κ ρ α) : Prop where
  line : s.line = ⟨true⟩
  session : s.session.taken = true → InProgram stages t

/-- The line goes on from stage to stage, and no session is refused. -/
abbrev Proceeds (stages : List Stage) (t : Activity κ ρ (Except DispatchError α)) : Prop :=
  Along (AtStage stages) (fun r u => slots u = atWork ∧ Unrefused r) t

section

variable {stages : List Stage}

lemma AtStage.bind {t : Activity κ ρ α} (h : AtStage stages s t) (f : α × Shell κ → Activity κ ρ β) :
    AtStage stages s (t.bind f) :=
  ⟨h.line, fun hs => (h.session hs).bind f⟩

lemma proceeds_of_gentle {t : Stopping κ ρ α} (h : Gentle Unrefused t.run)
    (hs : slots s = atWork) : Proceeds stages (t.run s) := by
  refine (h s).imp (fun o next hu => ?_) fun r u hr => ⟨hr.1.trans hs, hr.2⟩
  obtain ⟨hline, hsession⟩ := Prod.mk.inj (hu.trans hs)
  refine ⟨hline, fun htaken => ?_⟩
  rw [hsession] at htaken
  cases htaken

lemma proceeds_bind {t : Stopping κ ρ β} {f : β → Stopping κ ρ α} (h : Proceeds stages (t.run s))
    (hf : ∀ b u, slots u = atWork → Proceeds stages ((f b).run u)) :
    Proceeds stages ((t >>= f).run s) := by
  refine h.bind (fun _ _ hu => hu.bind _) fun r u hr => ?_
  cases r with
  -- the error of the first part is the error of both
  | error e => exact ⟨hr.1, fun he => hr.2 (congrArg _ (Except.error.inj he))⟩
  | ok b => exact hf b u hr.1

/-- Whoever finds a program run where the session is open. -/
lemma proceeds_inSession {t : Stopping κ ρ α} (h : Gentle Unrefused t.run) (hs : slots s = atWork)
    (hprogram : ∀ o next, Left ((inSession t).run s) (.ask o next) →
      InProgram stages (.ask o next : Activity κ ρ (Except DispatchError α))) :
    Proceeds stages ((inSession t).run s) := by
  obtain ⟨hline, hsession⟩ := Prod.mk.inj hs
  refine ((along_inSession h hsession).with_left (.whole _)).imp (fun o next hu => ?_) fun r u hr =>
    ⟨hr.1.1.trans (congrArg (·, _) hline), hr.1.2⟩
  exact ⟨(Prod.mk.inj hu.1).1.trans hline, fun _ => hprogram o next hu.2⟩

lemma proceeds_runAttached {stage : Stage} (input : Option String) (mem : stage ∈ stages)
    (unregistered : s.registry.find? stage.program = none) (hs : slots s = atWork) :
    Proceeds stages ((runAttached stage input).run s : Activity κ ρ (Except DispatchError Unit)) := by
  refine proceeds_inSession (gentle_program Session.failure_of_ran_run fun report => ?_) hs
    fun o next hleft => ?_
  · refine gentle_run_bind (gentle_unstopped (gentle_setFiles _)) fun _ => ?_
    cases report.error with
    | some e => exact gentle_throw nofun
    | none => exact gentle_pure nofun
  · have hprogram := InProgram.attached mem unregistered hleft .done
    rwa [Task.bind_pure] at hprogram

lemma proceeds_runDetached {stage : Stage} (input : Option String) (mem : stage ∈ stages)
    (unregistered : s.registry.find? stage.program = none) (hs : slots s = atWork) :
    Proceeds stages
      ((runDetached stage input).run s : Activity κ ρ (Except DispatchError String)) := by
  refine proceeds_inSession (gentle_program Session.failure_of_ran_runCaptured fun output => ?_) hs
    fun o next hleft => ?_
  · refine gentle_run_bind (gentle_unstopped (gentle_setFiles _)) fun _ => ?_
    cases output.report.error with
    | some e => exact gentle_run_bind (gentle_unstopped (gentle_ask _)) fun _ => gentle_pure nofun
    | none => exact gentle_pure nofun
  · have hprogram := InProgram.detached mem unregistered hleft .done
    rwa [Task.bind_pure] at hprogram

lemma gentle_collect (output : CommandOutput ρ) :
    Gentle (fun _ => True) (collect output : Dispatching κ ρ (Except CommandError String)) := by
  cases output with
  | text s => exact gentle_pure trivial
  | future later => exact gentle_ask _
  | stream later => exact (gentle_ask _).bind fun _ _ => gentle_pure trivial

lemma gentle_call (c : κ) (args : List String) (input : Option String) :
    Gentle Unrefused (call c args input : Stopping κ ρ String).run := by
  have hcommand {γ : Type} {t : Dispatching κ ρ (Except CommandError γ)}
      (h : Gentle (fun _ => True) t) : Gentle Unrefused (stopping .command t).run := by
    refine gentle_stopping fun s => (h s).imp (fun _ _ hu => hu) fun r u hr => ⟨hr.1, ?_⟩
    exact fun e _ => nofun
  exact gentle_run_bind (hcommand (gentle_ask _)) fun output => hcommand (gentle_collect output)

/-- **The stages of a line proceed one after the other**, and no session is refused. -/
theorem proceeds_runStages {rest : List Stage} {input : Option String} (hrest : rest ⊆ stages)
    (hs : slots s = atWork) :
    Proceeds stages ((runStages rest input).run s : Activity κ ρ (Except DispatchError Unit)) := by
  induction rest generalizing input s with
  | nil => exact ⟨hs, nofun⟩
  | cons stage rest ih =>
    obtain ⟨hstage, hrest⟩ := List.cons_subset.1 hrest
    rw [runStages, run_getThe_bind]
    cases hfind : s.registry.find? stage.program with
    | some c =>
      refine proceeds_bind (proceeds_of_gentle (gentle_call _ _ _) hs) fun output u hu => ?_
      cases rest with
      | nil => exact proceeds_of_gentle (gentle_unstopped (gentle_ask _)) hu
      | cons next rest => exact ih hrest hu
    | none =>
      cases rest with
      | nil => exact proceeds_runAttached input hstage hfind hs
      | cons next rest =>
        exact proceeds_bind (proceeds_runDetached input hstage hfind hs) fun output u hu =>
          ih hrest hu

/-- **So does the whole line.** -/
theorem proceeds_runPipeline {p : Pipeline} (hs : slots s = atWork) :
    Proceeds p.stages ((runPipeline p).run s : Activity κ ρ (Except DispatchError Unit)) := by
  have hwarn (ws : List LineWarning) : Gentle (fun _ => True)
      (ws.forM fun w => writeError (warningLine w) : Dispatching κ ρ PUnit) := by
    induction ws with
    | nil => exact gentle_pure trivial
    | cons w ws ih => exact (gentle_ask _).bind fun _ _ => ih
  exact proceeds_bind (proceeds_of_gentle (gentle_unstopped (hwarn _)) hs) fun _ u hu =>
    proceeds_runStages (List.Subset.refl _) hu

end

/-! ## Lines -/

/-- What follows the pipeline of a line: an error is reported, and the slot is given back. -/
def conclude (r : Except DispatchError Unit) : Dispatching κ ρ Unit := do
  match r with
  | .ok _ => pure ()
  | .error e => if !e.isInterrupt then report e
  modify fun s => { s with line := s.line.release }

/-- The pipeline of a line is at work, or its error is reported.  It never comes to the refusal of a
session. -/
def Underway (line : String) (t : Activity κ ρ Unit) : Prop :=
  ∃ s p, Left ((runPipeline (.ofLine line)).run s) p ∧ t = p.bind (fun r => conclude r.1 r.2) ∧
    ∀ u, ¬Left p (.done (.error (.session .alreadyRunning), u))

/-- The line with this text has the slot for lines. -/
structure InLine (text : String) (s : Shell κ) (t : Activity κ ρ Unit) : Prop
    extends AtStage (Pipeline.ofLine text).stages s t where
  underway : Underway text t

/-- A line that finds its slot taken is refused and changes nothing. -/
lemma runLine_of_taken (line : String) (hs : s.line.taken = true) :
    (runLine line s : Activity κ ρ Unit) = report (.session .alreadyRunning) s := by
  have hacquire : s.line.acquire = .error .alreadyRunning := if_pos hs
  have hget (f : Shell κ → Dispatching κ ρ Unit) : (get >>= f) s = f s s := rfl
  rw [runLine, hget, hacquire]

lemma runLine_of_vacant (line : String) (hs : s.line = .vacant) :
    (runLine line s : Activity κ ρ Unit) =
      ((runPipeline (.ofLine line)).run { s with line := ⟨true⟩ }).bind
        fun r => conclude r.1 r.2 := by
  have hacquire : s.line.acquire = .ok ⟨true⟩ := by rw [hs]; rfl
  have hget (f : Shell κ → Dispatching κ ρ Unit) : (get >>= f) s = f s s := rfl
  rw [runLine, hget, hacquire]
  rfl

lemma slots_release (hs : slots s = atWork) :
    slots { s with line := s.line.release } = (.vacant, .vacant) :=
  congrArg (Prod.mk _) (Prod.mk.inj hs).2

/-- What follows the pipeline of a line has the slot for lines, and gives it back. -/
lemma along_conclude {text : String} {r : Except DispatchError Unit} (hs : slots s = atWork)
    (hunderway : Underway text (conclude r s : Activity κ ρ Unit)) :
    Along (InLine text) (fun _ u => slots u = (.vacant, .vacant))
      (conclude r s : Activity κ ρ Unit) := by
  cases r with
  | ok a => exact slots_release hs
  | error e =>
    cases he : e.isInterrupt with
    | true =>
      have hconclude : (conclude (.error e) s : Activity κ ρ Unit) =
          .done ((), { s with line := s.line.release }) := by
        rw [conclude, he]
        rfl
      rw [hconclude]
      exact slots_release hs
    | false =>
      have hconclude : (conclude (.error e) s : Activity κ ρ Unit) =
          (report e s).bind fun r => .done ((), { r.2 with line := r.2.line.release }) := by
        rw [conclude, he]
        rfl
      rw [hconclude] at hunderway ⊢
      obtain ⟨hline, hsession⟩ := Prod.mk.inj hs
      refine ⟨⟨⟨hline, fun htaken => ?_⟩, hunderway⟩, fun a ha => slots_release (ha.trans hs)⟩
      rw [hsession] at htaken
      cases htaken

/-- **A line that finds both slots vacant** has the slot for lines up to its end, and then both are
vacant again. -/
theorem along_runLine (line : String) (hs : slots s = (.vacant, .vacant)) :
    Along (InLine line) (fun _ u => slots u = (.vacant, .vacant))
      (runLine line s : Activity κ ρ Unit) := by
  obtain ⟨hline, hsession⟩ := Prod.mk.inj hs
  have hproceeds : Proceeds (Pipeline.ofLine line).stages
      ((runPipeline (.ofLine line)).run { s with line := ⟨true⟩ } : Activity κ ρ _) :=
    proceeds_runPipeline (congrArg (Prod.mk _) hsession)
  have hunderway {p : Activity κ ρ (Except DispatchError Unit)}
      (hleft : Left ((runPipeline (.ofLine line)).run { s with line := ⟨true⟩ }) p) :
      Underway line (p.bind fun r => conclude r.1 r.2) :=
    ⟨_, p, hleft, rfl, fun u hrefused => ((hproceeds.of_left hleft).of_left hrefused).2 rfl⟩
  rw [runLine_of_vacant line hline]
  refine (hproceeds.with_left (.whole _)).bind (fun o next hu => ?_) fun r u hr => ?_
  · exact ⟨hu.1.bind _, hunderway hu.2⟩
  · exact along_conclude hr.1.1 (hunderway hr.2)

end GuestShell.Shell
