import GuestShell.Proofs.Run.Strategy
import GuestShell.Proofs.Session.Prompts
import GuestShell.Proofs.Session.Transport

/-!
# A run without lines is the same everywhere

A program that gets no lines, as nobody watches it or as its input was known beforehand, only sees
the clock of its surroundings.  So its course is decided on by what the clock shows
(`same_silent_course`), and it does not matter who has it run: the same is captured in the foreground
and on a worker, and where somebody watches the same is shown.

The main statement is `runs_alike`.
-/

namespace GuestShell

open Background Session

namespace Strategy

variable {β : Type} {abi : Abi} {glue : Glue} {i : Invocation} {clock : ℕ → Moment}

/-! ## Runs that get no lines -/

/-- A run of the strategy that nobody disturbs and that gets no lines. -/
structure SilentCourse (g : Strategy β) (abi : Abi) (glue : Glue) (i : Invocation)
    (clock : ℕ → Moment) (log : Run.Log) (r : β × List SavedFile) : Prop where
  runs : Task.Runs (g.hosted abi glue i) log r
  undisturbed : ∃ epoch clocks, Follows clock clocks ∧ Run.Undisturbed epoch clocks log
  silent : Run.Silent log

section

variable {g : Strategy β} {log log₁ log₂ : Run.Log} {r r₁ r₂ : β × List SavedFile}

lemma SilentCourse.given (h : g.SilentCourse abi glue i clock log r) :
    Run.Given clock (fun _ => none) log := by
  obtain ⟨epoch, clocks, hclock, hundisturbed⟩ := h.undisturbed
  obtain rfl := hundisturbed.clocks
  refine ⟨⟨epoch, hundisturbed⟩, hclock, follows_of_forall ?_⟩
  intro line hline
  obtain ⟨line, hmem, rfl⟩ := List.mem_map.1 hline
  rw [h.silent line hmem]
  rfl

lemma same_silent_course (h₁ : g.SilentCourse abi glue i clock log₁ r₁)
    (h₂ : g.SilentCourse abi glue i clock log₂ r₂) :
    r₁ = r₂ ∧ Run.output log₁ = Run.output log₂ := by
  obtain ⟨hr, houtput, -⟩ := Run.same_course (g.ignores_hosted abi glue i)
    (g.heedless_hosted abi glue i) h₁.runs h₂.runs h₁.given h₂.given
  exact ⟨hr, houtput⟩

/-- Where the input was known beforehand nobody is asked for lines. -/
lemma unasked_of_preset (hinput : i.input.isSome = true) (h : Task.Runs (g.hosted abi glue i) log r) :
    ∀ e ∈ log, e.1 ≠ .readLine :=
  fun e he => (((g.only_hosted abi glue hinput).of_runs h).2 e he).1

lemma silent_of_preset (hinput : i.input.isSome = true) (h : Task.Runs (g.hosted abi glue i) log r) :
    Run.Silent log := by
  intro line hline
  obtain ⟨⟨q, a⟩, hmem, ha⟩ := List.mem_filterMap.1 hline
  have hq : q ≠ .readLine := unasked_of_preset hinput h ⟨q, a⟩ hmem
  cases q with
  | readLine => exact absurd rfl hq
  | _ => cases ha

end

end Strategy

/-! ## Sessions -/

namespace Strategy

variable {g : Strategy (Except EngineError Int32)} {abi : Abi} {glue : Glue} {i : Invocation}
  {clock : ℕ → Moment} {answers : ℕ → Option String} {c c' : Context} {log : Log}

lemma course_of_foreground_captured {run : CapturedRun}
    (h : SharedTask.Ran (Foreground.runCaptured (g.run abi glue i)) c log run c')
    (hattended : Attended clock answers log) : ∃ r inner,
      g.SilentCourse abi glue i clock inner r ∧ run = ⟨Capture.empty.addAll inner, reportOf r⟩ := by
  obtain ⟨r, inner, hrun, hinner, hundisturbed, hsilent⟩ :=
    Foreground.undisturbed_of_ran_runCaptured h hattended.quiet
  exact ⟨r, inner, ⟨hinner, ⟨_, _, hattended.clock, hundisturbed⟩, hsilent⟩, hrun⟩

lemma course_of_background_captured {result : Except SessionError CapturedRun}
    (hcancelled : c.worker.cancelled = false)
    (h : SharedTask.Ran (Background.runCaptured (g.run abi glue i)) c log result c')
    (hattended : Attended clock answers log) : ∃ r inner, g.SilentCourse abi glue i clock inner r ∧
      result = .ok ⟨Capture.empty.addAll inner, reportOf r⟩ := by
  obtain ⟨r, inner, hresult, hinner, hmirrors⟩ :=
    mirrors_of_ran_session false hcancelled h hattended.quiet
  exact ⟨r, inner, ⟨hinner, ⟨_, _, hattended.clock, hmirrors.undisturbed⟩, hmirrors.silent rfl⟩,
    hresult⟩

lemma course_of_foreground {report : Report} (hinput : i.input.isSome = true)
    (h : SharedTask.Ran (Foreground.run (g.run abi glue i)) c log report c')
    (hattended : Attended clock answers log) : ∃ r inner, g.SilentCourse abi glue i clock inner r ∧
      report = reportOf r ∧ Session.output log = Run.output inner := by
  rw [Strategy.run, Foreground.run_bind] at h
  obtain ⟨r, rfl, hran⟩ := SharedTask.ran_map_iff.1 h
  obtain ⟨inner, hinner, hmirrors⟩ := Foreground.mirrors_of_ran_observe hran hattended.quiet
  have hsilent := silent_of_preset hinput hinner
  refine ⟨r, inner, ⟨hinner, ⟨_, _, hattended.clock, hmirrors.undisturbed⟩, hsilent⟩, rfl, ?_⟩
  rw [← hmirrors.output, Foreground.flatMap_shownOf hsilent]

lemma course_of_background {result : Except SessionError Report} (hinput : i.input.isSome = true)
    (hcancelled : c.worker.cancelled = false)
    (h : SharedTask.Ran (Background.run (g.run abi glue i)) c log result c')
    (hattended : Attended clock answers log) : ∃ r inner, g.SilentCourse abi glue i clock inner r ∧
      result = .ok (reportOf r) ∧ Session.output log = Run.output inner := by
  obtain ⟨r, inner, hresult, hinner, hmirrors⟩ :=
    mirrors_of_ran_session true hcancelled h hattended.quiet
  have hsilent := silent_of_preset hinput hinner
  exact ⟨r, inner, ⟨hinner, ⟨_, _, hattended.clock, hmirrors.undisturbed⟩, hsilent⟩, hresult,
    (hmirrors.output rfl).symm⟩

lemma course_of_work {headless : Bool} {epoch : Nat} {log : Worker.Log}
    (hlines : headless = true ∨ i.input.isSome = true)
    (h : Task.Runs (Worker.work headless (g.run abi glue i)) log ())
    (hlog : Worker.Undisturbed epoch log) (hclock : Follows clock (Worker.clocksOf log)) :
    ∃ r inner, g.SilentCourse abi glue i clock inner r ∧
      Worker.told log = Run.output inner ++ endEvents (reportOf r) := by
  obtain ⟨inner, r, hinner, htold, hundisturbed, hsilent⟩ := Worker.told_work h hlog
  have hboth : Run.Silent inner ∧ Run.events headless .empty inner = Run.output inner := by
    rcases hlines with rfl | hinput
    · exact ⟨hsilent rfl, Worker.events_headless .empty inner⟩
    · exact ⟨silent_of_preset hinput hinner,
        Worker.events_of_unasked .empty (unasked_of_preset hinput hinner)⟩
  exact ⟨r, inner, ⟨hinner, ⟨_, _, hclock, hundisturbed⟩, hboth.1⟩, hboth.2 ▸ htold⟩

end Strategy

/-! ## Runs alike -/

/-- What is captured of some chunks. -/
def Capture.ofChunks (chunks : List Worker.Event) : Capture :=
  (chunks.foldl Harvest.add .empty).capture

namespace Strategy

variable {abi : Abi} {glue : Glue} {i : Invocation} {clock : ℕ → Moment}

/-- All runs of a program come to this, if they get no lines and the clock is as given. -/
structure Alike (g : Strategy (Except EngineError Int32)) (abi : Abi) (glue : Glue) (i : Invocation)
    (clock : ℕ → Moment) (outcome : Except EngineError Int32) (files : List SavedFile)
    (chunks : List Worker.Event) : Prop where
  /-- The outcome is what the program itself comes to, and the chunks are what it writes. -/
  program : ∃ log, g.SilentCourse abi glue i clock log (outcome, files) ∧ Run.output log = chunks
  succeeds : RunError.ofOutcome? outcome = none ↔ outcome = .ok 0
  chunks_output : ∀ e ∈ chunks, e.isOutput = true
  captured_foreground : ∀ answers c,
    ComesTo clock answers (Foreground.runCaptured (g.run abi glue i)) c fun run _ =>
      run = ⟨.ofChunks chunks, files, RunError.ofOutcome? outcome⟩
  captured_background : ∀ answers c, c.worker.cancelled = false →
    ComesTo clock answers (Background.runCaptured (g.run abi glue i)) c fun result _ =>
      result = .ok ⟨.ofChunks chunks, files, RunError.ofOutcome? outcome⟩
  /-- The chunks come first, then a failure if the program fails, and at last the files. -/
  told : ∀ headless epoch log, headless = true ∨ i.input.isSome = true →
    Task.Runs (Worker.work headless (g.run abi glue i)) log () → Worker.Undisturbed epoch log →
    Follows clock (Worker.clocksOf log) →
    Worker.told log =
      chunks ++ (RunError.ofOutcome? outcome).toList.map .failed ++ [.finished files]
  foreground : i.input.isSome = true → ∀ answers c,
    ComesTo clock answers (Foreground.run (g.run abi glue i)) c fun report log =>
      report = ⟨files, RunError.ofOutcome? outcome⟩ ∧ output log = chunks
  background : i.input.isSome = true → ∀ answers c, c.worker.cancelled = false →
    ComesTo clock answers (Background.run (g.run abi glue i)) c fun result log =>
      result = .ok ⟨files, RunError.ofOutcome? outcome⟩ ∧ output log = chunks

lemma ofOutcome?_eq_none_iff {outcome : Except EngineError Int32} :
    RunError.ofOutcome? outcome = none ↔ outcome = .ok 0 := by
  cases outcome with
  | error e => simp [RunError.ofOutcome?]
  | ok code => simp [RunError.ofOutcome?]

/-- **Runs that get no lines are alike, wherever they are.** -/
theorem runs_alike (g : Strategy (Except EngineError Int32)) (abi : Abi) (glue : Glue)
    (i : Invocation) (clock : ℕ → Moment) :
    ∃ outcome files chunks, g.Alike abi glue i clock outcome files chunks := by
  -- one session, in the foreground, tells what all of them come to
  obtain ⟨log, run, c', hran, hattended⟩ := exists_attended clock (fun _ => none)
    (Foreground.runCaptured (g.run abi glue i)) (.fresh .prompts)
  obtain ⟨⟨outcome, files⟩, inner, hcourse, -⟩ := course_of_foreground_captured hran hattended
  refine ⟨outcome, files, Run.output inner, ⟨inner, hcourse, rfl⟩, ofOutcome?_eq_none_iff, ?_, ?_, ?_,
    ?_, ?_, ?_⟩
  · intro e he
    rw [← Worker.outputs_output] at he
    exact (List.mem_filter.1 he).2
  · intro answers c
    refine ⟨exists_attended .., fun log run c' hran hattended => ?_⟩
    obtain ⟨r, inner', hcourse', rfl⟩ := course_of_foreground_captured hran hattended
    obtain ⟨rfl, houtput⟩ := same_silent_course hcourse hcourse'
    rw [Run.addAll_eq_of_output, ← houtput]
    rfl
  · intro answers c hcancelled
    refine ⟨exists_attended .., fun log result c' hran hattended => ?_⟩
    obtain ⟨r, inner', hcourse', rfl⟩ := course_of_background_captured hcancelled hran hattended
    obtain ⟨rfl, houtput⟩ := same_silent_course hcourse hcourse'
    rw [Run.addAll_eq_of_output, ← houtput]
    rfl
  · intro headless epoch log hlines hruns hlog hclock
    obtain ⟨r, inner', hcourse', htold⟩ := course_of_work hlines hruns hlog hclock
    obtain ⟨rfl, houtput⟩ := same_silent_course hcourse hcourse'
    rw [htold, houtput, endEvents, List.append_assoc]
    rfl
  · intro hinput answers c
    refine ⟨exists_attended .., fun log report c' hran hattended => ?_⟩
    obtain ⟨r, inner', hcourse', rfl, hshown⟩ := course_of_foreground hinput hran hattended
    obtain ⟨rfl, houtput⟩ := same_silent_course hcourse hcourse'
    exact ⟨rfl, hshown.trans houtput.symm⟩
  · intro hinput answers c hcancelled
    refine ⟨exists_attended .., fun log result c' hran hattended => ?_⟩
    obtain ⟨r, inner', hcourse', rfl, hshown⟩ := course_of_background hinput hcancelled hran hattended
    obtain ⟨rfl, houtput⟩ := same_silent_course hcourse hcourse'
    exact ⟨rfl, hshown.trans houtput.symm⟩

end Strategy

end GuestShell
