import GuestShell.Proofs.Shell.Runs

/-!
# Visits of stages

A stage that a line reaches is *visited*: it is invoked once, with an input and with the files that are
there, and then the shell says what is to be said about the outcome.  `Invoked` describes the
invocation, by runs of the parts that do it; `Outcome` is what the shell learns from it, and everything
after the invocation is determined by the outcome and by whether the stage is the last one.

Running stages begins with a visit of the first one, and goes on with the others exactly if nothing in
the outcome ends the line (`continues_runStages`).
-/

namespace GuestShell.Shell

open SharedTask

variable {κ ρ α β : Type}

/-! ## Outcomes -/

/-- What became of a program: what it printed for the next stage, its files, and how its run failed.  A
program at the terminal prints nothing for a next stage. -/
structure Finished where
  stdout : String
  files : List SavedFile
  error : Option RunError

/-- What the shell learns from a stage. -/
inductive Outcome where
  | command (answer : Except CommandError String)
  | program (result : Except SessionError Finished)

namespace Outcome

/-- What is there for the next stage. -/
def output : Outcome → String
  | command (.ok text) => text
  | program (.ok f) => f.stdout
  | _ => ""

/-- The error that ends the line.  The failed run of a program ends it only at the last stage. -/
def failure (last : Bool) : Outcome → Option DispatchError
  | command (.ok _) => none
  | command (.error e) => some (.command e)
  | program (.ok f) => if last then f.error.map .run else none
  | program (.error e) => some (.session e)

end Outcome

/-- The report of an error, as a request. -/
def reportRequest (e : DispatchError) : Request κ ρ := .stderr (Text.encode (e.message ++ "\n"))

/-- What the shell says after the stage. -/
def Outcome.told (last : Bool) : Outcome → List (Request κ ρ)
  | command (.ok text) => if last then [.stdout (Text.encode text)] else []
  | program (.ok f) =>
    .filesChanged f.files ::
      if last then [] else f.error.toList.map fun e => reportRequest (.run e)
  | _ => []

/-! ## Invocations -/

/-- The whole output of a command, if it did not fail at once. -/
def collected : Except CommandError (CommandOutput ρ) →
    Dispatching κ ρ (Except CommandError String)
  | .ok output => collect output
  | .error e => return .error e

/-- The answer of a callable command. -/
def answerOf (c : κ) (args : List String) (input : Option String) :
    Dispatching κ ρ (Except CommandError String) := do
  collected (← ask (.invoke c args input))

/-- The shell while a session is open. -/
def opened (s : Shell κ) : Shell κ := { s with session := ⟨true⟩ }

/-- One invocation of a stage: a registered command is called, any other is run as a program.  The
program finds the arguments, the input and the files. -/
inductive Invoked (stage : Stage) (last : Bool) (input : Option String) (s : Shell κ) :
    Log κ ρ → Outcome → Prop
  | command {c : Command κ} {log : Log κ ρ} {answer : Except CommandError String} {s' : Shell κ}
      (registered : s.registry.find? stage.program = some c)
      (ran : Ran (answerOf c.behavior stage.args input) s log answer s') :
      Invoked stage last input s log (.command answer)
  /-- Another session is open. -/
  | busy (unregistered : s.registry.find? stage.program = none) (taken : s.session.taken = true) :
      Invoked stage last input s [] (.program (.error .alreadyRunning))
  | unresolved {log : Log κ ρ} {e : ResolveError} {s' : Shell κ}
      (unregistered : s.registry.find? stage.program = none)
      (ran : Ran (load stage.program).run s.opened log (.error (.session (.resolve e))) s') :
      Invoked stage last input s log (.program (.error (.resolve e)))
  | attached {looked worked : Log κ ρ} {e : CatalogEntry} {result : Except SessionError Report}
      {u s' : Shell κ} (unregistered : s.registry.find? stage.program = none) (isLast : last = true)
      (found : Ran (load stage.program).run s.opened looked (.ok e) u)
      (ran : Ran (inContext (Session.run
        (e.runnable.run ⟨stage.program, stage.args, s.files, input⟩))) u worked result s') :
      Invoked stage last input s (looked ++ worked)
        (.program (result.map fun r => ⟨"", r.files, r.error⟩))
  | detached {looked worked : Log κ ρ} {e : CatalogEntry}
      {result : Except SessionError CapturedRun} {u s' : Shell κ}
      (unregistered : s.registry.find? stage.program = none) (isLast : last = false)
      (found : Ran (load stage.program).run s.opened looked (.ok e) u)
      (ran : Ran (inContext (Session.runCaptured
        (e.runnable.run ⟨stage.program, stage.args, s.files, input⟩))) u worked result s') :
      Invoked stage last input s (looked ++ worked)
        (.program (result.map fun r => ⟨r.capture.stdout, r.report.files, r.report.error⟩))

/-- A stage that was reached: what it was invoked with, what came of it, and the log of the invocation
and of what the shell said afterwards. -/
structure Visit (κ ρ : Type) where
  stage : Stage
  last : Bool
  input : Option String
  files : List SavedFile
  outcome : Outcome
  worked : Log κ ρ
  said : Log κ ρ

/-- The requests of a log. -/
def requests (log : Log κ ρ) : List (Request κ ρ) := log.map fun e => e.1.1

lemma requests_append (before after : Log κ ρ) :
    requests (before ++ after) = requests before ++ requests after :=
  List.map_append

namespace Visit

def log (v : Visit κ ρ) : Log κ ρ := v.worked ++ v.said

def failure (v : Visit κ ρ) : Option DispatchError := v.outcome.failure v.last

/-- The call of a command that belongs to the visit. -/
def invocation (registry : Registry κ) (v : Visit κ ρ) :
    Option (κ × List String × Option String) :=
  (registry.find? v.stage.program).map fun c => (c.behavior, v.stage.args, v.input)

end Visit

/-! ## Invocations seen in the log -/

variable {s s' u : Shell κ} {log : Log κ ρ}

lemma plain_collected (r : Except CommandError (CommandOutput ρ)) :
    Plain (collected r : Dispatching κ ρ _) := by
  rcases r with e | s | later | later
  · exact plain_pure _
  · exact plain_pure _
  · exact plain_ask (by simp)
  · exact plain_bind (plain_ask (by simp)) fun _ => plain_pure _

lemma ran_answerOf {c : κ} {args : List String} {input : Option String}
    {answer : Except CommandError String} (h : Ran (answerOf c args input) s log answer s') :
    invocations log = [(c, args, input)] ∧ (Undisturbed log → Alike s s') := by
  obtain ⟨r, u, before, after, rfl, hbefore, hafter⟩ := ran_bind_iff.1 h
  rw [ran_ask_iff] at hbefore
  subst hbefore
  have hrest := plain_collected (κ := κ) r
  refine ⟨?_, fun hlog => ?_⟩
  · rw [invocations_append, hrest.no_invocation hafter]
    rfl
  · obtain ⟨hlog, hlog'⟩ := undisturbed_append_iff.1 hlog
    have halike : Alike s u := hlog _ (List.mem_singleton.2 rfl)
    exact halike.trans (hrest.alike hafter hlog')

/-- A command is called once, a program never calls one. -/
lemma Invoked.invocations {stage : Stage} {last : Bool} {input : Option String} {o : Outcome}
    (h : Invoked stage last input s log o) : invocations log =
      ((s.registry.find? stage.program).map fun c => (c.behavior, stage.args, input)).toList := by
  cases h with
  | command registered ran => rw [registered, (ran_answerOf ran).1]; rfl
  | busy unregistered taken => rw [unregistered]; rfl
  | unresolved unregistered ran =>
    rw [unregistered, (plain_load _).no_invocation ran]
    rfl
  | attached unregistered isLast found ran =>
    rw [unregistered, invocations_append, (plain_load _).no_invocation found,
      (plain_inContext _).no_invocation ran]
    rfl
  | detached unregistered isLast found ran =>
    rw [unregistered, invocations_append, (plain_load _).no_invocation found,
      (plain_inContext _).no_invocation ran]
    rfl

/-! ## Parts of a visit -/

end GuestShell.Shell
