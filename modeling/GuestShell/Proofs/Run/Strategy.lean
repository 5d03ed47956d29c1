import GuestShell.Proofs.Guest.Epochs
import GuestShell.Proofs.Sandbox.Discreet
import GuestShell.Run.Runnable

/-!
# Guests by what they do

What holds of every program holds of every strategy: whatever a guest calls, it may decide on that by
all it was answered before.  A strategy is put into the sandbox of a run as a module is (`hosted`),
and every module is one (`Runnable.run_eq`).

Of the surroundings a run only hears what its host functions hear, and they are discreet.  So it
takes no notice of which epoch it is (`heedless_hosted`) and of how a line was ended
(`ignores_hosted`), and if its input was known beforehand it asks nobody for lines (`only_hosted`).
-/

namespace GuestShell

/-- A guest that may do anything, given the functions of its host.  The epoch is there to interrupt
it, not for it to know. -/
structure Strategy (β : Type) where
  work : List Signature → Engine.Run β
  heedless : ∀ table, Engine.Heedless (work table)

namespace Strategy

variable {β δ : Type}

/-- What a module does. -/
def ofModule (m : CompiledModule) : Strategy (Except EngineError Int32) where
  work := m.execute
  heedless := m.heedless_execute

/-- A strategy in a sandbox; what it comes to, and the files it leaves behind. -/
def hostedIn (g : Strategy β) (table : List Signature) (call : Runnable.Caller δ)
    (choose : Runnable.Chooser) (hidden : List String) (p : Process δ) :
    Running (β × List SavedFile) :=
  ((g.work table).within (Runnable.serve call choose) p).bind fun r =>
    return (r.1, r.2.tree.snapshot hidden)

/-- A strategy in the sandbox of a run. -/
def hosted (g : Strategy β) (abi : Abi) (glue : Glue) (i : Invocation) :
    Running (β × List SavedFile) :=
  .ask .clock fun (now : Moment) =>
    match abi with
    | .posix => g.hostedIn Posix.table Posix.call Posix.enter [] (Posix.Guest.start now i)
    | .libc =>
      g.hostedIn Libc.table Libc.call (fun exports _ m => (Libc.enter exports, m))
        Libc.reservedPaths (Libc.Guest.start now glue.fullEnvironment i)

/-- What is reported of a guest that comes to an outcome. -/
def reportOf (r : Except EngineError Int32 × List SavedFile) : Report :=
  ⟨r.2, RunError.ofOutcome? r.1⟩

/-- The run of a strategy. -/
def run (g : Strategy (Except EngineError Int32)) (abi : Abi) (glue : Glue) (i : Invocation) :
    Running Report :=
  (g.hosted abi glue i).bind fun r => return reportOf r

lemma execute_eq (m : CompiledModule) (table : List Signature) (call : Runnable.Caller δ)
    (choose : Runnable.Chooser) (hidden : List String) (p : Process δ) :
    Runnable.execute m table call choose hidden p =
      ((ofModule m).hostedIn table call choose hidden p).bind fun r => return reportOf r := by
  rw [hostedIn, Task.bind_assoc]
  rfl

end Strategy

/-- **To run a program is to run the strategy of its module.** -/
theorem Runnable.run_eq (r : Runnable) (i : Invocation) :
    r.run i = (Strategy.ofModule r.module_).run r.abi r.glue i := by
  rw [Runnable.run, Strategy.run, Strategy.hosted, Task.bind_ask]
  congr 1
  funext now
  cases r.abi <;> exact Strategy.execute_eq _ _ _ _ _ _

namespace Strategy

variable {β δ : Type}

/-! ## Discreet hosts -/

/-- Every call is discreet. -/
def DiscreetCalls (call : Runnable.Caller δ) : Prop :=
  ∀ index args p,
    (call index args p).Only (Run.HostMayAsk p.stdin.preset)
        (fun r => r.2.stdin.preset = p.stdin.preset) ∧
      (call index args p).Ignores Run.heard

lemma discreet_posix : DiscreetCalls Posix.call := by
  intro index args g
  rw [Posix.call]
  cases PosixCall.all[index]? with
  | none => exact ⟨rfl, trivial⟩
  | some c =>
    obtain ⟨honly, hignores⟩ := Posix.discreet_perform c args g
    refine ⟨honly.bind fun r hr => ?_, hignores.bind fun r => ?_⟩
    · obtain ⟨(e | s) | n, g'⟩ := r <;> exact hr
    · obtain ⟨(e | s) | n, g'⟩ := r <;> trivial

lemma discreet_libc : DiscreetCalls Libc.call := by
  intro index args g
  rw [Libc.call]
  cases LibcCall.all[index]? with
  | none => exact ⟨rfl, trivial⟩
  | some c =>
    obtain ⟨honly, hignores⟩ := Libc.discreet_perform c args g
    refine ⟨honly.bind fun r hr => ?_, hignores.bind fun r => ?_⟩
    · obtain ⟨(e | s) | n, g'⟩ := r <;> exact hr
    · obtain ⟨(e | s) | n, g'⟩ := r <;> trivial

section

variable {call : Runnable.Caller δ} {choose : Runnable.Chooser} (hcall : DiscreetCalls call)

include hcall

lemma ignores_serve (q : Engine.Request) (p : Process δ) :
    (Runnable.serve call choose q p).Ignores Run.heard := by
  cases q with
  | epoch => exact fun _ => ⟨rfl, trivial⟩
  | note o => exact fun _ => ⟨rfl, trivial⟩
  | entry exports m => trivial
  | call index args m => exact (hcall index args { p with memory := m }).2.bind fun _ => trivial

/-- Only the guest itself looks at the epoch. -/
lemma answering_serve (epoch : Nat) {q : Engine.Request} (hq : Engine.epochIs epoch q = none)
    (p : Process δ) : (Runnable.serve call choose q p).answering (Run.epochIs epoch) =
      Runnable.serve call choose q p := by
  cases q with
  | epoch => cases hq
  | note o => rfl
  | entry exports m => rfl
  | call index args m =>
    have honly : (Runnable.serve call choose (.call index args m) p).Only
        (fun q => Run.epochIs epoch q = none) fun _ => True := by
      refine Task.Only.bind ((hcall index args { p with memory := m }).1.imp (fun q hq => ?_)
        fun _ _ => trivial) fun _ _ => trivial
      cases q with
      | epoch => exact hq.elim
      | _ => rfl
    exact honly.answering_eq

lemma only_serve (q : Engine.Request) {p : Process δ} (hp : p.stdin.preset = true) :
    (Runnable.serve call choose q p).Only (fun q => q ≠ .readLine ∧ q ≠ .isInterrupted)
      fun r => r.2.stdin.preset = true := by
  cases q with
  | epoch => exact ⟨⟨nofun, nofun⟩, fun _ => hp⟩
  | note o => exact ⟨⟨nofun, nofun⟩, fun _ => hp⟩
  | entry exports m => exact hp
  | call index args m =>
    refine Task.Only.bind ((hcall index args { p with memory := m }).1.imp (fun q hq => ?_)
      fun r hr => hr.trans hp) fun r hr => hr
    rw [hp] at hq
    constructor <;> rintro rfl <;> cases hq

end

/-! ## The whole run -/

lemma only_hostedIn (g : Strategy β) {call : Runnable.Caller δ} (hcall : DiscreetCalls call)
    (table : List Signature) (choose : Runnable.Chooser) (hidden : List String) {p : Process δ}
    (hp : p.stdin.preset = true) : (g.hostedIn table call choose hidden p).Only
      (fun q => q ≠ .readLine ∧ q ≠ .isInterrupted) fun _ => True := by
  have honly : ((g.work table).within (Runnable.serve call choose) p).Only
      (fun q => q ≠ .readLine ∧ q ≠ .isInterrupted) fun r => r.2.stdin.preset = true :=
    Task.only_within (I := fun p : Process δ => p.stdin.preset = true)
      (fun q _ => only_serve hcall q) (g.work table) hp
  exact honly.bind fun _ _ => trivial

lemma only_hosted (g : Strategy β) (abi : Abi) (glue : Glue) {i : Invocation}
    (hinput : i.input.isSome = true) :
    (g.hosted abi glue i).Only (fun q => q ≠ .readLine ∧ q ≠ .isInterrupted) fun _ => True := by
  refine ⟨⟨nofun, nofun⟩, fun now => ?_⟩
  cases abi with
  | posix => exact only_hostedIn g discreet_posix _ _ _ hinput
  | libc => exact only_hostedIn g discreet_libc _ _ _ hinput

lemma ignores_hosted (g : Strategy β) (abi : Abi) (glue : Glue) (i : Invocation) :
    (g.hosted abi glue i).Ignores Run.heard := by
  refine fun now => ⟨rfl, ?_⟩
  cases abi with
  | posix => exact (Task.ignores_within (ignores_serve discreet_posix) _ _).bind fun _ => trivial
  | libc => exact (Task.ignores_within (ignores_serve discreet_libc) _ _).bind fun _ => trivial

lemma answering_hostedIn (g : Strategy β) {call : Runnable.Caller δ} (hcall : DiscreetCalls call)
    (table : List Signature) (choose : Runnable.Chooser) (hidden : List String) (p : Process δ)
    (epoch : Nat) : (g.hostedIn table call choose hidden p).answering (Run.epochIs epoch) =
      (((g.work table).answering (Engine.epochIs epoch)).within (Runnable.serve call choose) p).bind
        fun r => return (r.1, r.2.tree.snapshot hidden) := by
  have hwithin : ((g.work table).within (Runnable.serve call choose) p).answering
      (Run.epochIs epoch) =
        ((g.work table).answering (Engine.epochIs epoch)).within (Runnable.serve call choose) p := by
    refine Task.answering_within (fun q a p hq => ?_) (fun q p hq => ?_) (g.work table) p
    · cases q <;> cases hq
      rfl
    · exact answering_serve hcall epoch hq p
  rw [hostedIn, Task.answering_bind, hwithin]
  rfl

lemma heedless_hosted (g : Strategy β) (abi : Abi) (glue : Glue) (i : Invocation) :
    Run.Heedless (g.hosted abi glue i) := by
  intro epoch epoch'
  rw [hosted, Task.answering_ask_of_none rfl, Task.answering_ask_of_none rfl]
  refine congrArg _ (funext fun now => ?_)
  cases abi with
  | posix =>
    simp only [answering_hostedIn g discreet_posix, g.heedless _ epoch epoch']
  | libc =>
    simp only [answering_hostedIn g discreet_libc, g.heedless _ epoch epoch']

end Strategy

end GuestShell
