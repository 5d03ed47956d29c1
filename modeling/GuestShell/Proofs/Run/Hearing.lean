import GuestShell.Proofs.Run.Captured
import GuestShell.Proofs.Sandbox.StdinDelivery
import GuestShell.Proofs.Task.Answers
import GuestShell.Terminal.Caption

/-!
# What a run hears of its surroundings

Two runs of the same program need not be answered in the same way to come to the same end.  It is
enough that they hear the same (`Hears`): the clock shows the same moments, lines are the same but
for a line feed that may be missing at their end, and nobody interrupts.  The epoch may be another
one, as long as it stays what it is.

The main statement is `runs_unique`.  What it says of the logs of two runs, that they tell the same
story, is enough to know that both show the same output and ask for lines with the same captions.
-/

namespace GuestShell

namespace Run

variable {α : Type}

/-! ## Answers as they are heard -/

/-- The line with its line feed, typed or not. -/
def ended (line : String) : String := if Text.endsWith line "\n" then line else line ++ "\n"

/-- An answer as it is heard: the line feed of a line may be missing. -/
def heard : (q : Request) → Answer q → Answer q
  | .readLine, line => Option.map ended line
  | .stdout _, a | .stderr _, a | .isInterrupted, a | .clock, a | .epoch, a | .note _, a => a

/-- The epoch, known beforehand. -/
def epochIs (epoch : Nat) : (q : Request) → Option (Answer q)
  | .epoch => some epoch
  | _ => none

/-- It makes no difference which epoch it is, if it stays the same. -/
def Heedless (r : Running α) : Prop :=
  ∀ epoch epoch', r.answering (epochIs epoch) = r.answering (epochIs epoch')

lemma endsWith_ended (line : String) : Text.endsWith (ended line) "\n" = true := by
  rw [ended]
  split
  · assumption
  · simp [Text.endsWith]

lemma ended_ended (line : String) : ended (ended line) = ended line :=
  if_pos (endsWith_ended line)

lemma terminated_ended (line : String) : Stdin.terminated (ended line) = Stdin.terminated line :=
  congrArg Text.encode (ended_ended line)

/-! ## Logs -/

/-- What the clock showed, each time somebody looked. -/
def clocksOf (log : Log) : List Moment :=
  log.filterMap fun
    | ⟨.clock, now⟩ => some now
    | _ => none

/-- Nobody interrupts, and clock and lines are as given, as far as they are asked for. -/
structure Hears (clocks : List Moment) (lines : List (Option String)) (log : Log) : Prop where
  uninterrupted : Stdin.Uninterrupted log
  clocks : clocksOf log <+: clocks
  lines : (Stdin.answersIn log).map (Option.map ended) <+: lines

/-- The epoch is always the same one. -/
def InEpoch (epoch : Nat) (log : Log) : Prop := ∀ e : Nat, ⟨.epoch, e⟩ ∈ log → e = epoch

/-- The log as the run hears it, without its looks at the epoch. -/
def story (log : Log) : Log :=
  Task.blurred heard (log.filter fun e => (epochIs 0 e.1).isNone)

/-- Two logs that hear the same begin with the same, and go on to hear the same. -/
lemma Hears.cons {clocks : List Moment} {lines : List (Option String)} {q : Request}
    {a₁ a₂ : Answer q} {log₁ log₂ : Log} (hq : epochIs 0 q = none)
    (h₁ : Hears clocks lines (⟨q, a₁⟩ :: log₁)) (h₂ : Hears clocks lines (⟨q, a₂⟩ :: log₂)) :
    heard q a₁ = heard q a₂ ∧
      ∃ clocks lines, Hears clocks lines log₁ ∧ Hears clocks lines log₂ := by
  obtain ⟨hcalm₁, hclocks₁, hlines₁⟩ := h₁
  obtain ⟨hcalm₂, hclocks₂, hlines₂⟩ := h₂
  have hrest₁ : Stdin.Uninterrupted log₁ := fun b hb => hcalm₁ b (List.mem_cons_of_mem _ hb)
  have hrest₂ : Stdin.Uninterrupted log₂ := fun b hb => hcalm₂ b (List.mem_cons_of_mem _ hb)
  cases q with
  | stdout chunk | stderr chunk | note o =>
    exact ⟨rfl, clocks, lines, ⟨hrest₁, hclocks₁, hlines₁⟩, ⟨hrest₂, hclocks₂, hlines₂⟩⟩
  | readLine =>
    change heard .readLine a₁ :: (Stdin.answersIn log₁).map (Option.map ended) <+: lines at hlines₁
    change heard .readLine a₂ :: (Stdin.answersIn log₂).map (Option.map ended) <+: lines at hlines₂
    obtain ⟨rest, rfl, htail₁⟩ := List.cons_prefix_iff.1 hlines₁
    obtain ⟨hsame, htail₂⟩ := List.cons_prefix_cons.1 hlines₂
    exact ⟨hsame.symm, clocks, rest, ⟨hrest₁, hclocks₁, htail₁⟩, ⟨hrest₂, hclocks₂, htail₂⟩⟩
  | isInterrupted =>
    refine ⟨?_, clocks, lines, ⟨hrest₁, hclocks₁, hlines₁⟩, ⟨hrest₂, hclocks₂, hlines₂⟩⟩
    exact (hcalm₁ a₁ List.mem_cons_self).trans (hcalm₂ a₂ List.mem_cons_self).symm
  | clock =>
    change a₁ :: clocksOf log₁ <+: clocks at hclocks₁
    change a₂ :: clocksOf log₂ <+: clocks at hclocks₂
    obtain ⟨rest, rfl, htail₁⟩ := List.cons_prefix_iff.1 hclocks₁
    obtain ⟨hsame, htail₂⟩ := List.cons_prefix_cons.1 hclocks₂
    exact ⟨hsame.symm, rest, lines, ⟨hrest₁, htail₁, hlines₁⟩, ⟨hrest₂, htail₂, hlines₂⟩⟩
  | epoch => cases hq

/-- What is not read off looks at the epoch is the same without them. -/
lemma filterMap_filter_epoch {β : Type} {f : (q : Request) × Answer q → Option β} (log : Log)
    (hf : ∀ e : Nat, f ⟨.epoch, e⟩ = none) :
    (log.filter fun e => (epochIs 0 e.1).isNone).filterMap f = log.filterMap f := by
  rw [List.filterMap_filter]
  refine congrArg (List.filterMap · log) (funext fun e => ?_)
  obtain ⟨q, a⟩ := e
  cases q with
  | epoch => exact (hf a).symm
  | _ => rfl

lemma Hears.filter {clocks : List Moment} {lines : List (Option String)} {log : Log}
    (h : Hears clocks lines log) :
    Hears clocks lines (log.filter fun e => (epochIs 0 e.1).isNone) := by
  refine ⟨fun b hb => h.uninterrupted b (List.mem_filter.1 hb).1, ?_, ?_⟩
  · rw [clocksOf, filterMap_filter_epoch log fun _ => rfl]
    exact h.clocks
  · rw [Stdin.answersIn, filterMap_filter_epoch log fun _ => rfl]
    exact h.lines

/-- A run in one epoch is a run that knows it beforehand. -/
lemma InEpoch.runs_answering {r : Running α} {epoch : Nat} {log : Log} {a : α}
    (h : InEpoch epoch log) (hruns : Task.Runs r log a) :
    Task.Runs (r.answering (epochIs epoch)) (log.filter fun e => (epochIs 0 e.1).isNone) a := by
  have hnone (q : Request) : (epochIs epoch q).isNone = (epochIs 0 q).isNone := by cases q <;> rfl
  have hrun : Task.Runs (r.answering (epochIs epoch))
      (log.filter fun e => (epochIs epoch e.1).isNone) a := by
    refine hruns.answering fun ⟨q, a⟩ he x hx => ?_
    cases q <;> cases hx
    exact h a he
  simpa only [hnone] using hrun

/-- Two logs, without looks at the epoch, hear the same. -/
def HearTheSame (log₁ log₂ : Log) : Prop :=
  (∃ clocks lines, Hears clocks lines log₁ ∧ Hears clocks lines log₂) ∧
    ∀ e ∈ log₁, epochIs 0 e.1 = none

/-- **A run that hears the same comes to the same end.** -/
theorem runs_unique {r : Running α} (hignores : r.Ignores heard) (hheedless : Heedless r)
    {clocks : List Moment} {lines : List (Option String)} {epoch₁ epoch₂ : Nat} {log₁ log₂ : Log}
    {a₁ a₂ : α} (h₁ : Task.Runs r log₁ a₁) (h₂ : Task.Runs r log₂ a₂)
    (hears₁ : Hears clocks lines log₁) (hears₂ : Hears clocks lines log₂)
    (hepoch₁ : InEpoch epoch₁ log₁) (hepoch₂ : InEpoch epoch₂ log₂) :
    a₁ = a₂ ∧ story log₁ = story log₂ := by
  have hrun₁ := hepoch₁.runs_answering h₁
  have hrun₂ := hepoch₂.runs_answering h₂
  -- both are runs of one task now, which knows the epoch of the second one
  rw [hheedless epoch₁ epoch₂] at hrun₁
  refine hignores.answering.runs_unique HearTheSame ?_ hrun₁ hrun₂
    ⟨⟨clocks, lines, hears₁.filter, hears₂.filter⟩, ?_⟩
  · rintro q b₁ b₂ rest₁ rest₂ ⟨⟨clocks, lines, hb₁, hb₂⟩, hall⟩
    obtain ⟨hq, hrest⟩ := List.forall_mem_cons.1 hall
    obtain ⟨hsame, hears⟩ := hb₁.cons hq hb₂
    exact ⟨hsame, hears, hrest⟩
  · intro e he
    exact Option.isNone_iff_eq_none.1 (List.mem_filter.1 he).2

/-! ## Undisturbed runs -/

/-- An answer of surroundings that do not disturb. -/
def Calm (epoch : Nat) : (q : Request) → Answer q → Prop
  | .epoch, e => e = epoch
  | .isInterrupted, stopped => stopped = false
  | .stdout _, _ | .stderr _, _ | .readLine, _ | .clock, _ | .note _, _ => True

/-- Nobody interrupts, the epoch is always the same one, and the clock is as given. -/
structure Undisturbed (epoch : Nat) (clocks : List Moment) (log : Log) : Prop where
  calm : ∀ e ∈ log, Calm epoch e.1 e.2
  clocks : clocksOf log = clocks

/-- Whenever a line is asked for, there is none. -/
def Silent (log : Log) : Prop := ∀ line ∈ Stdin.answersIn log, line = none

lemma undisturbed_nil (epoch : Nat) : Undisturbed epoch [] [] := ⟨by simp, rfl⟩

lemma Undisturbed.append {epoch : Nat} {clocks clocks' : List Moment} {log log' : Log}
    (h : Undisturbed epoch clocks log) (h' : Undisturbed epoch clocks' log') :
    Undisturbed epoch (clocks ++ clocks') (log ++ log') := by
  refine ⟨List.forall_mem_append.2 ⟨h.calm, h'.calm⟩, ?_⟩
  rw [clocksOf, List.filterMap_append]
  exact congrArg₂ _ h.clocks h'.clocks

lemma Undisturbed.of_append {epoch : Nat} {clocks : List Moment} {log log' : Log}
    (h : Undisturbed epoch clocks (log ++ log')) : ∃ before after, clocks = before ++ after ∧
      Undisturbed epoch before log ∧ Undisturbed epoch after log' := by
  obtain ⟨hlog, hlog'⟩ := List.forall_mem_append.1 h.calm
  exact ⟨_, _, h.clocks.symm.trans List.filterMap_append, ⟨hlog, rfl⟩, ⟨hlog', rfl⟩⟩

lemma Undisturbed.inEpoch {epoch : Nat} {clocks : List Moment} {log : Log}
    (h : Undisturbed epoch clocks log) : InEpoch epoch log :=
  fun e he => h.calm ⟨.epoch, e⟩ he

lemma Undisturbed.hears {epoch : Nat} {clocks clocks' : List Moment} {lines : List (Option String)}
    {log : Log} (h : Undisturbed epoch clocks log) (hclocks : clocks <+: clocks')
    (hlines : (Stdin.answersIn log).map (Option.map ended) <+: lines) : Hears clocks' lines log :=
  ⟨fun stopped hmem => h.calm ⟨.isInterrupted, stopped⟩ hmem, h.clocks ▸ hclocks, hlines⟩

end Run

end GuestShell
