import GuestShell.Proofs.Run.Strategy
import GuestShell.Proofs.Session.Prompts
import GuestShell.Proofs.Session.Transport

/-!
# A program gets the same input everywhere

A line comes from a prompt with its line feed.  On its way through the window of a worker it is cut to
what fits, so the longest line loses its line feed, but no other character.  A run does not hear the
difference (`ended_carried`), and neither does its caption.

What a guest was told is what a guest would know that keeps all of it in mind
(`remembering`).  Nobody else can tell it from one that does not (`forget_hosted`), so a session can
be watched with it in place of the guest (`inForeground`, `onWorker`).  The main statement is
`same_input`.
-/

namespace GuestShell

open Background Session

/-! ## Guests that remember -/

namespace Engine

/-- What passes between a guest and its host. -/
abbrev Log : Type := Task.Log Request Answer

/-- Asks, and keeps the answer in mind.  The epoch is not for the guest to know. -/
def remember (q : Request) (known : Log) : Run (Answer q × Log) :=
  .ask q fun a => .done (a, if (epochIs 0 q).isNone then known ++ [⟨q, a⟩] else known)

lemma answering_remember (epoch : Nat) {α : Type} (t : Run α) (known : Log) :
    (t.within remember known).answering (epochIs epoch) =
      (t.answering (epochIs epoch)).within remember known := by
  refine Task.answering_within (fun q a known hq => ?_) (fun q known hq => ?_) t known
  · rw [remember, Task.answering_ask_of_some hq]
    cases q <;> cases hq
    rfl
  · rw [remember, Task.answering_ask_of_none hq]
    rfl

end Engine

namespace Strategy

variable {β δ : Type}

/-- The strategy that does the same and knows all it was told. -/
def remembering (g : Strategy β) : Strategy (β × Engine.Log) where
  work table := (g.work table).within Engine.remember []
  heedless table epoch epoch' := by
    rw [Engine.answering_remember, Engine.answering_remember, g.heedless table epoch epoch']

lemma forget_within {α : Type} (t : Engine.Run α) (call : Runnable.Caller δ)
    (choose : Runnable.Chooser) (known : Engine.Log) (p : Process δ) :
    ((t.within Engine.remember known).within (Runnable.serve call choose) p).bind
        (fun r => return (r.1.1, r.2)) = t.within (Runnable.serve call choose) p := by
  induction t generalizing known p with
  | done a => rfl
  | ask q next ih =>
    rw [Task.within, Engine.remember, Task.bind_ask, Task.within, Task.bind_assoc]
    exact congrArg _ (funext fun r => ih r.1 _ r.2)

lemma forget_hostedIn (g : Strategy β) (table : List Signature) (call : Runnable.Caller δ)
    (choose : Runnable.Chooser) (hidden : List String) (p : Process δ) :
    (g.remembering.hostedIn table call choose hidden p).bind (fun r => return (r.1.1, r.2)) =
      g.hostedIn table call choose hidden p := by
  rw [hostedIn, hostedIn, ← forget_within (g.work table) call choose [] p, Task.bind_assoc,
    Task.bind_assoc]
  rfl

/-- To remember makes no difference to a run. -/
theorem forget_hosted (g : Strategy β) (abi : Abi) (glue : Glue) (i : Invocation) :
    (g.remembering.hosted abi glue i).bind (fun r => return (r.1.1, r.2)) = g.hosted abi glue i := by
  rw [hosted, hosted, Task.bind_ask]
  refine congrArg _ (funext fun now => ?_)
  cases abi <;> exact forget_hostedIn ..

end Strategy

/-! ## Lines -/

/-- Whether a line comes through the window with all of its characters. -/
def Window.Fits (line : String) : Prop :=
  line.length ≤ maxChars ∧ ∀ c ∈ line.toList, c ≠ '\x00' ∧ c ≠ '\n'

instance (line : String) : Decidable (Window.Fits line) :=
  inferInstanceAs (Decidable (_ ∧ _))

section

variable {line : String}

lemma ended_append (line : String) : Run.ended (line ++ "\n") = line ++ "\n" :=
  if_pos (by simp [Text.endsWith])

lemma ended_of_fits (hline : Window.Fits line) : Run.ended line = line ++ "\n" := by
  refine if_neg fun hends => ?_
  have hmem : '\n' ∈ line.toList :=
    (List.isSuffixOf_iff_suffix.1 hends).subset (List.mem_singleton.2 rfl)
  exact (hline.2 '\n' hmem).2 rfl

/-- The longest line loses its line feed, and only that. -/
lemma carried_of_fits (hline : Window.Fits line) :
    Window.carried Window.standardSize (line ++ "\n") =
      if line.length = Window.maxChars then line else line ++ "\n" := by
  have hroom : Window.room Window.standardSize = Window.maxChars := rfl
  have hzero : '\x00' ∉ line.toList := fun hmem => (hline.2 _ hmem).1 rfl
  have hlist : (line ++ "\n").toList = line.toList ++ ['\n'] := String.toList_append
  split_ifs with hmax
  · have hlength : line.toList.length = Window.room Window.standardSize :=
      String.length_toList.trans hmax
    have htake : (line ++ "\n").toList.take (Window.room Window.standardSize) =
        line.toList.take (Window.room Window.standardSize) := by
      rw [hlist, List.take_append_of_le_length hlength.ge]
    calc Window.carried Window.standardSize (line ++ "\n")
      _ = Window.carried Window.standardSize line := by rw [Window.carried, htake, Window.carried]
      _ = line := Window.carried_eq_self hzero hmax.le
  · refine Window.carried_eq_self (by simp [hlist, hzero]) ?_
    have hlt : line.length < Window.maxChars := lt_of_le_of_ne hline.1 hmax
    rw [hroom, String.length_append]
    exact hlt

/-- Whether its line feed has come through or not, the line is the same. -/
lemma ended_carried (hline : Window.Fits line) :
    Run.ended (Window.carried Window.standardSize (line ++ "\n")) = line ++ "\n" := by
  rw [carried_of_fits hline]
  split_ifs
  · exact ended_of_fits hline
  · exact ended_append line

end

/-! ## Sessions with a guest that remembers -/

namespace Strategy

section

variable (g : Strategy (Except EngineError Int32)) (abi : Abi) (glue : Glue) (i : Invocation)

/-- A session in the foreground, and what its guest was told. -/
def inForeground : Sitting (Report × Engine.Log) :=
  (fun r => (reportOf (r.1.1, r.2), r.1.2)) <$> Foreground.observe (g.remembering.hosted abi glue i)

/-- A session on a worker, and what its guest was told if it has come to its end. -/
def onWorker : Sitting (Except SessionError Report × Option Engine.Log) :=
  (fun p => (p.2.map fun h => ⟨h.files, h.error⟩, p.1.map (·.1.2))) <$>
    Background.observe true (g.remembering.hosted abi glue i) fun r => reportOf (r.1.1, r.2)

lemma run_eq : g.run abi glue i =
    (g.remembering.hosted abi glue i).bind fun r => return reportOf (r.1.1, r.2) := by
  rw [run, ← forget_hosted, Task.bind_assoc]
  rfl

lemma fst_inForeground :
    Prod.fst <$> g.inForeground abi glue i = Foreground.run (g.run abi glue i) := by
  rw [run_eq, Foreground.run_bind, inForeground, ← comp_map]
  rfl

lemma fst_onWorker :
    Prod.fst <$> g.onWorker abi glue i = Background.run (g.run abi glue i) := by
  have hsession : session true (Worker.work false (g.run abi glue i)) = Prod.snd <$>
      observe true (g.remembering.hosted abi glue i) fun r => reportOf (r.1.1, r.2) := by
    rw [run_eq]
    exact session_bind true _ _
  rw [Background.run, hsession, ← map_eq_pure_bind, onWorker, ← comp_map, ← comp_map]
  rfl

end

/-! ## The same input -/

section

variable {g : Strategy (Except EngineError Int32)} {abi : Abi} {glue : Glue} {i : Invocation}
  {clock : ℕ → Moment} {answers : ℕ → Option String} {c c' : Context} {log : Background.Log}

/-- What a run makes of the lines that are typed. -/
def asHeard (answers : ℕ → Option String) (n : ℕ) : Option String := (answers n).map (· ++ "\n")

lemma lines_of_prompts {lines : List (Option String)} (h : Follows answers lines) :
    Follows (asHeard answers)
      ((lines.map (Option.map (· ++ "\n"))).map (Option.map Run.ended)) := by
  have hheard : Option.map Run.ended ∘ Option.map (· ++ "\n") = Option.map (· ++ "\n") := by
    funext line
    cases line with
    | none => rfl
    | some text => exact congrArg some (ended_append text)
  rw [List.map_map, hheard]
  exact h.map _

lemma lines_of_window {lines : List (Option String)} (h : Follows answers lines)
    (hfits : ∀ n line, answers n = some line → Window.Fits line) :
    Follows (asHeard answers)
      ((lines.map (lineThrough Window.standardSize)).map (Option.map Run.ended)) := by
  have hheard (n : ℕ) : Option.map Run.ended (lineThrough Window.standardSize (answers n)) =
      asHeard answers n := by
    rw [asHeard]
    cases hline : answers n with
    | none => rfl
    | some text => exact congrArg some (ended_carried (hfits n text hline))
  have hmap := h.map (Option.map Run.ended ∘ lineThrough Window.standardSize)
  rw [List.map_map]
  exact (funext hheard : Option.map Run.ended ∘ lineThrough Window.standardSize ∘ answers =
    asHeard answers) ▸ hmap

/-- A session in the foreground is a run of its guest that hears what is typed. -/
lemma given_of_inForeground {p : Report × Engine.Log}
    (h : SharedTask.Ran (g.inForeground abi glue i) c log p c')
    (hattended : Attended clock answers log) : ∃ r inner,
      p = (reportOf (r.1.1, r.2), r.1.2) ∧
      Task.Runs (g.remembering.hosted abi glue i) inner r ∧
      Run.Given clock (asHeard answers) inner ∧ Session.captions log = Run.captions .empty inner := by
  obtain ⟨r, rfl, hran⟩ := SharedTask.ran_map_iff.1 h
  obtain ⟨inner, hinner, hmirrors⟩ := Foreground.mirrors_of_ran_observe hran hattended.quiet
  have hclocks := hmirrors.undisturbed.clocks
  refine ⟨r, inner, rfl, hinner, ⟨⟨c.epoch, hclocks ▸ hmirrors.undisturbed⟩, ?_, ?_⟩,
    hmirrors.captions.symm⟩
  · exact hclocks ▸ hattended.clock
  · rw [hmirrors.lines]
    exact lines_of_prompts hattended.typed

/-- A session on a worker is a run of its guest that hears what is typed. -/
lemma given_of_onWorker {p : Except SessionError Report × Option Engine.Log}
    (hfits : ∀ n line, answers n = some line → Window.Fits line)
    (hcancelled : c.worker.cancelled = false)
    (hsize : c.worker.window.words.length = Window.standardSize)
    (h : SharedTask.Ran (g.onWorker abi glue i) c log p c')
    (hattended : Attended clock answers log) : ∃ r inner,
      p = (.ok (reportOf (r.1.1, r.2)), some r.1.2) ∧
      Task.Runs (g.remembering.hosted abi glue i) inner r ∧
      Run.Given clock (asHeard answers) inner ∧ Session.captions log = Run.captions .empty inner := by
  obtain ⟨q, rfl, hran⟩ := SharedTask.ran_map_iff.1 h
  obtain ⟨r, inner, rfl, hinner, hmirrors⟩ :=
    Background.mirrors_of_ran_observe hcancelled hran hattended.quiet
  have hclocks := hmirrors.undisturbed.clocks
  refine ⟨r, inner, rfl, hinner, ⟨⟨c.epoch, hclocks ▸ hmirrors.undisturbed⟩, ?_, ?_⟩,
    (hmirrors.captions rfl).symm⟩
  · exact hclocks ▸ hattended.clock
  · rw [hmirrors.lines rfl, hsize]
    exact lines_of_window hattended.typed hfits

end

/-- **A program gets the same input everywhere.**  There is one run of the program that hears the lines as
they are typed.  It is the run of every session in the foreground and of every session on a worker: the
guest is told the same, call by call, and is asked for with the same captions. -/
theorem same_input (g : Strategy (Except EngineError Int32)) (abi : Abi) (glue : Glue)
    (i : Invocation) (clock : ℕ → Moment) (answers : ℕ → Option String)
    (hfits : ∀ n line, answers n = some line → Window.Fits line) :
    Prod.fst <$> g.inForeground abi glue i = Foreground.run (g.run abi glue i) ∧
    Prod.fst <$> g.onWorker abi glue i = Background.run (g.run abi glue i) ∧
    ∃ outcome told files inner,
      Task.Runs (g.remembering.hosted abi glue i) inner ((outcome, told), files) ∧
      Run.Given clock (asHeard answers) inner ∧
      (∀ c, ComesTo clock answers (g.inForeground abi glue i) c fun p log =>
        p = (reportOf (outcome, files), told) ∧
          Session.captions log = Run.captions .empty inner) ∧
      ∀ c, c.worker.cancelled = false → c.worker.window.words.length = Window.standardSize →
        ComesTo clock answers (g.onWorker abi glue i) c fun p log =>
          p = (.ok (reportOf (outcome, files)), some told) ∧
            Session.captions log = Run.captions .empty inner := by
  -- one session, in the foreground, tells what all of them come to
  obtain ⟨log, p, c', hran, hattended⟩ :=
    exists_attended clock answers (g.inForeground abi glue i) (.fresh .prompts)
  obtain ⟨⟨⟨outcome, told⟩, files⟩, inner, rfl, hinner, hgiven, -⟩ :=
    given_of_inForeground hran hattended
  have hsame {r' inner'} (hinner' : Task.Runs (g.remembering.hosted abi glue i) inner' r')
      (hgiven' : Run.Given clock (asHeard answers) inner') :
      r' = ((outcome, told), files) ∧ Run.captions .empty inner' = Run.captions .empty inner := by
    obtain ⟨hr, -, hasked⟩ := Run.same_course (g.remembering.ignores_hosted abi glue i)
      (g.remembering.heedless_hosted abi glue i) hinner' hinner hgiven' hgiven
    exact ⟨hr, hasked⟩
  refine ⟨g.fst_inForeground abi glue i, g.fst_onWorker abi glue i, outcome, told, files, inner, hinner,
    hgiven, fun c => ⟨exists_attended .., ?_⟩, fun c hcancelled hsize => ⟨exists_attended .., ?_⟩⟩
  · intro log p c' hran hattended
    obtain ⟨r', inner', rfl, hinner', hgiven', hcaptions'⟩ := given_of_inForeground hran hattended
    obtain ⟨rfl, hasked⟩ := hsame hinner' hgiven'
    exact ⟨rfl, hcaptions'.trans hasked⟩
  · intro log p c' hran hattended
    obtain ⟨r', inner', rfl, hinner', hgiven', hcaptions'⟩ :=
      given_of_onWorker hfits hcancelled hsize hran hattended
    obtain ⟨rfl, hasked⟩ := hsame hinner' hgiven'
    exact ⟨rfl, hcaptions'.trans hasked⟩

/-- A program that reads once. -/
def reader : Strategy (Except EngineError Int32) where
  work _ := .ask (.call 0 [.i32 0, .i32 0, .i32 4096] (.zeros 1)) fun _ => .done (.ok 0)
  heedless _ _ _ := rfl

/-- The longest line that fits. -/
def longest : String := .ofList (List.replicate Window.maxChars 'x')

theorem same_input_longest :
    let i : Invocation := ⟨"read", [], [], none⟩
    Window.Fits longest ∧ ∃ outcome told files asked,
      ComesTo (fun _ => 0) (fun _ => some longest) (reader.inForeground .posix .empty i)
        (.fresh .prompts)
        (fun p log => p = (reportOf (outcome, files), told) ∧ Session.captions log = asked) ∧
      ComesTo (fun _ => 0) (fun _ => some longest) (reader.onWorker .posix .empty i) (.fresh .worker)
        fun p log =>
          p = (.ok (reportOf (outcome, files)), some told) ∧ Session.captions log = asked := by
  intro i
  have hfits : Window.Fits longest := by
    constructor
    · rw [longest, String.length_ofList, List.length_replicate]
    · intro c hc
      rw [longest, String.toList_ofList] at hc
      rw [List.eq_of_mem_replicate hc]
      decide
  obtain ⟨-, -, outcome, told, files, inner, -, -, hforeground, hworker⟩ :=
    same_input reader .posix .empty i (fun _ => 0) (fun _ => some longest)
      fun _ line hline => Option.some.inj hline ▸ hfits
  have hsize : (Context.fresh .worker).worker.window.words.length = Window.standardSize :=
    List.length_replicate
  exact ⟨hfits, outcome, told, files, _, hforeground _, hworker _ rfl hsize⟩

end Strategy

end GuestShell
