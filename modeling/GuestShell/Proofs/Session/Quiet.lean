import GuestShell.Proofs.Run.Hearing
import GuestShell.Proofs.Session.Captured

/-!
# Sessions that nobody disturbs

What a run shows and asks is read off its log: the chunks of output (`Run.output`), and the captions
with which it asks for lines (`Run.captions`).  Two logs that tell the same story agree in both
(`output_story`, `captions_story`).

The log of a session has the same things and more, as whoever is in between may ask, too.  In a
`Quiet` session nobody gives a question up and nobody touches the context meanwhile.
-/

namespace GuestShell

/-! ## Sequences -/

/-- The list is the beginning of a sequence. -/
def Follows {α : Type} (f : ℕ → α) (as : List α) : Prop := as = (List.range as.length).map f

section

variable {α : Type} {f : ℕ → α} {as : List α}

lemma follows_append_singleton {a : α} :
    Follows f (as ++ [a]) ↔ Follows f as ∧ a = f as.length := by
  rw [Follows, List.length_append, List.length_singleton, List.range_succ, List.map_append]
  constructor
  · intro h
    obtain ⟨has, ha⟩ := List.append_inj h (by simp)
    exact ⟨has, List.singleton_inj.1 ha⟩
  · rintro ⟨has, rfl⟩
    exact congrArg (· ++ _) has

lemma follows_of_forall {a : α} (h : ∀ x ∈ as, x = a) : Follows (fun _ => a) as := by
  rw [Follows, List.map_const', List.length_range]
  exact List.eq_replicate_iff.2 ⟨rfl, h⟩

lemma Follows.map {β : Type} (h : Follows f as) (g : α → β) : Follows (g ∘ f) (as.map g) := by
  rw [Follows, List.length_map, ← List.map_map, ← h]

lemma Follows.beginning (h : Follows f as) {n : ℕ} (hn : as.length ≤ n) :
    as <+: (List.range n).map f := by
  rw [Follows] at h
  rw [h]
  obtain ⟨k, rfl⟩ := Nat.exists_eq_add_of_le hn
  rw [List.range_add, List.map_append]
  exact List.prefix_append ..

end

/-! ## Captions -/

namespace Caption

/-- The caption after a request was answered. -/
def after (c : Caption) : (q : Run.Request) → Run.Answer q → Caption
  | .stdout chunk, _ => c.feed chunk
  | .readLine, some line => c.feedInput line
  | .readLine, none | .stderr _, _ | .isInterrupted, _ | .clock, _ | .epoch, _ | .note _, _ => c

/-- The captions that a request asks with. -/
def asked (c : Caption) : Run.Request → List String
  | .readLine => [c.text]
  | _ => []

/-- After a line the screen is at the beginning of a new one, whether the line feed was typed or not.
-/
lemma feedInput_eq_empty (c : Caption) (line : String) : c.feedInput line = empty := by
  rw [feedInput]
  split_ifs with hends
  · obtain ⟨before, hline⟩ := List.isSuffixOf_iff_suffix.1 hends
    have hline : line.toList = before ++ ['\n'] := hline.symm
    have hlast : Text.lastPiece (· == '\n') line.toList = [] := by
      rw [Text.lastPiece, hline, List.reverse_append]
      rfl
    have hcontains : line.toList.contains '\n' = true := by simp [hline]
    simp only [feed, Text.decodeLossy_encode, hcontains, if_true, hlast]
    rfl
  · rfl

end Caption

namespace Run

/-! ## Runs -/

/-- The chunks of output, as a worker reports them. -/
def output (log : Log) : List Worker.Event := log.flatMap fun e => Background.eventsOf e.1

/-- The captions with which lines were asked for, from a caption on. -/
def captions (c : Caption) : Log → List String
  | [] => []
  | ⟨q, a⟩ :: log => c.asked q ++ captions (c.after q a) log

lemma output_story (log : Log) : output (story log) = output log := by
  induction log with
  | nil => rfl
  | cons e log ih =>
    obtain ⟨q, a⟩ := e
    cases q with
    | epoch => exact ih
    | _ => exact congrArg (_ ++ ·) ih

lemma captions_story (c : Caption) (log : Log) : captions c (story log) = captions c log := by
  induction log generalizing c with
  | nil => rfl
  | cons e log ih =>
    obtain ⟨q, a⟩ := e
    cases q with
    | epoch => exact ih c
    | stdout chunk => exact ih (c.feed chunk)
    | readLine =>
      cases a with
      | none => exact congrArg (c.text :: ·) (ih c)
      | some line =>
        -- the caption goes on from an empty one, with the line feed as without
        refine congrArg (c.text :: ·) ((ih (c.feedInput (ended line))).trans ?_)
        rw [Caption.feedInput_eq_empty]
        exact congrArg (captions · log) (c.feedInput_eq_empty line).symm
    | stderr chunk | isInterrupted | clock | note o => exact congrArg (_ ++ ·) (ih c)

/-- What is captured of a run is captured of its output. -/
lemma addAll_eq_of_output (log : Log) : Capture.empty.addAll log =
    ((output log).foldl Background.Harvest.add .empty).capture :=
  congrArg Background.Harvest.capture (Background.foldl_add_eventsOf .empty log).symm

/-! ## Courses -/

/-- Nobody disturbs the run, and clock and lines are as given. -/
structure Given (clock : ℕ → Moment) (lines : ℕ → Option String) (log : Log) : Prop where
  undisturbed : ∃ epoch, Undisturbed epoch (clocksOf log) log
  clock : Follows clock (clocksOf log)
  lines : Follows lines ((Stdin.answersIn log).map (Option.map ended))

/-- **What is given to a run decides on its course.** -/
theorem same_course {α : Type} {r : Running α} (hignores : r.Ignores heard) (hheedless : Heedless r)
    {clock : ℕ → Moment} {lines : ℕ → Option String} {log₁ log₂ : Log} {a₁ a₂ : α}
    (h₁ : Task.Runs r log₁ a₁) (h₂ : Task.Runs r log₂ a₂) (hgiven₁ : Given clock lines log₁)
    (hgiven₂ : Given clock lines log₂) :
    a₁ = a₂ ∧ output log₁ = output log₂ ∧ captions .empty log₁ = captions .empty log₂ := by
  obtain ⟨⟨epoch₁, hundisturbed₁⟩, hclock₁, hlines₁⟩ := hgiven₁
  obtain ⟨⟨epoch₂, hundisturbed₂⟩, hclock₂, hlines₂⟩ := hgiven₂
  -- so much of both sequences is enough for both runs
  let clocks := (List.range (max (clocksOf log₁).length (clocksOf log₂).length)).map clock
  let answers := (List.range (max ((Stdin.answersIn log₁).map (Option.map ended)).length
    ((Stdin.answersIn log₂).map (Option.map ended)).length)).map lines
  have hears₁ : Hears clocks answers log₁ := hundisturbed₁.hears
    (hclock₁.beginning (Nat.le_max_left ..)) (hlines₁.beginning (Nat.le_max_left ..))
  have hears₂ : Hears clocks answers log₂ := hundisturbed₂.hears
    (hclock₂.beginning (Nat.le_max_right ..)) (hlines₂.beginning (Nat.le_max_right ..))
  obtain ⟨rfl, hstory⟩ := runs_unique hignores hheedless h₁ h₂ hears₁ hears₂
    hundisturbed₁.inEpoch hundisturbed₂.inEpoch
  refine ⟨rfl, ?_, ?_⟩
  · rw [← output_story log₁, ← output_story log₂, hstory]
  · rw [← captions_story _ log₁, ← captions_story _ log₂, hstory]

end Run

/-! ## Sessions -/

namespace Session

open Background

/-- What the clock showed, each time somebody looked. -/
def clocksOf (log : Log) : List Moment :=
  log.filterMap fun
    | ⟨(.clock, _), (now, _)⟩ => some now
    | _ => none

/-- What was typed where a line was asked for, without a line feed; none is the end of input. -/
def typed (log : Log) : List (Option String) :=
  log.filterMap fun
    | ⟨(.prompt _, _), (line, _)⟩ => some line
    | ⟨(.readLine _, _), (.line text, _)⟩ => some (some text)
    | ⟨(.readLine _, _), (.ended, _)⟩ => some none
    | _ => none

/-- The captions with which lines were asked for. -/
def captions (log : Log) : List String :=
  (requests log).filterMap fun
    | .prompt caption => some caption
    | .readLine caption => some caption
    | _ => none

/-- The chunks that were shown. -/
def output (log : Log) : List Worker.Event :=
  (requests log).filterMap fun
    | .stdout chunk => some (.stdout chunk)
    | .stderr chunk => some (.stderr chunk)
    | _ => none

/-- Nobody gives a question up, and nobody touches the context. -/
structure Quiet (log : Log) : Prop where
  answered : gaveUp log = false
  untouched : ∀ e ∈ log, e.2.2 = e.1.2

variable {before after : Log}

lemma quiet_append : Quiet (before ++ after) ↔ Quiet before ∧ Quiet after := by
  constructor
  · rintro ⟨hgave, hsame⟩
    rw [gaveUp_append, Bool.or_eq_false_iff] at hgave
    rw [List.forall_mem_append] at hsame
    exact ⟨⟨hgave.1, hsame.1⟩, ⟨hgave.2, hsame.2⟩⟩
  · rintro ⟨⟨hgave, hsame⟩, ⟨hgave', hsame'⟩⟩
    refine ⟨?_, List.forall_mem_append.2 ⟨hsame, hsame'⟩⟩
    rw [gaveUp_append, hgave, hgave']
    rfl

lemma quiet_cons {e : (q : Request × Context) × (Answer q.1 × Context)} :
    Quiet (e :: after) ↔ Quiet [e] ∧ Quiet after := by
  rw [← quiet_append]
  rfl

@[simp] lemma clocksOf_append : clocksOf (before ++ after) = clocksOf before ++ clocksOf after :=
  List.filterMap_append

@[simp] lemma typed_append : typed (before ++ after) = typed before ++ typed after :=
  List.filterMap_append

@[simp] lemma captions_append : captions (before ++ after) = captions before ++ captions after := by
  rw [captions, requests_append]
  exact List.filterMap_append

@[simp] lemma output_append : output (before ++ after) = output before ++ output after := by
  rw [output, requests_append]
  exact List.filterMap_append

/-! ## Attended sessions -/

/-- Nobody disturbs the session, and the clock and what is typed are as given. -/
structure Attended (clock : ℕ → Moment) (answers : ℕ → Option String) (log : Log) : Prop where
  quiet : Quiet log
  clock : Follows clock (clocksOf log)
  typed : Follows answers (typed log)

/-- If the session is attended to, then it comes to this. -/
def ComesTo {α : Type} (clock : ℕ → Moment) (answers : ℕ → Option String) (t : Sitting α)
    (c : Context) (P : α → Log → Prop) : Prop :=
  (∃ log a c', SharedTask.Ran t c log a c' ∧ Attended clock answers log) ∧
    ∀ log a c', SharedTask.Ran t c log a c' → Attended clock answers log → P a log

/-- What the line editor comes to with a line that is typed. -/
def Reading.ofLine : Option String → Reading
  | some text => .line text
  | none => .ended

/-- Surroundings that attend to a session, and go by what there was before. -/
def attentive (clock : ℕ → Moment) (answers : ℕ → Option String) (before : Log) :
    (q : Request × Context) → Answer q.1 × Context
  | (.stdout _, c) => ((), c)
  | (.stderr _, c) => ((), c)
  | (.readLine _, c) => (.ofLine (answers (typed before).length), c)
  | (.prompt _, c) => (answers (typed before).length, c)
  | (.hasTurn .., c) => (true, c)
  | (.clock, c) => (clock (clocksOf before).length, c)
  | (.note _, c) => ((), c)

lemma attended_of_obeys {clock : ℕ → Moment} {answers : ℕ → Option String} {log : Log}
    (h : Task.Obeys (attentive clock answers) log) : Attended clock answers log := by
  -- on the last entry, as each answer goes by what there was before
  induction log using List.reverseRecOn with
  | nil => exact ⟨⟨rfl, by simp⟩, rfl, rfl⟩
  | append_singleton before e ih =>
    obtain ⟨⟨q, c⟩, a, c'⟩ := e
    have hlast := h before (q, c) (a, c') [] rfl
    have hbefore : Task.Obeys (attentive clock answers) before := by
      rintro first o r rest rfl
      exact h first o r (rest ++ [_]) (List.append_assoc ..)
    obtain ⟨hquiet, hclock, htyped⟩ := ih hbefore
    have hone : gaveUp [⟨(q, c), (a, c')⟩] = false ∧ c' = c := by
      cases q with
      | readLine caption =>
        obtain ⟨rfl, rfl⟩ := Prod.mk.inj hlast
        cases answers (typed before).length <;> exact ⟨rfl, rfl⟩
      | _ =>
        obtain ⟨-, rfl⟩ := Prod.mk.inj hlast
        exact ⟨rfl, rfl⟩
    refine ⟨quiet_append.2 ⟨hquiet, hone.1, by simpa using hone.2⟩, ?_, ?_⟩
    · rw [clocksOf_append]
      cases q with
      | clock => exact follows_append_singleton.2 ⟨hclock, (Prod.mk.inj hlast).1⟩
      | _ => exact (List.append_nil (clocksOf before)).symm ▸ hclock
    · rw [typed_append]
      cases q with
      | prompt caption => exact follows_append_singleton.2 ⟨htyped, (Prod.mk.inj hlast).1⟩
      | readLine caption =>
        obtain ⟨rfl, rfl⟩ := Prod.mk.inj hlast
        have hline : typed [⟨(.readLine caption, c'),
            (.ofLine (answers (typed before).length), c')⟩] = [answers (typed before).length] := by
          cases answers (typed before).length <;> rfl
        exact hline ▸ follows_append_singleton.2 ⟨htyped, rfl⟩
      | _ => exact (List.append_nil (typed before)).symm ▸ htyped

lemma exists_attended {α : Type} (clock : ℕ → Moment) (answers : ℕ → Option String) (t : Sitting α)
    (c : Context) : ∃ log a c', SharedTask.Ran t c log a c' ∧ Attended clock answers log :=
  ⟨_, _, _, Task.runs_trace (attentive clock answers) (t c), attended_of_obeys (Task.obeys_trace _ _)⟩

end Session

end GuestShell
