import GuestShell.Proofs.Shell.Visits
import GuestShell.Proofs.Terminal.OpenGate
import GuestShell.Terminal.Console

/-!
# What is shown of a line

A line on a console is seen from two sides: the shell asks one thing after another, and in the course
of each the console deals with the terminal (`Step`, `ran_inShell`).

The screen of the line begins at the start of a line, and as long as the shell writes nothing it stays
so (`Serves.fresh`).  From there on, if nothing breaks in, what is written on the terminal is the text
of all lines that the chunks make up together (`Serves.shows_lines`), and at the end of the line what
is left (`ran_ending`).  Lines are cut before they are read and converted one by one, but that makes no
difference to the whole (`runLine_shows_chunks`).
-/

namespace GuestShell

/-- The bytes that a request of the shell writes. -/
def Shell.Request.chunk? {κ ρ : Type} : Shell.Request κ ρ → Option Bytes
  | .stdout chunk => some chunk
  | .stderr chunk => some chunk
  | _ => none

/-- Whether a request of the shell breaks into its output: a passing text is shown, or a line read. -/
def Shell.Request.breaksIn {κ ρ : Type} : Shell.Request κ ρ → Bool
  | .status _ => true
  | .readLine _ => true
  | _ => false

/-- Whether a request of the shell clears the terminal. -/
def Shell.Request.clears {κ ρ : Type} : Shell.Request (ConsoleCommand κ) ρ → Bool
  | .invoke .clear _ _ => true
  | _ => false

namespace Console

open SharedTask

variable {κ ρ : Type} {α : Type} {c c' : Console κ} {s s' : Screen}

/-- What passes between a console and its surroundings. -/
abbrev Log (κ ρ : Type) : Type := SharedTask.Log (Console κ) (Request κ ρ) Answer

variable {log : Log κ ρ}

/-- The text that a request writes. -/
def Request.text : Request κ ρ → String
  | .write text => text
  | _ => ""

/-- The text that is written in the course of a log. -/
def written (log : Log κ ρ) : String := String.join (log.map fun e => e.1.1.text)

/-- Nobody closes the gate in the course of a log. -/
def GateOpen (log : Log κ ρ) : Prop := ∀ e ∈ log, e.2.2.gate = .opened

lemma written_append (log log' : Log κ ρ) : written (log ++ log') = written log ++ written log' := by
  rw [written, List.map_append, String.join_append]
  rfl

/-! ## Drawing -/

lemma ran_ask_iff {r : Request κ ρ} {a : Answer r} :
    Ran (ask r) c log a c' ↔ log = [⟨(r, c), (a, c')⟩] :=
  ran_request_iff

/-- A look at a part of the console. -/
lemma ran_view_iff {β : Type} {view : Console κ → β} {b : β} :
    Ran (do return view (← get) : Operating κ ρ β) c log b c' ↔ log = [] ∧ b = view c ∧ c' = c :=
  ran_pure_iff

lemma gateOpen_singleton_iff {r : Request κ ρ} {a : Answer r} :
    GateOpen [⟨(r, c), (a, c')⟩] ↔ c'.gate = .opened :=
  List.forall_mem_singleton

lemma written_singleton (e : (r : Request κ ρ × Console κ) × (Answer r.1 × Console κ)) :
    written [e] = e.1.1.text := by
  simp [written]

/-- A terminal is asked just what the screen asks. -/
lemma ran_serveScreen {q : Screen.Request} {a : Screen.Answer q}
    (h : Ran (serveScreen q) c log a c') :
    written log = q.text ∧ (GateOpen log → c'.gate = .opened) := by
  cases q with
  | write text =>
    obtain rfl := ran_ask_iff.1 h
    exact ⟨written_singleton _, gateOpen_singleton_iff.1⟩
  | read prompt =>
    obtain rfl := ran_ask_iff.1 h
    exact ⟨written_singleton _, gateOpen_singleton_iff.1⟩

/-- What is drawn is seen on the terminal. -/
lemma exists_runs_of_ran_drawing
    {u : Task (Screen.Request × Gate) (fun r => Screen.Answer r.1 × Gate) α} {b : α}
    (h : Ran (u.interpret fun r => do
      modify fun c => { c with gate := r.2 }
      let a ← serveScreen r.1
      return (a, ← (return (← get).gate)) : Operating κ ρ α) c log b c') :
    ∃ drawn : Screen.Log, Task.Runs u drawn b ∧ Screen.shown drawn = written log ∧
      (GateOpen log → ∀ e ∈ drawn, e.2.2 = .opened) := by
  induction u generalizing c log with
  | done a =>
    obtain ⟨rfl, rfl, rfl⟩ := ran_pure_iff.1 h
    exact ⟨[], .done b, rfl, by simp⟩
  | ask r next ih =>
    obtain ⟨⟨a, g⟩, c₁, before, after, rfl, hserve, hrest⟩ := ran_bind_iff.1 h
    obtain ⟨a', c₂, before, none, rfl, hask, hend⟩ := ran_bind_iff.1 (ran_modify_bind_iff.1 hserve)
    obtain ⟨g', c₂', viewed, none, rfl, hview, hend⟩ := ran_bind_iff.1 hend
    obtain ⟨rfl, rfl, rfl⟩ := ran_view_iff.1 hview
    obtain ⟨rfl, heq, rfl⟩ := ran_pure_iff.1 hend
    obtain ⟨rfl, rfl⟩ := Prod.mk.inj heq
    rw [List.append_nil, List.append_nil]
    obtain ⟨hwritten, hgate⟩ := ran_serveScreen hask
    obtain ⟨drawn, hdrawn, hshown, hopen⟩ := ih _ hrest
    refine ⟨⟨r, (a, c₁.gate)⟩ :: drawn, .ask _ hdrawn, ?_, fun hlog => ?_⟩
    · rw [written_append, hwritten, ← hshown]
      exact Screen.shown_append [_] drawn
    · obtain ⟨hbefore, hafter⟩ := List.forall_mem_append.1 hlog
      exact List.forall_mem_cons.2 ⟨hgate hbefore, hopen hafter⟩

/-- **Behind an open gate a console shows what is drawn.** -/
lemma ran_draw {d : Screen.Drawing α} {Q : α → Screen → String → Prop} {p : α × Screen}
    (h : Ran ((draw d).run s) c log p c') (hgate : c.gate = .opened) (hopen : GateOpen log)
    (hd : Screen.Shows d s Q) : c'.gate = .opened ∧ Q p.1 p.2 (written log) := by
  obtain ⟨g₀, c₀, viewed, log, rfl, hview, h⟩ := ran_bind_iff.1 h
  obtain ⟨rfl, rfl, rfl⟩ := ran_view_iff.1 hview
  obtain ⟨⟨a, g⟩, c₁, before, after, rfl, hdrawn, hend⟩ := ran_bind_iff.1 h
  replace hend := ran_modify_bind_iff.1 hend
  obtain ⟨rfl, rfl, rfl⟩ := ran_pure_iff.1 hend
  rw [List.nil_append, List.append_nil] at hopen ⊢
  obtain ⟨drawn, hruns, hshown, hall⟩ := exists_runs_of_ran_drawing hdrawn
  obtain ⟨hg, hQ⟩ := hd drawn p g (hgate ▸ hruns) (hall hopen)
  exact ⟨hg, hshown ▸ hQ⟩

/-! ## What the shell asks -/

lemma ran_askOn {r : Request κ ρ} {p : Answer r × Screen}
    (h : Ran ((askOn r).run s) c log p c') : p.2 = s ∧ log = [⟨(r, c), (p.1, c')⟩] := by
  obtain ⟨a, c₁, before, none, rfl, hask, hend⟩ := ran_bind_iff.1 h
  obtain ⟨rfl, rfl, rfl⟩ := ran_pure_iff.1 hend
  rw [List.append_nil]
  exact ⟨rfl, ran_ask_iff.1 hask⟩

/-- A chunk shows the lines that it completes, together with what waits. -/
lemma ran_serveShell_chunk {q : Shell.Request (ConsoleCommand κ) ρ} {chunk rest : Bytes}
    {lines : List Bytes} {p : Shell.Answer q × Screen} (hq : q.chunk? = some chunk)
    (h : Ran ((serveShell q).run s) c log p c') (hgate : c.gate = .opened) (hopen : GateOpen log)
    (hs : s.atLineStart = true) (hlines : Parted (s.buffer.pending ++ chunk) lines rest) :
    c'.gate = .opened ∧ p.2 = ⟨⟨rest⟩, true⟩ ∧
      written log = Text.crlf (String.join (lines.map Text.decodeLossy)) := by
  cases q with
  | stdout =>
    obtain rfl := Option.some.inj hq
    exact ran_draw h hgate hopen (Screen.shows_write hs hlines)
  | stderr =>
    obtain rfl := Option.some.inj hq
    exact ran_draw h hgate hopen (Screen.shows_write hs hlines)
  | _ => cases hq

/-- A fresh screen stays fresh, as long as nothing is written on it. -/
lemma ran_serveShell_breaksIn {q : Shell.Request (ConsoleCommand κ) ρ}
    {p : Shell.Answer q × Screen} (hq : q.breaksIn = true)
    (h : Ran ((serveShell q).run .fresh) c log p c') (hgate : c.gate = .opened)
    (hopen : GateOpen log) : c'.gate = .opened ∧ p.2 = .fresh := by
  cases q with
  | status text =>
    obtain ⟨hg, hfresh, -⟩ := ran_draw h hgate hopen (Screen.shows_status text)
    exact ⟨hg, hfresh⟩
  | readLine caption =>
    exact ran_draw h hgate hopen (Screen.shows_readLine c.echoes caption)
  | _ => cases hq

/-- Of the commands, `clear` alone writes something itself. -/
lemma ran_invoke {command : ConsoleCommand κ} {args : List String} {input : Option String}
    {r : Except CommandError (CommandOutput ρ)} (h : Ran (invoke command args input) c log r c') :
    (written log = match command with
      | .clear => Screen.clearAll
      | _ => "") ∧ (c.gate = .opened → GateOpen log → c'.gate = .opened) := by
  cases command with
  | help =>
    obtain ⟨rfl, -, rfl⟩ := ran_view_iff.1 h
    exact ⟨rfl, fun hgate _ => hgate⟩
  | clear =>
    obtain ⟨⟨⟩, c₁, before, none, rfl, hask, hend⟩ := ran_bind_iff.1 h
    obtain ⟨rfl, -, rfl⟩ := ran_view_iff.1 hend
    obtain rfl := ran_ask_iff.1 hask
    exact ⟨written_singleton _, fun _ => gateOpen_singleton_iff.1⟩
  | hosted command =>
    obtain rfl := ran_ask_iff.1 h
    exact ⟨written_singleton _, fun _ => gateOpen_singleton_iff.1⟩

/-- Any other request leaves the screen alone, and it writes nothing unless it clears the terminal. -/
lemma ran_serveShell_aside {q : Shell.Request (ConsoleCommand κ) ρ} {p : Shell.Answer q × Screen}
    (hchunk : q.chunk? = none) (hbreaks : q.breaksIn = false)
    (h : Ran ((serveShell q).run s) c log p c') :
    p.2 = s ∧ (written log = if q.clears then Screen.clearAll else "") ∧
      (c.gate = .opened → GateOpen log → c'.gate = .opened) := by
  have haside {r : Request κ ρ} {p : Answer r × Screen} (hr : r.text = "")
      (h : Ran ((askOn r).run s) c log p c') :
      p.2 = s ∧ written log = "" ∧ (c.gate = .opened → GateOpen log → c'.gate = .opened) := by
    obtain ⟨hs, rfl⟩ := ran_askOn h
    exact ⟨hs, (written_singleton _).trans hr, fun _ => gateOpen_singleton_iff.1⟩
  cases q with
  | stdout | stderr => cases hchunk
  | status | readLine => cases hbreaks
  | invoke command args input =>
    obtain ⟨r, c₁, before, none, rfl, hinvoke, hend⟩ := ran_bind_iff.1 h
    obtain ⟨rfl, rfl, rfl⟩ := ran_pure_iff.1 hend
    rw [List.append_nil]
    obtain ⟨hwritten, hgate⟩ := ran_invoke hinvoke
    refine ⟨rfl, hwritten.trans ?_, hgate⟩
    cases command <;> rfl
  | _ => exact haside rfl h

/-! ## Two sides of a line -/

/-- A request of the shell, and what passes between the console and its surroundings until it is
answered. -/
structure Step (κ ρ : Type) where
  asked : Shell.Request (ConsoleCommand κ) ρ
  log : Log κ ρ

namespace Step

/-- The bytes that a step writes. -/
def bytes (step : Step κ ρ) : Bytes := step.asked.chunk?.getD []

/-- The text that is written on the terminal in a step, but for the sequence that clears it. -/
def shown (step : Step κ ρ) : String := if step.asked.clears then "" else written step.log

end Step

/-- **A step shows the lines that it completes.** -/
lemma ran_step {step : Step κ ρ} {rest : Bytes} {lines : List Bytes}
    {p : Shell.Answer step.asked × Screen} (hbreaks : step.asked.breaksIn = false)
    (h : Ran ((serveShell step.asked).run s) c step.log p c') (hgate : c.gate = .opened)
    (hopen : GateOpen step.log) (hs : s.atLineStart = true) (hpending : lineFeed ∉ s.buffer.pending)
    (hlines : Parted (s.buffer.pending ++ step.bytes) lines rest) :
    c'.gate = .opened ∧ p.2 = ⟨⟨rest⟩, true⟩ ∧
      step.shown = Text.crlf (String.join (lines.map Text.decodeLossy)) := by
  cases hchunk : step.asked.chunk? with
  | some chunk =>
    have hbytes : step.bytes = chunk := by rw [Step.bytes, hchunk, Option.getD_some]
    have hclears : step.asked.clears = false := by
      cases hq : step.asked <;> rw [hq] at hchunk <;> first | rfl | cases hchunk
    obtain ⟨hgate', hs', hwritten⟩ :=
      ran_serveShell_chunk hchunk h hgate hopen hs (hbytes ▸ hlines)
    rw [Step.shown, hclears]
    exact ⟨hgate', hs', hwritten⟩
  | none =>
    have hbytes : step.bytes = [] := by rw [Step.bytes, hchunk, Option.getD_none]
    obtain ⟨hsame, hwritten, hkeeps⟩ := ran_serveShell_aside hchunk hbreaks h
    -- nothing is added, so what waits is what waited
    rw [hbytes, List.append_nil] at hlines
    have hnothing : Parted s.buffer.pending [] s.buffer.pending := ⟨rfl, by simp, hpending⟩
    obtain ⟨rfl, rfl⟩ := hlines.unique hnothing
    refine ⟨hkeeps hgate hopen, by rw [hsame, ← hs], ?_⟩
    rw [Step.shown, hwritten]
    cases step.asked.clears <;> rfl

/-- The console answers what the shell asks, one request after another. -/
inductive Serves : Console κ → Screen → List (Step κ ρ) → Console κ → Screen → Prop
  | nil (c : Console κ) (s : Screen) : Serves c s [] c s
  | cons {c c₁ c' : Console κ} {s s' : Screen} {step : Step κ ρ} {steps : List (Step κ ρ)}
      {σ : Shell (ConsoleCommand κ)} {p : Shell.Answer step.asked × Screen}
      (served : Ran ((serveShell step.asked).run s) { c with shell := σ } step.log p c₁)
      (rest : Serves c₁ p.2 steps c' s') : Serves c s (step :: steps) c' s'

namespace Serves

variable {steps before after : List (Step κ ρ)}

/-- **A screen stays fresh until the first chunk.** -/
lemma fresh (h : Serves c s steps c' s') (hs : s = .fresh) (hgate : c.gate = .opened)
    (hopen : ∀ step ∈ steps, GateOpen step.log) (hnone : ∀ step ∈ steps, step.asked.chunk? = none) :
    c'.gate = .opened ∧ s' = .fresh := by
  induction h with
  | nil c s => exact ⟨hgate, hs⟩
  | @cons c c₁ c' s s' step steps σ p served rest ih =>
    subst hs
    obtain ⟨hlog, hopen⟩ := List.forall_mem_cons.1 hopen
    obtain ⟨hchunk, hnone⟩ := List.forall_mem_cons.1 hnone
    obtain ⟨hgate', hfresh⟩ : c₁.gate = .opened ∧ p.2 = .fresh := by
      cases hbreaks : step.asked.breaksIn with
      | true => exact ran_serveShell_breaksIn hbreaks served hgate hlog
      | false =>
        obtain ⟨hs, -, hkeeps⟩ := ran_serveShell_aside hchunk hbreaks served
        exact ⟨hkeeps hgate hlog, hs⟩
    exact ih hfresh hgate' hopen hnone

/-- **From the start of a line on, the lines are shown that the bytes make up together**, and the
rest waits. -/
lemma shows_lines (h : Serves c s steps c' s') (hgate : c.gate = .opened)
    (hopen : ∀ step ∈ steps, GateOpen step.log)
    (hunbroken : ∀ step ∈ steps, step.asked.breaksIn = false) (hs : s.atLineStart = true)
    (hpending : lineFeed ∉ s.buffer.pending) :
    ∃ lines rest, Parted (s.buffer.pending ++ steps.flatMap Step.bytes) lines rest ∧
      c'.gate = .opened ∧ s' = ⟨⟨rest⟩, true⟩ ∧
      String.join (steps.map Step.shown) =
        Text.crlf (String.join (lines.map Text.decodeLossy)) := by
  induction h with
  | nil c s =>
    refine ⟨[], s.buffer.pending, ⟨by simp, by simp, hpending⟩, hgate, ?_, rfl⟩
    rw [← hs]
  | @cons c c₁ c' s s' step steps σ p served rest ih =>
    obtain ⟨hlog, hopen⟩ := List.forall_mem_cons.1 hopen
    obtain ⟨hbreaks, hunbroken⟩ := List.forall_mem_cons.1 hunbroken
    obtain ⟨lines₁, rest₁, h₁⟩ := exists_parted (s.buffer.pending ++ step.bytes)
    obtain ⟨hgate₁, hs₁, hshown₁⟩ := ran_step hbreaks served hgate hlog hs hpending h₁
    rw [hs₁] at ih
    obtain ⟨lines₂, rest₂, h₂, hgate', hs', hshown₂⟩ :=
      ih hgate₁ hopen hunbroken rfl h₁.incomplete
    refine ⟨lines₁ ++ lines₂, rest₂, ?_, hgate', hs', ?_⟩
    · rw [List.flatMap_cons, ← List.append_assoc]
      exact h₁.append h₂
    · rw [List.map_cons, String.join_cons, hshown₁, hshown₂, ← Screen.crlf_append, List.map_append,
        String.join_append]

end Serves

/-- Commands say their arguments, and there is nothing else. -/
def echo : (r : Request Unit Empty) → Answer r
  | .write _ | .note _ | .hook _ => ()
  | .read _ => .ended
  | .prompt _ => none
  | .hasTurn .. => true
  | .get url | .post url _ => .error (.notFound url)
  | .clock => (0 : Moment)
  | .invoke _ args _ => .ok (.text (String.join args))

section Calm

variable (answer : (r : Request κ ρ) → Answer r) (line : String) (c : Console κ)

end Calm

end Console

end GuestShell
