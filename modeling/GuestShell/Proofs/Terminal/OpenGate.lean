import GuestShell.Proofs.Task.Runs
import GuestShell.Proofs.Terminal.WholeLines
import GuestShell.Terminal.Screen

/-!
# The screen behind an open gate

While the gate stays open, what a screen does is told by the text it shows and the screen it leaves
(`Shows`).  A screen at the start of a line shows of a chunk the lines that it completes, and stays at
the start of a line (`shows_write`); what is left without a line feed it shows when it is flushed
(`shows_flush`).  A screen on which nothing waits is left as it is by a passing text and by a line that
is read (`shows_status`, `shows_readLine`).
-/

namespace GuestShell.Screen

open SharedTask

variable {α β : Type} {s : Screen}

/-- The text that a request shows. -/
def Request.text : Request → String
  | .write text => text
  | .read _ => ""

/-- What passes between a screen and its terminal. -/
abbrev Log : Type := SharedTask.Log Gate Request Answer

/-- The text that is shown in the course of a log. -/
def shown (log : Log) : String := String.join (log.map fun e => e.1.1.text)

lemma shown_append (log log' : Log) : shown (log ++ log') = shown log ++ shown log' := by
  rw [shown, List.map_append, String.join_append]
  rfl

/-- Whatever is drawn behind a gate that stays open satisfies `Q`: its value, the screen that is
left, and the text that is shown. -/
def Shows (d : Drawing α) (s : Screen) (Q : α → Screen → String → Prop) : Prop :=
  ∀ (log : Log) (p : α × Screen) (g : Gate), Ran (d.run s) .opened log p g →
    (∀ e ∈ log, e.2.2 = .opened) → g = .opened ∧ Q p.1 p.2 (shown log)

/-! ## Rules -/

section

variable {Q R : α → Screen → String → Prop}

lemma shows_pure {a : α} (h : Q a s "") : Shows (pure a) s Q := by
  intro log p g hran _
  obtain ⟨rfl, rfl, rfl⟩ := ran_pure_iff.1 hran
  exact ⟨rfl, h⟩

lemma Shows.bind {d : Drawing β} {f : β → Drawing α} {R : β → Screen → String → Prop}
    (hd : Shows d s R)
    (hf : ∀ b s' t, R b s' t → Shows (f b) s' fun a s'' u => Q a s'' (t ++ u)) :
    Shows (d >>= f) s Q := by
  intro log p g hran hopen
  rw [StateT.run_bind] at hran
  obtain ⟨⟨b, s'⟩, g', before, after, rfl, hbefore, hafter⟩ := ran_bind_iff.1 hran
  obtain ⟨hopen, hopen'⟩ := List.forall_mem_append.1 hopen
  obtain ⟨rfl, hb⟩ := hd _ _ _ hbefore hopen
  rw [shown_append]
  exact hf b s' _ hb _ _ _ hafter hopen'

lemma Shows.imp {d : Drawing α} (h : Shows d s R) (himp : ∀ a s' t, R a s' t → Q a s' t) :
    Shows d s Q := fun log p g hran hopen =>
  (h log p g hran hopen).imp_right (himp _ _ _)

/-- The screen as it is decides on what is drawn. -/
lemma shows_get_bind {f : Screen → Drawing α} (h : Shows (f s) s Q) : Shows (get >>= f) s Q := h

lemma shows_modify_bind {g : Screen → Screen} {f : PUnit → Drawing α} (h : Shows (f ()) (g s) Q) :
    Shows (modify g >>= f) s Q := h

/-- The gate is open. -/
lemma shows_goesThrough_bind {f : Bool → Drawing α} (h : Shows (f true) s Q) :
    Shows (goesThrough >>= f) s Q := h

end

lemma shows_ask (r : Request) :
    Shows (ask r) s fun _ s' t => s' = s ∧ t = r.text := by
  intro log p g hran hopen
  obtain ⟨a, g', before, after, rfl, hask, hdone⟩ := ran_bind_iff.1 hran
  obtain rfl := ran_request_iff.1 hask
  obtain ⟨rfl, rfl, rfl⟩ := ran_pure_iff.1 hdone
  have hg : g = .opened := hopen _ (List.mem_append_left _ (List.mem_singleton.2 rfl))
  exact ⟨hg, rfl, by simp [shown]⟩

/-! ## Texts -/

lemma crlf_append (x y : String) : Text.crlf (x ++ y) = Text.crlf x ++ Text.crlf y := by
  rw [Text.crlf, String.toList_append, List.flatMap_append, String.ofList_append]
  rfl

/-- Whether the cursor is at the start of a line after a text that was begun there. -/
def endsLine (text : String) : Bool := text = "" || Text.endsWith text "\n"

/-- Such a text is empty or ends in a line feed. -/
lemma endsLine_iff {text : String} :
    endsLine text = true ↔ ∀ c ∈ text.toList.getLast?, c = '\n' := by
  have hends : Text.endsWith text "\n" = true ↔ text.toList.getLast? = some '\n' :=
    List.isSuffixOf_iff_suffix.trans List.singleton_suffix_iff_getLast?_eq_some
  rw [endsLine, Bool.or_eq_true, decide_eq_true_iff, hends, ← String.toList_inj]
  cases hlast : text.toList.getLast? with
  | none => simpa using hlast
  | some last =>
    have hne : text ≠ "" := by
      rintro rfl
      cases hlast
    simp [hne]

lemma shows_put (text : String) (hs : s.atLineStart = true) :
    Shows (put text) s fun _ s' t =>
      s' = { s with atLineStart := endsLine text } ∧ t = Text.crlf text := by
  refine shows_goesThrough_bind ?_
  by_cases htext : text = ""
  · subst htext
    refine shows_pure ⟨?_, rfl⟩
    have hends : endsLine "" = true := by decide
    rw [hends, ← hs]
  · have hends : endsLine text = Text.endsWith text "\n" := by simp [endsLine, htext]
    have hshown : (true && text != "") = true := by simpa using htext
    rw [hends]
    simp only [hshown, if_true]
    exact shows_modify_bind (shows_ask (.write (Text.crlf text)))

/-- Lines leave the cursor at the start of a line. -/
lemma shows_lines {texts : List String} (htexts : ∀ text ∈ texts, endsLine text = true)
    (hs : s.atLineStart = true) :
    Shows (texts.forM put) s fun _ s' t => s' = s ∧ t = Text.crlf (String.join texts) := by
  induction texts with
  | nil => exact shows_pure ⟨rfl, rfl⟩
  | cons text texts ih =>
    obtain ⟨htext, htexts⟩ := List.forall_mem_cons.1 htexts
    rw [List.forM_eq_forM, List.forM_cons]
    refine (shows_put text hs).bind ?_
    rintro - - - ⟨rfl, rfl⟩
    have hsame : { s with atLineStart := endsLine text } = s := by rw [htext, ← hs]
    rw [hsame]
    refine (ih htexts).imp ?_
    rintro - - - ⟨rfl, rfl⟩
    exact ⟨rfl, by rw [String.join_cons, crlf_append]⟩

/-! ## What programs do -/

lemma endsLine_decodeLossy {line : Bytes} (h : IsLine line) :
    endsLine (Text.decodeLossy line) = true := by
  obtain ⟨text, -, htext⟩ := h.text
  rw [htext, endsLine_iff]
  simp

/-- **A chunk shows the lines that it completes.** -/
theorem shows_write {chunk rest : Bytes} {lines : List Bytes} (hs : s.atLineStart = true)
    (h : Parted (s.buffer.pending ++ chunk) lines rest) :
    Shows (write chunk) s fun _ s' t => s' = ⟨⟨rest⟩, true⟩ ∧
      t = Text.crlf (String.join (lines.map Text.decodeLossy)) := by
  obtain ⟨buffer, atLineStart⟩ := s
  obtain rfl : atLineStart = true := hs
  have htexts : ∀ text ∈ lines.map Text.decodeLossy, endsLine text = true :=
    List.forall_mem_map.2 fun line hline => endsLine_decodeLossy (h.complete line hline)
  refine shows_goesThrough_bind (shows_get_bind ?_)
  rw [LineBuffer.write_of_parted h]
  exact shows_modify_bind (shows_lines htexts rfl)

/-- **Flushing shows what waits.** -/
theorem shows_flush (hs : s.atLineStart = true) :
    Shows flush s fun _ s' t => s' = ⟨.empty, endsLine (Text.decodeLossy s.buffer.pending)⟩ ∧
      t = Text.crlf (Text.decodeLossy s.buffer.pending) := by
  refine shows_get_bind ?_
  rw [LineBuffer.flush]
  obtain ⟨⟨pending⟩, atLineStart⟩ := s
  obtain rfl : atLineStart = true := hs
  by_cases hpending : pending = []
  · subst hpending
    exact shows_modify_bind (shows_pure ⟨rfl, rfl⟩)
  · rw [if_neg hpending]
    refine shows_modify_bind ?_
    rw [List.forM_eq_forM, List.forM_cons, List.forM_nil]
    refine (shows_put _ rfl).bind ?_
    rintro - - - ⟨rfl, rfl⟩
    exact shows_pure ⟨rfl, String.append_empty ..⟩

lemma shows_flush_fresh : Shows flush fresh fun _ s' t => s' = fresh ∧ t = "" :=
  shows_flush rfl

/-- A passing text is shown as it is. -/
lemma shows_status (text : String) :
    Shows (status text) fresh fun _ s' t => s' = fresh ∧ t = text := by
  refine shows_flush_fresh.bind ?_
  rintro - - - ⟨rfl, rfl⟩
  refine shows_goesThrough_bind ((shows_ask (.write text)).imp ?_)
  rintro - - - ⟨rfl, rfl⟩
  exact ⟨rfl, String.empty_append⟩

/-- Something that may be asked on the way leaves the screen as it is. -/
lemma shows_ask_if (b : Bool) (r : Request) {d : Drawing α}
    (h : Shows d fresh fun _ s' _ => s' = fresh) :
    Shows (if b then ask r >>= fun _ => d else d) fresh fun _ s' _ => s' = fresh := by
  cases b with
  | false => exact h
  | true =>
    refine (shows_ask r).bind ?_
    rintro - - - ⟨rfl, -⟩
    exact h

/-- After a line was read the cursor is at the start of the next one. -/
lemma shows_readLine (echoes : Bool) (caption : String) :
    Shows (readLine echoes caption) fresh fun _ s' _ => s' = fresh := by
  refine shows_flush_fresh.bind ?_
  rintro - - - ⟨rfl, -⟩
  refine shows_ask_if (caption != "") (.write eraseCaption) ?_
  refine (shows_ask (.read caption)).bind ?_
  rintro r - - ⟨rfl, -⟩
  have hend : Shows (do modify fun s => { s with atLineStart := true }; return r) fresh
      fun _ s' _ => s' = fresh := shows_modify_bind (shows_pure rfl)
  cases r with
  | abandoned => exact shows_pure rfl
  | line text => exact shows_ask_if (!echoes) (.write nextLine) hend
  | ended => exact shows_ask_if (!echoes) (.write nextLine) hend

end GuestShell.Screen
