import GuestShell.Session.Background
import GuestShell.Proofs.Task.Runs
import Mathlib.Tactic.Lemma
import Mathlib.Tactic.SplitIfs

/-!
# Attending to events

A run of attending is taken apart as a run of the shell is: one law for each way of putting parts
together, then one for each event, then a whole inbox by induction (`shown_attendAll`).

What the side of the terminal does with an event is to show it (`asked`) and to keep what it brings
(`Harvest.add`).  It goes on with the next one unless the line editor has given a question up
(`gaveUp`), or the event was the last one of the run.
-/

namespace GuestShell

/-- Nothing comes after this event. -/
def Worker.Event.isLast : Worker.Event → Bool
  | .finished _ => true
  | _ => false

namespace Background

variable {α β : Type} {d d' : Desk} {c c' : Context}

/-! ## Runs of attending -/

/-- What passes between attending and its surroundings. -/
abbrev Log : Type := SharedTask.Log Context Session.Request Session.Answer

/-- What was asked, the first request first. -/
def requests (log : Log) : List Session.Request := log.map (·.1.1)

@[simp] lemma requests_append (before after : Log) :
    requests (before ++ after) = requests before ++ requests after :=
  List.map_append

/-- One way through attending, from a desk and a context to a desk and a context. -/
def Ran (t : Attending α) (d : Desk) (c : Context) (log : Log) (r : Except Ending α) (d' : Desk)
    (c' : Context) : Prop :=
  SharedTask.Ran (t.run.run d) c log (r, d') c'

section Runs

variable {log : Log} {r : Except Ending α}

lemma ran_pure_iff {a : α} :
    Ran (pure a) d c log r d' c' ↔ log = [] ∧ r = .ok a ∧ d' = d ∧ c' = c := by
  refine SharedTask.ran_pure_iff.trans (and_congr_right fun _ => ?_)
  rw [Prod.mk.injEq, and_assoc]

lemma ran_throw_iff {e : Ending} :
    Ran (throw e : Attending α) d c log r d' c' ↔ log = [] ∧ r = .error e ∧ d' = d ∧ c' = c := by
  refine SharedTask.ran_pure_iff.trans (and_congr_right fun _ => ?_)
  rw [Prod.mk.injEq, and_assoc]

lemma run_bind (t : Attending β) (f : β → Attending α) (d : Desk) :
    (t >>= f).run.run d = t.run.run d >>= fun p => match p with
      | (.error e, d₁) => pure (.error e, d₁)
      | (.ok b, d₁) => (f b).run.run d₁ := by
  rw [ExceptT.run_bind, StateT.run_bind]
  refine bind_congr fun p => ?_
  obtain ⟨_ | _, _⟩ := p <;> rfl

/-- What ends the first part ends both; else the second follows. -/
lemma ran_bind_iff {t : Attending β} {f : β → Attending α} :
    Ran (t >>= f) d c log r d' c' ↔
      (∃ e, r = .error e ∧ Ran t d c log (.error e) d' c') ∨
        ∃ b d₁ c₁ before after, log = before ++ after ∧ Ran t d c before (.ok b) d₁ c₁ ∧
          Ran (f b) d₁ c₁ after r d' c' := by
  rw [Ran, run_bind, SharedTask.ran_bind_iff]
  constructor
  · rintro ⟨⟨e | b, d₁⟩, c₁, before, after, rfl, hbefore, hafter⟩
    · obtain ⟨rfl, hr, rfl⟩ := SharedTask.ran_pure_iff.1 hafter
      obtain ⟨rfl, rfl⟩ := Prod.mk.inj hr
      exact .inl ⟨e, rfl, by rwa [List.append_nil]⟩
    · exact .inr ⟨b, d₁, c₁, before, after, rfl, hbefore, hafter⟩
  · rintro (⟨e, rfl, h⟩ | ⟨b, d₁, c₁, before, after, rfl, hbefore, hafter⟩)
    · exact ⟨(.error e, d'), c', log, [], (List.append_nil _).symm, h,
        SharedTask.ran_pure_iff.2 ⟨rfl, rfl, rfl⟩⟩
    · exact ⟨(.ok b, d₁), c₁, before, after, rfl, hbefore, hafter⟩

lemma ran_ask_iff {q : Session.Request} {r : Except Ending (Session.Answer q)} :
    Ran (ask q) d c log r d' c' ↔ ∃ a, r = .ok a ∧ d' = d ∧ log = [⟨(q, c), (a, c')⟩] := by
  have hrun : (ask q).run.run d = Session.ask q >>= fun a => pure (.ok a, d) := by
    funext c
    rfl
  rw [Ran, hrun, SharedTask.ran_bind_iff]
  constructor
  · rintro ⟨a, c₁, before, after, rfl, hbefore, hafter⟩
    obtain rfl := SharedTask.ran_request_iff.1 hbefore
    obtain ⟨rfl, hr, rfl⟩ := SharedTask.ran_pure_iff.1 hafter
    obtain ⟨rfl, rfl⟩ := Prod.mk.inj hr
    exact ⟨a, rfl, rfl, rfl⟩
  · rintro ⟨a, rfl, rfl, rfl⟩
    exact ⟨a, c', _, [], rfl, SharedTask.ran_request_iff.2 rfl,
      SharedTask.ran_pure_iff.2 ⟨rfl, rfl, rfl⟩⟩

lemma ran_ask_bind_iff {q : Session.Request} {f : Session.Answer q → Attending α} :
    Ran (ask q >>= f) d c log r d' c' ↔
      ∃ a c₁ after, log = ⟨(q, c), (a, c₁)⟩ :: after ∧ Ran (f a) d c₁ after r d' c' := by
  rw [ran_bind_iff]
  constructor
  · rintro (⟨e, -, h⟩ | ⟨a, d₁, c₁, before, after, rfl, h, hafter⟩)
    · obtain ⟨_, he, -⟩ := ran_ask_iff.1 h
      cases he
    · obtain ⟨a, ha, rfl, rfl⟩ := ran_ask_iff.1 h
      cases ha
      exact ⟨a, c₁, after, rfl, hafter⟩
  · rintro ⟨a, c₁, after, rfl, h⟩
    exact .inr ⟨a, d, c₁, [_], after, rfl, ran_ask_iff.2 ⟨a, rfl, rfl, rfl⟩, h⟩

lemma ran_desk_bind_iff {f : Desk → Attending α} :
    Ran (getThe Desk >>= f) d c log r d' c' ↔ Ran (f d) d c log r d' c' :=
  Iff.rfl

lemma ran_context_bind_iff {f : Context → Attending α} :
    Ran (context >>= f) d c log r d' c' ↔ Ran (f c) d c log r d' c' :=
  Iff.rfl

lemma ran_modifyDesk_bind_iff {g : Desk → Desk} {f : PUnit → Attending α} :
    Ran (modifyThe Desk g >>= f) d c log r d' c' ↔ Ran (f ()) (g d) c log r d' c' :=
  Iff.rfl

lemma ran_modifyDesk_iff {g : Desk → Desk} {r : Except Ending PUnit} :
    Ran (modifyThe Desk g) d c log r d' c' ↔ log = [] ∧ r = .ok () ∧ d' = g d ∧ c' = c := by
  rw [← ran_pure_iff]
  exact Iff.rfl

lemma ran_deliver_iff {line : Option String} {r : Except Ending Unit} :
    Ran (do putMailbox ((← mailbox).deliver line)) d c log r d' c' ↔
      log = [] ∧ r = .ok () ∧ d' = d ∧ c' = { c with worker := c.worker.deliver line } := by
  refine Task.runs_done_iff.trans (and_congr_right fun _ => ?_)
  rw [Prod.mk.injEq, Prod.mk.injEq, and_assoc]

end Runs

/-! ## One event -/

/-- What an event brings. -/
def Harvest.add (h : Harvest) : Worker.Event → Harvest
  | .stdout chunk => { h with capture := h.capture.addStdout chunk }
  | .stderr chunk => { h with capture := h.capture.addStderr chunk }
  | .readLine _ => h
  | .failed e => { h with error := some e }
  | .finished files => { h with files := files }

/-- What attending to an event asks of the surroundings. -/
def asked (watched : Bool) : Worker.Event → List Session.Request
  | .stdout chunk => if watched then [.stdout chunk] else []
  | .stderr chunk => if watched then [.stderr chunk] else []
  | .readLine caption => if watched then [.readLine caption] else []
  | .failed _ | .finished _ => []

/-- Whether the line editor has given a question up. -/
def gaveUp (log : Log) : Bool :=
  log.any fun
    | ⟨(.readLine _, _), (.abandoned, _)⟩ => true
    | _ => false

@[simp] lemma gaveUp_append (before after : Log) :
    gaveUp (before ++ after) = (gaveUp before || gaveUp after) :=
  List.any_append

/-- How attending to some events ends, if one of them may be the last one of the run. -/
def endingOf (gaveUp last : Bool) : Except Ending Unit :=
  if gaveUp then .error (.failed .interrupted) else if last then .error .finished else .ok ()

lemma endingOf_eq_ok_iff {gaveUp last : Bool} :
    endingOf gaveUp last = .ok () ↔ gaveUp = false ∧ last = false := by
  cases gaveUp <;> cases last <;> simp [endingOf]

variable {watched : Bool} {token : Nat} {log : Log} {r : Except Ending Unit}

lemma ran_answer {caption : String} {r : Except Ending (Option String)}
    (h : Ran (answer watched caption) d c log r d' c') :
    requests log = asked watched (.readLine caption) ∧ d' = d ∧
      if gaveUp log then r = .error (.failed .interrupted) else ∃ line, r = .ok line := by
  cases watched with
  | false =>
    obtain ⟨rfl, rfl, rfl, -⟩ := ran_pure_iff.1 h
    exact ⟨rfl, rfl, none, rfl⟩
  | true =>
    rw [answer, if_pos rfl] at h
    obtain ⟨reading, c₁, after, rfl, hafter⟩ := ran_ask_bind_iff.1 h
    cases reading with
    | line | ended =>
      obtain ⟨rfl, rfl, rfl, -⟩ := ran_pure_iff.1 hafter
      exact ⟨rfl, rfl, _, rfl⟩
    | abandoned =>
      obtain ⟨rfl, rfl, rfl, -⟩ := ran_throw_iff.1 hafter
      exact ⟨rfl, rfl, rfl⟩

/-- **What attending to one event comes to.** -/
theorem ran_attend {e : Worker.Event} (h : Ran (attend watched e) d c log r d' c') :
    requests log = asked watched e ∧ r = endingOf (gaveUp log) e.isLast ∧
      (gaveUp log = false → d' = { d with harvest := d.harvest.add e }) := by
  cases e with
  | stdout chunk | stderr chunk =>
    cases watched with
    | false =>
      obtain ⟨rfl, rfl, rfl, -⟩ := ran_modifyDesk_iff.1 h
      exact ⟨rfl, rfl, fun _ => rfl⟩
    | true =>
      obtain ⟨_, c₁, after, rfl, hkeep⟩ := ran_ask_bind_iff.1 h
      obtain ⟨rfl, rfl, rfl, -⟩ := ran_modifyDesk_iff.1 hkeep
      exact ⟨rfl, rfl, fun _ => rfl⟩
  | readLine caption =>
    rw [attend] at h
    rcases ran_bind_iff.1 h with ⟨e, rfl, hasked⟩ | ⟨line, d₁, c₁, before, after, rfl, hasked, hafter⟩
    · obtain ⟨hrequests, rfl, hr⟩ := ran_answer hasked
      refine ⟨hrequests, ?_, fun _ => rfl⟩
      split_ifs at hr with hgave
      · obtain rfl := Except.error.inj hr
        rw [endingOf, if_pos hgave]
      · obtain ⟨_, he⟩ := hr
        cases he
    · obtain ⟨hrequests, rfl, hline⟩ := ran_answer hasked
      obtain ⟨rfl, rfl, rfl, -⟩ := ran_deliver_iff.1 hafter
      rw [List.append_nil]
      refine ⟨hrequests, ?_, fun _ => rfl⟩
      split_ifs at hline with hgave
      rw [endingOf, if_neg hgave]
      rfl
  | failed e =>
    obtain ⟨rfl, rfl, rfl, -⟩ := ran_modifyDesk_iff.1 h
    exact ⟨rfl, rfl, fun _ => rfl⟩
  | finished files =>
    rw [attend] at h
    rcases ran_bind_iff.1 h with ⟨e, -, hkeep⟩ | ⟨_, d₁, c₁, before, after, rfl, hkeep, hafter⟩
    · obtain ⟨-, he, -⟩ := ran_modifyDesk_iff.1 hkeep
      cases he
    · obtain ⟨rfl, -, rfl, -⟩ := ran_modifyDesk_iff.1 hkeep
      obtain ⟨rfl, rfl, rfl, -⟩ := ran_throw_iff.1 hafter
      exact ⟨rfl, rfl, fun _ => rfl⟩

/-! ## The whole inbox -/

/-- The events up to the last one of the run, and that one. -/
def throughLast : List Worker.Event → List Worker.Event
  | [] => []
  | e :: events => if e.isLast then [e] else e :: throughLast events

lemma throughLast_cons_of_isLast {e : Worker.Event} (h : e.isLast = true)
    (events : List Worker.Event) : throughLast (e :: events) = [e] :=
  if_pos h

lemma throughLast_append {before : List Worker.Event} (h : before.any (·.isLast) = false)
    (events : List Worker.Event) :
    throughLast (before ++ events) = before ++ throughLast events := by
  induction before with
  | nil => rfl
  | cons e before ih =>
    obtain ⟨he, hrest⟩ := Bool.or_eq_false_iff.1 (List.any_cons ▸ h)
    rw [List.cons_append, throughLast, he, if_neg Bool.false_ne_true, ih hrest, List.cons_append]

/-- What attending to some events comes to: they are shown in their order, up to the last one of the run,
unless the line editor gives a question up. -/
structure Shown (watched : Bool) (events : List Worker.Event) (d : Desk) (log : Log)
    (r : Except Ending Unit) (d' : Desk) : Prop where
  ending : r = endingOf (gaveUp log) (events.any (·.isLast))
  begun : requests log <+: (throughLast events).flatMap (asked watched)
  all : gaveUp log = false → requests log = (throughLast events).flatMap (asked watched)
  kept : gaveUp log = false →
    d' = { d with harvest := (throughLast events).foldl Harvest.add d.harvest }

/-- **Attending to events shows them.** -/
theorem shown_forM_attend {events : List Worker.Event}
    (h : Ran (events.forM (attend watched)) d c log r d' c') : Shown watched events d log r d' := by
  induction events generalizing d c log with
  | nil =>
    obtain ⟨rfl, rfl, rfl, -⟩ := ran_pure_iff.1 h
    exact ⟨rfl, List.prefix_rfl, fun _ => rfl, fun _ => rfl⟩
  | cons e events ih =>
    rcases ran_bind_iff.1 h with ⟨ending, rfl, hfirst⟩ | ⟨_, d₁, c₁, before, after, rfl, hfirst, hrest⟩
    · obtain ⟨hrequests, hr, hkept⟩ := ran_attend hfirst
      by_cases hlast : e.isLast = true
      · have hthrough := throughLast_cons_of_isLast hlast events
        have hall : requests log = (throughLast (e :: events)).flatMap (asked watched) := by
          rw [hthrough, hrequests, List.flatMap_singleton]
        constructor
        · rw [hr, List.any_cons, hlast, Bool.true_or]
        · exact hall ▸ List.prefix_rfl
        · exact fun _ => hall
        · exact fun hgave => by rw [hthrough, hkept hgave, List.foldl_cons, List.foldl_nil]
      · have hgave : gaveUp log = true := by
          rw [endingOf] at hr
          split_ifs at hr with hgave
          exact hgave
        constructor
        · rw [hr, hgave]
          rfl
        · rw [throughLast, if_neg hlast, hrequests, List.flatMap_cons]
          exact List.prefix_append ..
        · exact fun hno => by simp [hgave] at hno
        · exact fun hno => by simp [hgave] at hno
    · obtain ⟨hrequests, hr, hkept⟩ := ran_attend hfirst
      obtain ⟨hgave, hlast⟩ := endingOf_eq_ok_iff.1 hr.symm
      have hthrough : throughLast (e :: events) = e :: throughLast events := by
        rw [throughLast, hlast]
        rfl
      obtain ⟨rfl, hbegun, hall, hrestKept⟩ := ih hrest
      have hafter : gaveUp (before ++ after) = gaveUp after := by rw [gaveUp_append, hgave]; rfl
      constructor
      · rw [hafter, List.any_cons, hlast, Bool.false_or]
      · rw [requests_append, hrequests, hthrough, List.flatMap_cons]
        exact (List.prefix_append_right_inj _).2 hbegun
      · intro hno
        rw [requests_append, hrequests, hthrough, List.flatMap_cons, hall (hafter ▸ hno)]
      · intro hno
        rw [hrestKept (hafter ▸ hno), hkept hgave, hthrough, List.foldl_cons]

/-- **In its turn the side of the terminal shows what is in the inbox.** -/
theorem shown_attendAll (h : Ran (attendAll watched) d c log r d' c') :
    Shown watched d.inbox { d with inbox := [], ahead := 0 } log r d' :=
  shown_forM_attend (ran_modifyDesk_bind_iff.1 (ran_desk_bind_iff.1 h))

lemma ran_heed_iff : Ran (heed token) d c log r d' c' ↔ log = [] ∧
    r = (if c.interrupts.isHit token then .error (.failed .interrupted) else .ok ()) ∧
    d' = d ∧ c' = c := by
  rw [heed, ran_context_bind_iff]
  split
  · exact ran_throw_iff
  · exact ran_pure_iff

end Background

end GuestShell
