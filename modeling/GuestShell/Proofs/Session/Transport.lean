import GuestShell.Proofs.Session.WindowLines
import GuestShell.Proofs.Session.WorkerRuns

/-!
# What a session brings a worker, and what it takes from it

In a quiet session the two sides only pass things on.  What the worker reports is shown and kept,
each event once and in its order, whenever the side of the terminal has its turns; and what is typed
goes to the worker, through its window.

`Moves` says that of a part of the worker's work: it is a balance, as some events may still wait in
the inbox.  The main statement is `moves_work`.
-/

namespace GuestShell

namespace Background

open Session

variable {α β : Type} {watched : Bool} {token : Nat} {d d' : Desk} {c c' : Context} {log : Log}

/-! ## Showing -/

/-- Nothing is asked but to show some events. -/
structure Shows (watched : Bool) (events : List Worker.Event) (log : Log) : Prop where
  clocks : clocksOf log = []
  typed : typed log = []
  captions : captions log = []
  output : watched = true → output log = Worker.outputs events

lemma shows_nil : Shows watched [] [] := ⟨rfl, rfl, rfl, fun _ => rfl⟩

lemma Shows.append {events events' : List Worker.Event} {log log' : Log}
    (h : Shows watched events log) (h' : Shows watched events' log') :
    Shows watched (events ++ events') (log ++ log') := by
  constructor
  · rw [clocksOf_append, h.clocks, h'.clocks]
    rfl
  · rw [typed_append, h.typed, h'.typed]
    rfl
  · rw [captions_append, h.captions, h'.captions]
    rfl
  · intro hwatched
    rw [output_append, h.output hwatched, h'.output hwatched, Worker.outputs_append]

lemma shows_attend {e : Worker.Event} {r : Except Ending Unit} (he : e.canWait = true)
    (h : Ran (attend watched e) d c log r d' c') (hquiet : Quiet log) :
    r = .ok () ∧ c' = c ∧ d' = { d with harvest := d.harvest.add e } ∧ Shows watched [e] log := by
  cases e with
  | stdout chunk | stderr chunk =>
    cases watched with
    | false =>
      obtain ⟨rfl, rfl, rfl, rfl⟩ := ran_modifyDesk_iff.1 h
      exact ⟨rfl, rfl, rfl, rfl, rfl, rfl, nofun⟩
    | true =>
      obtain ⟨_, c₁, after, rfl, hkeep⟩ := ran_ask_bind_iff.1 h
      obtain ⟨rfl, rfl, rfl, rfl⟩ := ran_modifyDesk_iff.1 hkeep
      exact ⟨rfl, hquiet.untouched _ List.mem_cons_self, rfl, rfl, rfl, rfl, fun _ => rfl⟩
  | failed e =>
    obtain ⟨rfl, rfl, rfl, rfl⟩ := ran_modifyDesk_iff.1 h
    exact ⟨rfl, rfl, rfl, rfl, rfl, rfl, fun _ => rfl⟩
  | readLine caption => cases he
  | finished files => cases he

lemma shows_forM_attend {events : List Worker.Event} {r : Except Ending Unit}
    (hevents : ∀ e ∈ events, e.canWait = true)
    (h : Ran (events.forM (attend watched)) d c log r d' c') (hquiet : Quiet log) :
    r = .ok () ∧ c' = c ∧ d' = { d with harvest := events.foldl Harvest.add d.harvest } ∧
      Shows watched events log := by
  induction events generalizing d c log with
  | nil =>
    obtain ⟨rfl, rfl, rfl, rfl⟩ := ran_pure_iff.1 h
    exact ⟨rfl, rfl, rfl, shows_nil⟩
  | cons e events ih =>
    obtain ⟨he, hrest⟩ := List.forall_mem_cons.1 hevents
    rcases ran_bind_iff.1 h with
      ⟨ending, rfl, hfirst⟩ | ⟨_, d₁, c₁, before, after, rfl, hfirst, hafter⟩
    · cases (shows_attend he hfirst hquiet).1
    · obtain ⟨hbefore, hquiet⟩ := quiet_append.1 hquiet
      obtain ⟨-, rfl, rfl, hshows⟩ := shows_attend he hfirst hbefore
      obtain ⟨rfl, rfl, rfl, hshows'⟩ := ih hrest hafter hquiet
      exact ⟨rfl, rfl, rfl, hshows.append hshows'⟩

/-- What is there can wait, and nobody has interrupted. -/
structure Ready (token : Nat) (d : Desk) (c : Context) : Prop where
  canWait : ∀ e ∈ d.inbox, e.canWait = true
  notHit : c.interrupts.isHit token = false

/-- What is there can wait, and nobody has interrupted or cancelled. -/
structure Fit (token : Nat) (d : Desk) (c : Context) : Prop where
  canWait : ∀ e ∈ d.inbox, e.canWait = true
  notHit : c.interrupts.isHit token = false
  notCancelled : c.worker.cancelled = false

lemma Fit.ready (h : Fit token d c) : Ready token d c := ⟨h.canWait, h.notHit⟩

lemma shows_attendAll {r : Except Ending Unit} (hready : Ready token d c)
    (h : Ran (attendAll watched) d c log r d' c') (hquiet : Quiet log) :
    r = .ok () ∧ c' = c ∧ d' = ⟨d.due, [], 0⟩ ∧ Shows watched d.inbox log :=
  shows_forM_attend hready.canWait (ran_modifyDesk_bind_iff.1 (ran_desk_bind_iff.1 h)) hquiet

/-- Whether or not the side of the terminal has its turn, nothing is lost. -/
lemma shows_meanwhile {r : Except Ending Unit} (hready : Ready token d c)
    (h : Ran (meanwhile watched token) d c log r d' c') (hquiet : Quiet log) :
    r = .ok () ∧ c' = c ∧ d'.due = d.due ∧
      ∃ events, d.inbox = events ++ d'.inbox ∧ Shows watched events log := by
  obtain ⟨turned, c₁, after, rfl, hrest⟩ := ran_ask_bind_iff.1 (ran_desk_bind_iff.1 h)
  obtain ⟨hfirst, hafter⟩ := quiet_cons.1 hquiet
  obtain rfl : c₁ = c := hfirst.untouched _ List.mem_cons_self
  have hasked : Shows watched [] [⟨(.hasTurn d.inbox.length d.ahead, c₁), (turned, c₁)⟩] :=
    ⟨rfl, rfl, rfl, fun _ => rfl⟩
  cases turned with
  | true =>
    rcases ran_bind_iff.1 hrest with ⟨ending, rfl, hall⟩ | ⟨_, d₁, c₂, first, last, rfl, hall, hheed⟩
    · cases (shows_attendAll hready hall hafter).1
    · obtain ⟨hquiet₁, hquiet₂⟩ := quiet_append.1 hafter
      obtain ⟨-, rfl, rfl, hshows⟩ := shows_attendAll hready hall hquiet₁
      obtain ⟨rfl, rfl, rfl, rfl⟩ := ran_heed_iff.1 hheed
      rw [hready.notHit, List.append_nil]
      exact ⟨rfl, rfl, rfl, d.inbox, (List.append_nil _).symm, hasked.append hshows⟩
  | false =>
    obtain ⟨rfl, rfl, rfl, rfl⟩ := ran_modifyDesk_iff.1 hrest
    exact ⟨rfl, rfl, rfl, [], rfl, hasked⟩

lemma shows_post {e : Worker.Event} {r : Except Ending Unit} (hready : Ready token d c)
    (h : Ran (post watched token e) d c log r d' c') (hquiet : Quiet log) :
    r = .ok () ∧ c' = c ∧ ∃ events left, d.inbox = events ++ left ∧ d'.inbox = left ++ [e] ∧
      left.foldl Harvest.add d'.harvest = d.due ∧ Shows watched events log := by
  rcases ran_bind_iff.1 h with ⟨ending, rfl, hmean⟩ | ⟨_, d₁, c₁, first, last, rfl, hmean, hput⟩
  · cases (shows_meanwhile hready hmean hquiet).1
  · obtain ⟨hquiet₁, -⟩ := quiet_append.1 hquiet
    obtain ⟨-, rfl, hdue, events, hinbox, hshows⟩ := shows_meanwhile hready hmean hquiet₁
    obtain ⟨rfl, rfl, rfl, rfl⟩ := ran_modifyDesk_iff.1 hput
    rw [List.append_nil]
    exact ⟨rfl, rfl, events, d₁.inbox, hinbox, rfl, hdue, hshows⟩

/-! ## A question -/

lemma ran_mailbox_bind_iff {f : Mailbox → Attending α} {r : Except Ending α} :
    Ran (mailbox >>= f) d c log r d' c' ↔ Ran (f c.worker) d c log r d' c' :=
  Iff.rfl

lemma ran_putMailbox_bind_iff {m : Mailbox} {f : Unit → Attending α} {r : Except Ending α} :
    Ran (putMailbox m >>= f) d c log r d' c' ↔ Ran (f ()) d { c with worker := m } log r d' c' :=
  Iff.rfl

/-- A question is answered at the mailbox. -/
lemma ran_attend_readLine {caption : String} {r : Except Ending Unit}
    (h : Ran (attend watched (.readLine caption)) d c log r d' c') (hquiet : Quiet log) :
    r = .ok () ∧ d' = d ∧ clocksOf log = [] ∧ output log = [] ∧
      ∃ line : Option String, c' = { c with worker := c.worker.deliver (line.map (· ++ "\n")) } ∧
        (watched = true → typed log = [line] ∧ captions log = [caption]) := by
  cases watched with
  | false =>
    obtain ⟨rfl, rfl, rfl, rfl⟩ := ran_deliver_iff.1 h
    exact ⟨rfl, rfl, rfl, rfl, none, rfl, nofun⟩
  | true =>
    rcases ran_bind_iff.1 h with
      ⟨ending, rfl, hanswer⟩ | ⟨line, d₁, c₁, before, after, rfl, hanswer, hput⟩
    · obtain ⟨-, -, hending⟩ := ran_answer hanswer
      rw [hquiet.answered] at hending
      obtain ⟨_, hok⟩ := hending
      cases hok
    · obtain ⟨rfl, rfl, rfl, rfl⟩ := ran_deliver_iff.1 hput
      rw [answer, if_pos rfl] at hanswer
      obtain ⟨reading, c₂, rest, rfl, hrest⟩ := ran_ask_bind_iff.1 hanswer
      rw [List.append_nil] at hquiet ⊢
      obtain rfl : c₂ = c := hquiet.untouched _ List.mem_cons_self
      cases reading with
      | line text =>
        obtain ⟨rfl, hline, rfl, rfl⟩ := ran_pure_iff.1 hrest
        obtain rfl := Except.ok.inj hline
        exact ⟨rfl, rfl, rfl, rfl, some text, rfl, fun _ => ⟨rfl, rfl⟩⟩
      | ended =>
        obtain ⟨rfl, hline, rfl, rfl⟩ := ran_pure_iff.1 hrest
        obtain rfl := Except.ok.inj hline
        exact ⟨rfl, rfl, rfl, rfl, none, rfl, fun _ => ⟨rfl, rfl⟩⟩
      | abandoned => cases hquiet.answered

/-- Before an event is attended to at once, all that is there is shown. -/
lemma shows_post_attendAll {e : Worker.Event} {r : Except Ending Unit} (hready : Ready token d c)
    (h : Ran (do post watched token e; attendAll watched) d c log r d' c') (hquiet : Quiet log) :
    ∃ before last, log = before ++ last ∧ Shows watched d.inbox before ∧
      Ran (attend watched e) ⟨d.due, [], 0⟩ c last r d' c' := by
  rcases ran_bind_iff.1 h with ⟨ending, rfl, hpost⟩ | ⟨_, d₁, c₁, first, rest, rfl, hpost, hall⟩
  · cases (shows_post hready hpost hquiet).1
  obtain ⟨hquiet₁, hquiet₂⟩ := quiet_append.1 hquiet
  obtain ⟨-, rfl, events, left, hinbox, hleft, hdue, hshows⟩ := shows_post hready hpost hquiet₁
  -- what is still waiting comes first, then the event itself
  have hall : Ran ((left ++ [e]).forM (attend watched)) { d₁ with inbox := [], ahead := 0 } c₁ rest r
      d' c' := hleft ▸ ran_modifyDesk_bind_iff.1 (ran_desk_bind_iff.1 hall)
  rw [List.forM_eq_forM, List.forM_append] at hall
  have hwait : ∀ e ∈ left, e.canWait = true := fun e he =>
    hready.canWait e (hinbox ▸ List.mem_append_right _ he)
  rcases ran_bind_iff.1 hall with
    ⟨ending, rfl, hbefore⟩ | ⟨_, d₂, c₂, second, last, rfl, hbefore, hlast⟩
  · cases (shows_forM_attend hwait hbefore hquiet₂).1
  obtain ⟨-, rfl, rfl, hshows'⟩ := shows_forM_attend hwait hbefore (quiet_append.1 hquiet₂).1
  have hone : forM [e] (attend watched) = attend watched e := bind_pure (attend watched e)
  refine ⟨first ++ second, last, (List.append_assoc ..).symm, hinbox ▸ hshows.append hshows', ?_⟩
  rw [← hdue]
  exact hone ▸ hlast

/-- A worker that asks gets the line that is typed, once it is typed. -/
lemma ran_signal {caption : String} {r : Except Ending Unit} (hready : Ready token d c)
    (h : Ran (do post watched token (.readLine caption); attendAll watched) d c log r d' c')
    (hquiet : Quiet log) :
    r = .ok () ∧ d' = ⟨d.due, [], 0⟩ ∧ clocksOf log = [] ∧
      (watched = true → output log = Worker.outputs d.inbox) ∧
      ∃ line : Option String, c' = { c with worker := c.worker.deliver (line.map (· ++ "\n")) } ∧
        (watched = true → typed log = [line] ∧ captions log = [caption]) := by
  obtain ⟨before, last, rfl, hshows, hlast⟩ := shows_post_attendAll hready h hquiet
  obtain ⟨rfl, rfl, hclocks, houtput, line, rfl, hline⟩ :=
    ran_attend_readLine hlast (quiet_append.1 hquiet).2
  refine ⟨rfl, rfl, ?_, ?_, line, rfl, ?_⟩
  · rw [clocksOf_append, hshows.clocks, hclocks]
    rfl
  · intro hwatched
    rw [output_append, hshows.output hwatched, houtput, List.append_nil]
  · intro hwatched
    obtain ⟨htyped, hcaptions⟩ := hline hwatched
    rw [typed_append, captions_append, hshows.typed, hshows.captions, htyped, hcaptions]
    exact ⟨rfl, rfl⟩

/-- The last event of a run ends the attending, and brings the files. -/
lemma ran_last {files : List SavedFile} {r : Except Ending Unit} (hready : Ready token d c)
    (h : Ran (do post watched token (.finished files); attendAll watched) d c log r d' c')
    (hquiet : Quiet log) :
    r = .error .finished ∧ c' = c ∧ d'.harvest = d.due.add (.finished files) ∧
      Shows watched d.inbox log := by
  obtain ⟨before, last, rfl, hshows, hlast⟩ := shows_post_attendAll hready h hquiet
  rcases ran_bind_iff.1 hlast with ⟨ending, rfl, hkeep⟩ | ⟨_, d₁, c₁, keep, stop, rfl, hkeep, hstop⟩
  · obtain ⟨-, hok, -⟩ := ran_modifyDesk_iff.1 hkeep
    cases hok
  · obtain ⟨rfl, -, rfl, rfl⟩ := ran_modifyDesk_iff.1 hkeep
    obtain ⟨rfl, rfl, rfl, rfl⟩ := ran_throw_iff.1 hstop
    exact ⟨rfl, rfl, rfl, (List.append_nil before).symm ▸ hshows⟩

/-- What stays as it was while a worker is at work. -/
structure Kept (c c' : Context) : Prop where
  epoch : c'.epoch = c.epoch
  interrupts : c'.interrupts = c.interrupts
  cancelled : c'.worker.cancelled = c.worker.cancelled
  size : c'.worker.window.words.length = c.worker.window.words.length

lemma Kept.refl (c : Context) : Kept c c := ⟨rfl, rfl, rfl, rfl⟩

lemma Kept.trans {c₁ c₂ c₃ : Context} (h : Kept c₁ c₂) (h' : Kept c₂ c₃) : Kept c₁ c₃ :=
  ⟨h'.epoch.trans h.epoch, h'.interrupts.trans h.interrupts, h'.cancelled.trans h.cancelled,
    h'.size.trans h.size⟩

/-- What arrives of a line that is typed and goes through the window. -/
def lineThrough (size : Nat) (line : Option String) : Option String :=
  if size = 0 then none else line.map fun text => Window.carried size (text ++ "\n")

/-- A worker that asks gets the line that is typed, as far as the window carries it. -/
lemma ran_exchange {caption : String} {r : Except Ending (Option String)} (hfit : Fit token d c)
    (h : Ran (serve watched token (.exchange caption)) d c log r d' c') (hquiet : Quiet log) :
    Kept c c' ∧ d' = ⟨d.due, [], 0⟩ ∧ clocksOf log = [] ∧
      (watched = true → output log = Worker.outputs d.inbox) ∧
      ∃ line, r = .ok (lineThrough c.worker.window.words.length line) ∧
        (watched = true → typed log = [line] ∧ captions log = [caption]) := by
  rw [serve, Mailbox.request, ran_mailbox_bind_iff, ran_putMailbox_bind_iff,
    ran_mailbox_bind_iff] at h
  -- nobody has cancelled, so the question is told to the other side
  have hcancelled : ¬c.worker.hold.cancelled = true := by
    rw [Mailbox.hold, hfit.notCancelled]
    exact Bool.false_ne_true
  rw [if_neg hcancelled] at h
  have hheld : Ready token d { c with worker := c.worker.hold } := ⟨hfit.canWait, hfit.notHit⟩
  rcases ran_bind_iff.1 h with
    ⟨ending, rfl, hsignal⟩ | ⟨_, d₁, c₁, first, last, rfl, hsignal, hcollect⟩
  · cases (ran_signal hheld hsignal hquiet).1
  obtain ⟨hquiet₁, -⟩ := quiet_append.1 hquiet
  obtain ⟨-, rfl, hclocks, houtput, line, rfl, hline⟩ := ran_signal hheld hsignal hquiet₁
  obtain ⟨rfl, rfl, rfl, rfl⟩ := ran_pure_iff.1 hcollect
  rw [List.append_nil]
  refine ⟨⟨rfl, rfl, rfl, ?_⟩, rfl, hclocks, houtput, line, ?_, hline⟩
  · exact Window.length_stores _
  · refine congrArg Except.ok ((Window.decode_encode _ _).trans ?_)
    rw [lineThrough, Option.map_map]
    rfl

/-! ## The work -/

/-- What passes on while a worker is at work: from the worker's log to the log of the session, with
what is left in the inbox. -/
structure Moves (watched : Bool) (c : Context) (d : Desk) (work : Worker.Log) (log : Log)
    (d' : Desk) : Prop where
  undisturbed : Worker.Undisturbed c.epoch work
  clocks : Worker.clocksOf work = clocksOf log
  received : watched = true →
    Worker.received work = (typed log).map (lineThrough c.worker.window.words.length)
  captions : watched = true → captions log = Worker.captions (Worker.told work)
  output : watched = true → output log ++ Worker.outputs d'.inbox =
    Worker.outputs d.inbox ++ Worker.outputs (Worker.told work)
  due : d'.due = (Worker.told work).foldl Harvest.add d.due

lemma moves_nil (c : Context) (d : Desk) : Moves watched c d [] [] d :=
  ⟨by simp [Worker.Undisturbed], rfl, fun _ => rfl, fun _ => rfl,
    fun _ => (List.append_nil _).symm, rfl⟩

lemma Moves.append {d₁ d₂ d₃ : Desk} {work work' : Worker.Log} {log log' : Log}
    (h : Moves watched c d₁ work log d₂) (hkept : Kept c c')
    (h' : Moves watched c' d₂ work' log' d₃) :
    Moves watched c d₁ (work ++ work') (log ++ log') d₃ := by
  constructor
  · exact List.forall_mem_append.2 ⟨h.undisturbed, hkept.epoch ▸ h'.undisturbed⟩
  · rw [Worker.clocksOf_append, clocksOf_append, h.clocks, h'.clocks]
  · intro hwatched
    rw [Worker.received_append, typed_append, List.map_append, h.received hwatched,
      h'.received hwatched, hkept.size]
  · intro hwatched
    rw [captions_append, Worker.told_append, Worker.captions_append, h.captions hwatched,
      h'.captions hwatched]
  · intro hwatched
    rw [output_append, List.append_assoc, h'.output hwatched, ← List.append_assoc,
      h.output hwatched, Worker.told_append, Worker.outputs_append, List.append_assoc]
  · rw [Worker.told_append, List.foldl_append, h'.due, h.due]

/-- The worker reports something that can wait, if anything, and some of what is there is shown. -/
lemma Shows.moves {work : Worker.Log} {events left : List Worker.Event}
    (hundisturbed : Worker.Undisturbed c.epoch work) (hclocks : Worker.clocksOf work = [])
    (hreceived : Worker.received work = []) (hcaptions : Worker.captions (Worker.told work) = [])
    (hshows : Shows watched events log) (hinbox : d.inbox = events ++ left)
    (hleft : d'.inbox = left ++ Worker.told work)
    (hdue : d'.due = (Worker.told work).foldl Harvest.add d.due) : Moves watched c d work log d' := by
  refine ⟨hundisturbed, ?_, fun _ => ?_, fun _ => ?_, fun hwatched => ?_, hdue⟩
  · rw [hclocks, hshows.clocks]
  · rw [hreceived, hshows.typed]
    rfl
  · rw [hcaptions, hshows.captions]
  · rw [hshows.output hwatched, hleft, hinbox, Worker.outputs_append, Worker.outputs_append,
      List.append_assoc]

lemma captions_of_canWait {e : Worker.Event} (he : e.canWait = true) :
    Worker.captions (Worker.told [⟨.send e, ()⟩]) = [] := by
  cases e with
  | readLine => cases he
  | _ => rfl

/-- **One step of a worker in a quiet session.** -/
lemma moves_serve {q : Worker.Request} {r : Except Ending (Worker.Answer q)} (hfit : Fit token d c)
    (hq : ∀ e, q = .send e → e.canWait = true) (h : Ran (serve watched token q) d c log r d' c')
    (hquiet : Quiet log) :
    ∃ a, r = .ok a ∧ Kept c c' ∧ Fit token d' c' ∧ Moves watched c d [⟨q, a⟩] log d' := by
  cases q with
  | send e =>
    obtain ⟨rfl, rfl, events, left, hinbox, hleft, hdue, hshows⟩ := shows_post hfit.ready h hquiet
    have hdue' : d'.due = d.due.add e := by
      rw [Desk.due, hleft, List.foldl_append, hdue]
      rfl
    refine ⟨(), rfl, .refl _, ⟨?_, hfit.notHit, hfit.notCancelled⟩, ?_⟩
    · rw [hleft, List.forall_mem_append, List.forall_mem_singleton]
      exact ⟨fun e he => hfit.canWait e (hinbox ▸ List.mem_append_right _ he), hq e rfl⟩
    · exact hshows.moves (by simp [Worker.Undisturbed, Worker.Calm]) rfl rfl
        (captions_of_canWait (hq e rfl)) hinbox hleft hdue'
  | exchange caption =>
    obtain ⟨hkept, rfl, hclocks, houtput, line, rfl, hline⟩ := ran_exchange hfit h hquiet
    have hfit' : Fit token ⟨d.due, [], 0⟩ c' :=
      ⟨List.forall_mem_nil _, hkept.interrupts ▸ hfit.notHit, hkept.cancelled.trans hfit.notCancelled⟩
    refine ⟨_, rfl, hkept, hfit', by simp [Worker.Undisturbed, Worker.Calm], hclocks.symm,
      fun hwatched => ?_, fun hwatched => ?_, fun hwatched => ?_, rfl⟩
    · rw [(hline hwatched).1]
      rfl
    · exact (hline hwatched).2
    · rw [houtput hwatched]
      rfl
  | isCancelled =>
    obtain ⟨rfl, rfl, rfl, rfl⟩ := ran_pure_iff.1
      (ran_mailbox_bind_iff (f := fun m => pure m.cancelled) |>.1 h)
    exact ⟨_, rfl, .refl _, hfit,
      shows_nil.moves (List.forall_mem_singleton.2 hfit.notCancelled) rfl rfl rfl rfl
        (List.append_nil _).symm rfl⟩
  | epoch =>
    rcases ran_bind_iff.1 h with ⟨ending, rfl, hmean⟩ | ⟨_, d₁, c₁, first, last, rfl, hmean, hread⟩
    · cases (shows_meanwhile hfit.ready hmean hquiet).1
    · obtain ⟨hquiet₁, -⟩ := quiet_append.1 hquiet
      obtain ⟨-, rfl, hdue, events, hinbox, hshows⟩ := shows_meanwhile hfit.ready hmean hquiet₁
      obtain ⟨rfl, rfl, rfl, rfl⟩ := ran_pure_iff.1
        (ran_context_bind_iff (f := fun c => pure c.epoch) |>.1 hread)
      rw [List.append_nil]
      refine ⟨_, rfl, .refl _, ⟨fun e he => ?_, hfit.notHit, hfit.notCancelled⟩, ?_⟩
      · exact hfit.canWait e (hinbox ▸ List.mem_append_right _ he)
      · exact hshows.moves (by simp [Worker.Undisturbed, Worker.Calm]) rfl rfl rfl hinbox
          (List.append_nil _).symm hdue
  | clock | note o =>
    obtain ⟨_, rfl, rfl, rfl⟩ := ran_ask_iff.1 h
    obtain rfl : c' = c := hquiet.untouched _ List.mem_cons_self
    exact ⟨_, rfl, .refl _, hfit, by simp [Worker.Undisturbed, Worker.Calm], rfl, fun _ => rfl,
      fun _ => rfl, fun _ => (List.append_nil _).symm, rfl⟩

/-- **What passes on while a worker is at work in a quiet session.** -/
theorem moves_work {work : Working α} {P : α → Prop} {r : Except Ending α} (hfit : Fit token d c)
    (hwork : work.Only (fun q => ∀ e, q = .send e → e.canWait = true) P)
    (h : Ran (work.interpret (serve watched token)) d c log r d' c') (hquiet : Quiet log) :
    ∃ a inner, r = .ok a ∧ Task.Runs work inner a ∧ Kept c c' ∧ Fit token d' c' ∧
      Moves watched c d inner log d' := by
  induction work generalizing d c log with
  | done a =>
    obtain ⟨rfl, rfl, rfl, rfl⟩ := ran_pure_iff.1 h
    exact ⟨a, [], rfl, .done a, .refl _, hfit, moves_nil _ _⟩
  | ask q next ih =>
    rcases ran_bind_iff.1 h with ⟨ending, rfl, hserve⟩ | ⟨a, d₁, c₁, first, last, rfl, hserve, hrest⟩
    · obtain ⟨_, hok, -⟩ := moves_serve hfit hwork.1 hserve hquiet
      cases hok
    · obtain ⟨hquiet₁, hquiet₂⟩ := quiet_append.1 hquiet
      obtain ⟨a, ha, hkept, hfit₁, hmoves⟩ := moves_serve hfit hwork.1 hserve hquiet₁
      obtain rfl := Except.ok.inj ha
      obtain ⟨b, inner, rfl, hinner, hkept', hfit', hmoves'⟩ := ih _ hfit₁ (hwork.2 _) hrest hquiet₂
      exact ⟨b, ⟨q, _⟩ :: inner, rfl, .ask _ hinner, hkept.trans hkept', hfit',
        hmoves.append hkept hmoves'⟩

/-! ## Sessions -/

/-- The end of a session. -/
def close (p : Except Ending Unit × Desk) : Sitting (Except SessionError Harvest) := do
  modify fun c => { c with interrupts := c.interrupts.clear }
  let result := outcome p.2.harvest p.1
  if let .error _ := result then modify (·.restart)
  return result

/-- A session on a worker; what its run comes to may be more than a report, and is told if it comes
to an end. -/
def observe (watched : Bool) (r : Running α) (f : α → Report) :
    Sitting (Option α × Except SessionError Harvest) := do
  let token := (← get).interrupts.hit.length
  modify fun c => { c with interrupts := c.interrupts.install }
  let (seen, desk) ←
    (((Worker.allButLast (!watched) r f).interpret (serve watched token)).run).run .empty
  let last ← match seen with
    | .ok a => ((do post watched token (.finished (f a).files); attendAll watched).run).run desk
    | .error e => pure (.error e, desk)
  return (seen.toOption, ← close last)

lemma attendTo_work (r : Running α) (f : α → Report) :
    attendTo watched token (Worker.work (!watched) (r.bind fun a => return f a)) =
      (Worker.allButLast (!watched) r f).interpret (serve watched token) >>= fun a =>
        (do post watched token (.finished (f a).files); attendAll watched) := by
  rw [attendTo, Worker.work_bind, Task.interpret_bind, bind_assoc]
  exact bind_congr fun a => congrArg (· >>= _) (interpret_send watched _)

/-- To be observed makes no difference to a session. -/
lemma session_bind (watched : Bool) (r : Running α) (f : α → Report) :
    session watched (Worker.work (!watched) (r.bind fun a => return f a)) =
      Prod.snd <$> observe watched r f := by
  have hclose (seen : Option α) (p : Except Ending Unit × Desk) :
      Prod.snd <$> (close p >>= fun result => pure (seen, result)) = close p := by
    rw [map_bind]
    simp only [map_pure, bind_pure]
  rw [session, observe, map_bind]
  refine bind_congr fun c => ?_
  rw [map_bind]
  refine bind_congr fun _ => ?_
  rw [attendTo_work, run_bind, bind_assoc, map_bind]
  refine bind_congr fun p => ?_
  obtain ⟨e | a, d⟩ := p
  · exact (hclose none (.error e, d)).symm
  -- `rw` does not see through the match on the outcome
  · change _ = Prod.snd <$> (_ >>= fun last => close last >>= fun result => pure (some a, result))
    rw [map_bind]
    exact bind_congr fun p => (hclose (some a) p).symm

/-- What a session on a worker has of its run. -/
structure Mirrors (watched : Bool) (epoch size : Nat) (inner : Run.Log) (log : Log) : Prop where
  undisturbed : Run.Undisturbed epoch (clocksOf log) inner
  silent : watched = false → Run.Silent inner
  lines : watched = true → Stdin.answersIn inner = (typed log).map (lineThrough size)
  captions : watched = true → Run.captions .empty inner = captions log
  output : watched = true → Run.output inner = output log

/-- What comes of a run. -/
def Harvest.ofRun (inner : Run.Log) (report : Report) : Harvest :=
  ⟨Capture.empty.addAll inner, report.error, report.files⟩

lemma foldl_add_events (headless : Bool) (caption : Caption) (inner : Run.Log) (h : Harvest) :
    (Run.events headless caption inner).foldl Harvest.add h =
      { h with capture := h.capture.addAll inner } := by
  induction inner generalizing caption h with
  | nil => rfl
  | cons e inner ih =>
    obtain ⟨q, a⟩ := e
    have hasked : (if headless then [] else (caption.asked q).map .readLine).foldl Harvest.add h =
        h := by
      cases headless <;> cases q <;> rfl
    rw [Run.events, List.foldl_append, List.foldl_append, hasked, ih]
    cases q <;> rfl

/-- What is due before the last event, and the files. -/
lemma due_add_finished (headless : Bool) (caption : Caption) {inner : Run.Log} {report : Report}
    {h : Harvest} (hdue : h = (Run.events headless caption inner ++
      report.error.toList.map Worker.Event.failed).foldl Harvest.add .empty) :
    h.add (.finished report.files) = .ofRun inner report := by
  rw [hdue, List.foldl_append, foldl_add_events]
  obtain ⟨files, _ | e⟩ := report <;> rfl

lemma ready_install (c : Context) :
    Ready c.interrupts.hit.length .empty { c with interrupts := c.interrupts.install } :=
  ⟨nofun, by simp [Interrupts.isHit, Interrupts.install]⟩

lemma fit_install (hcancelled : c.worker.cancelled = false) :
    Fit c.interrupts.hit.length .empty { c with interrupts := c.interrupts.install } :=
  ⟨(ready_install c).canWait, (ready_install c).notHit, hcancelled⟩

/-- When the last event was attended to, nothing is left in the inbox. -/
lemma Moves.mirrors {inner : Run.Log} {before : Worker.Log} {report : Report} {first last : Log}
    (hmoves : Moves watched c .empty (before ++ Worker.failure report) first d)
    (hmirrors : Worker.Mirrors (!watched) c.epoch .empty inner before)
    (hshows : Shows watched d.inbox last) :
    Mirrors watched c.epoch c.worker.window.words.length inner (first ++ last) := by
  have hclocks : clocksOf (first ++ last) = Worker.clocksOf before := by
    rw [clocksOf_append, hshows.clocks, List.append_nil, ← hmoves.clocks, Worker.clocksOf_append,
      Worker.clocksOf_failure, List.append_nil]
  have htold : Worker.told (before ++ Worker.failure report) =
      Run.events (!watched) .empty inner ++ report.error.toList.map .failed := by
    rw [Worker.told_append, hmirrors.told, Worker.told_failure]
  constructor
  · exact hclocks ▸ hmirrors.undisturbed
  · rintro rfl
    exact hmirrors.silent rfl
  · rintro rfl
    have hreceived := hmoves.received rfl
    rw [Worker.received_append, Worker.received_failure, List.append_nil] at hreceived
    rw [typed_append, hshows.typed, List.append_nil, hmirrors.lines rfl, hreceived]
  · rintro rfl
    have hfailure : Worker.captions (report.error.toList.map .failed) = [] := by
      cases report.error <;> rfl
    rw [captions_append, hshows.captions, List.append_nil, hmoves.captions rfl, htold,
      Worker.captions_append, hfailure, List.append_nil]
    exact (Worker.captions_events .empty inner).symm
  · rintro rfl
    have hfailure : Worker.outputs (report.error.toList.map .failed) = [] := by
      cases report.error <;> rfl
    rw [output_append, hshows.output rfl, hmoves.output rfl, htold, Worker.outputs_append,
      Worker.outputs_events, hfailure, List.append_nil]
    rfl

/-- All but the last event of a session that has just been opened. -/
def Opened (watched : Bool) (r : Running α) (f : α → Report) (c : Context) (log : Log)
    (seen : Except Ending α) (d' : Desk) (c' : Context) : Prop :=
  Ran ((Worker.allButLast (!watched) r f).interpret (serve watched c.interrupts.hit.length)) .empty
    { c with interrupts := c.interrupts.install } log seen d' c'

/-- Where all but the last event passes on, a quiet session comes to its end with that event. -/
lemma ran_observe {r : Running α} {f : α → Report} {p : Option α × Except SessionError Harvest}
    (hmost : ∀ ⦃log seen d₁ c₁⦄, Opened watched r f c log seen d₁ c₁ → Quiet log →
      ∃ a, seen = .ok a ∧ Ready c.interrupts.hit.length d₁ c₁)
    (h : SharedTask.Ran (observe watched r f) c log p c') (hquiet : Quiet log) :
    ∃ a d₁ c₁ first last, log = first ++ last ∧ Quiet first ∧
      Opened watched r f c first (.ok a) d₁ c₁ ∧ Shows watched d₁.inbox last ∧
      p = (some a, .ok (d₁.due.add (.finished (f a).files))) := by
  rw [observe, SharedTask.ran_get_bind_iff, SharedTask.ran_modify_bind_iff,
    SharedTask.ran_bind_iff] at h
  obtain ⟨⟨seen, d₁⟩, c₁, first, rest, rfl, hfirst, hrest⟩ := h
  obtain ⟨hquiet₁, hquiet₂⟩ := quiet_append.1 hquiet
  obtain ⟨a, rfl, hready⟩ := hmost hfirst hquiet₁
  obtain ⟨⟨ending, d₂⟩, c₂, second, third, rfl, hlast, hclose⟩ := SharedTask.ran_bind_iff.1 hrest
  obtain ⟨rfl, rfl, hharvest, hshows⟩ := ran_last hready hlast (quiet_append.1 hquiet₂).1
  obtain ⟨rfl, hend⟩ := Task.runs_done_iff.1 hclose
  obtain ⟨rfl, -⟩ := Prod.mk.inj hend
  refine ⟨a, d₁, _, first, second, by rw [List.append_nil], hquiet₁, hfirst, hshows, ?_⟩
  exact Prod.ext rfl (congrArg Except.ok hharvest)

/-- **A quiet session on a worker mirrors its run.** -/
theorem mirrors_of_ran_observe {r : Running α} {f : α → Report}
    {p : Option α × Except SessionError Harvest} (hcancelled : c.worker.cancelled = false)
    (h : SharedTask.Ran (observe watched r f) c log p c') (hquiet : Quiet log) :
    ∃ a inner, p = (some a, .ok (.ofRun inner (f a))) ∧ Task.Runs r inner a ∧
      Mirrors watched c.epoch c.worker.window.words.length inner log := by
  have hwork : (Worker.allButLast (!watched) r f).Only
      (fun q => ∀ e, q = .send e → e.canWait = true) fun _ => True := Worker.only_allButLast r f
  have hfit := fit_install hcancelled
  obtain ⟨a, d₁, c₁, first, last, rfl, hquiet₁, hmost, hshows, rfl⟩ :=
    ran_observe (fun _ _ _ _ hmost hquiet => by
      obtain ⟨a, _, rfl, -, -, hfit', -⟩ := moves_work hfit hwork hmost hquiet
      exact ⟨a, rfl, hfit'.ready⟩) h hquiet
  obtain ⟨a, work, heq, hwork, -, -, hmoves⟩ := moves_work hfit hwork hmost hquiet₁
  obtain rfl := Except.ok.inj heq
  obtain ⟨inner, before, rfl, hinner, hmirrors⟩ := Worker.mirrors_allButLast hwork hmoves.undisturbed
  refine ⟨_, inner, Prod.ext rfl (congrArg Except.ok ?_), hinner, hmoves.mirrors hmirrors hshows⟩
  refine due_add_finished (!watched) .empty (hmoves.due.trans ?_)
  rw [Worker.told_append, hmirrors.told, Worker.told_failure]
  rfl

/-- A quiet session comes to what comes of its run, whatever is made of that. -/
theorem mirrors_of_ran_session (watched : Bool) {k : Harvest → β} {r : Running α} {f : α → Report}
    {result : Except SessionError β} (hcancelled : c.worker.cancelled = false)
    (h : SharedTask.Ran (do
      return (← session watched (Worker.work (!watched) (r.bind fun a => return f a))).map k)
      c log result c') (hquiet : Quiet log) :
    ∃ a inner, result = .ok (k (.ofRun inner (f a))) ∧ Task.Runs r inner a ∧
      Mirrors watched c.epoch c.worker.window.words.length inner log := by
  rw [session_bind, ← map_eq_pure_bind] at h
  obtain ⟨harvest, rfl, hsession⟩ := SharedTask.ran_map_iff.1 h
  obtain ⟨p, rfl, hran⟩ := SharedTask.ran_map_iff.1 hsession
  obtain ⟨a, inner, rfl, hinner, hmirrors⟩ := mirrors_of_ran_observe hcancelled hran hquiet
  exact ⟨a, inner, rfl, hinner, hmirrors⟩

end Background

end GuestShell
