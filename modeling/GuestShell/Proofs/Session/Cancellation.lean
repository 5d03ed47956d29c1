import GuestShell.Session.Latch
import GuestShell.Proofs.Session.Agreement
import Mathlib.Logic.Relation
import Mathlib.Tactic.Lemma
import Mathlib.Tactic.SplitIfs

/-!
# A cancel is heard

Who cancels sets the cancel flag and then looks for a question; who asks raises the pause flag and then
looks for a cancel.  Whatever the order of their steps, one of them sees the other.  `Heeds` is what
holds of an exchange all along, and `Settled` is what a cancel leaves behind: from then on the pause
flag is up only where the asking side is about to take it down by itself.

That is proved of exchanges in which looking at the flag and falling asleep are one step.  An exchange
under a lock has them apart; seen from outside (`outline`) each of its steps is one of those, or none
at all (`outline_next`).
-/

namespace GuestShell

namespace Asking

/-- In the midst of a question, unless an answer has taken the flag down. -/
def holds : Asking → Bool
  | .idle | .opening | .reading .. => false
  | _ => true

/-- About to look for a cancel before anybody is told, or having seen one. -/
def withdraws : Asking → Bool
  | .raised | .withdrawing => true
  | _ => false

end Asking

/-- About to look for a question, or to take down the flag of one. -/
def Answering.resolves : Answering → Bool
  | .writing _ | .releasing | .finding => true
  | _ => false

namespace Exchange

variable {m : Mailbox} {x y : Exchange} {move : Move}

/-! ## What holds all along -/

/-- The flag is up only for a question, who sleeps is waited for or about to be woken, and a cancel that
is through with its flag and its look has left nobody waiting. -/
structure Heeds (x : Exchange) : Prop where
  holds : x.mailbox.held = true → x.asking.holds = true
  awake : x.asking = .asleep → x.mailbox.held = true ∨ x.answering = .waking
  heard : x.mailbox.cancelled = true → x.answering.resolves = false → x.mailbox.held = true →
    x.asking.withdraws = true

lemma heeds_start (hheld : m.held = false) : Heeds (start m) where
  holds h := absurd h (by simp [start, hheld])
  awake h := nomatch h
  heard _ _ h := absurd h (by simp [start, hheld])

lemma Heeds.released (h : Heeds x) (hplace : x.asking.holds = false) : x.mailbox.held = false :=
  Bool.eq_false_iff.2 fun hheld => by simp [h.holds hheld] at hplace

/-- Where the flag is down, only a sleeper is to be cared for. -/
lemma heeds_of_released (hheld : x.mailbox.held = false)
    (hawake : x.asking = .asleep → x.answering = .waking) : Heeds x where
  holds h := absurd h (by simp [hheld])
  awake h := .inr (hawake h)
  heard _ _ h := absurd h (by simp [hheld])

/-- The asking side goes from one place to another. -/
lemma Heeds.of_asking {a : Asking} {signalled : Bool} (h : Heeds x)
    (hholds : x.mailbox.held = true → a.holds = true)
    (hawake : a = .asleep → x.mailbox.held = true ∨ x.answering = .waking)
    (hheard : x.mailbox.cancelled = true → x.asking.withdraws = true → a.withdraws = true) :
    Heeds { x with asking := a, signalled := signalled } where
  holds := hholds
  awake := hawake
  heard hcancelled hresolves hheld := hheard hcancelled (h.heard hcancelled hresolves hheld)

lemma Heeds.stepAsking (h : Heeds x) (hy : x.stepAsking? = some y) : Heeds y := by
  rw [stepAsking?] at hy
  cases hplace : x.asking <;> rw [hplace] at hy
  case idle | asleep => cases hy
  case raised =>
    cases hy
    refine h.of_asking (fun _ => ?_) (fun ha => ?_) fun hcancelled _ => ?_
    · split <;> rfl
    · split at ha <;> cases ha
    · rw [if_pos hcancelled]
      rfl
  case signalling =>
    cases hy
    exact h.of_asking (fun _ => rfl) (by simp) fun _ hw => by simp [hplace, Asking.withdraws] at hw
  case polling =>
    cases hy
    refine h.of_asking (fun hheld => ?_) (fun ha => ?_) fun _ hw => ?_
    · rw [if_pos hheld]
      rfl
    · split at ha <;> cases ha
    · simp [hplace, Asking.withdraws] at hw
  case checking =>
    cases hy
    refine h.of_asking (fun _ => ?_) (fun ha => ?_) fun _ hw => ?_
    · split <;> rfl
    · split at ha <;> cases ha
    · simp [hplace, Asking.withdraws] at hw
  case waiting =>
    cases hy
    refine h.of_asking (fun _ => ?_) (fun ha => ?_) fun _ hw => ?_
    · split <;> rfl
    · split at ha
      case isTrue hheld => exact .inl hheld
      case isFalse => cases ha
    · simp [hplace, Asking.withdraws] at hw
  case withdrawing =>
    cases hy
    exact heeds_of_released rfl (by simp [finish])
  case opening | reading =>
    have hheld := h.released (by rw [hplace]; rfl)
    simp only at hy
    split_ifs at hy <;> cases hy <;> exact heeds_of_released hheld (by simp [finish])

/-- Where the flag is up and the asking side is not on its way back, the answering side is about to see
to it. -/
lemma Heeds.stepAnswering (h : Heeds x) (hy : x.stepAnswering? = some y) : Heeds y := by
  rw [stepAnswering?] at hy
  rcases hplace : x.answering with _ | ⟨_ | ⟨⟨word, k⟩, rest⟩⟩ | _ | _ | _ | _ <;> rw [hplace] at hy
  case idle => cases hy
  case writing.nil | writing.cons =>
    cases hy
    exact ⟨h.holds, fun ha => (h.awake ha).imp_right (by simp [hplace]), fun _ h => by cases h⟩
  case releasing =>
    cases hy
    exact heeds_of_released rfl fun _ => rfl
  case waking =>
    cases hy
    refine ⟨fun hheld => ?_, fun ha => ?_, fun hcancelled _ hheld => ?_⟩
    · have hholds := h.holds hheld
      split
      · rfl
      · exact hholds
    · split at ha
      · cases ha
      · exact absurd ha ‹_›
    · have hwithdraws := h.heard hcancelled (by rw [hplace]; rfl) hheld
      have hawake : x.asking ≠ .asleep := by
        intro hasleep
        simp [hasleep, Asking.withdraws] at hwithdraws
      rw [if_neg hawake]
      exact hwithdraws
  case cancelling =>
    cases hy
    exact ⟨h.holds, fun ha => (h.awake ha).imp_right (by simp [hplace]), fun _ h => by cases h⟩
  case finding =>
    cases hy
    refine ⟨h.holds, fun ha => (h.awake ha).imp_right (by simp [hplace]), fun _ hresolves hheld => ?_⟩
    rw [if_pos hheld] at hresolves
    cases hresolves

/-- **Whatever happens, both sides heed each other.** -/
theorem Heeds.next (h : Heeds x) (hy : x.next? move = some y) : Heeds y := by
  cases move with
  | ask =>
    rw [next?] at hy
    split_ifs at hy with hidle
    cases hy
    exact ⟨fun _ => rfl, (by simp), fun _ _ _ => rfl⟩
  | askingStep => exact h.stepAsking hy
  | wakeByItself =>
    rw [next?] at hy
    split_ifs at hy with hasleep
    cases hy
    exact h.of_asking (fun _ => rfl) (by simp) fun _ hw => by simp [hasleep, Asking.withdraws] at hw
  | returnEarly =>
    rw [next?] at hy
    split_ifs at hy with hwait
    cases hy
    refine h.of_asking (fun _ => rfl) (by simp) fun _ hw => ?_
    rcases hwait with hwait | hwait <;> simp [hwait, Asking.withdraws] at hw
  | answer line =>
    rw [next?] at hy
    split_ifs at hy with hready
    cases hy
    exact ⟨h.holds, fun ha => (h.awake ha).imp_right (by simp [hready.1]), fun _ h => by cases h⟩
  | terminate =>
    rw [next?] at hy
    split_ifs at hy with hidle
    cases hy
    refine ⟨h.holds, fun ha => (h.awake ha).imp_right (by simp [hidle]), fun hcancelled _ => ?_⟩
    exact h.heard hcancelled (by rw [hidle]; rfl)
  | answeringStep => exact h.stepAnswering hy

/-! ## What a cancel leaves behind -/

/-- Cancelled, nobody is asleep, and the flag is up only where the asking side is about to take it
down. -/
structure Settled (x : Exchange) : Prop where
  cancelled : x.mailbox.cancelled = true
  awake : x.asking ≠ .asleep
  held : x.mailbox.held = true → x.asking.withdraws = true

lemma Heeds.settled (h : Heeds x) (hcancelled : x.mailbox.cancelled = true)
    (hidle : x.answering = .idle) : Settled x where
  cancelled := hcancelled
  awake hasleep := by
    have hheld := (h.awake hasleep).resolve_right (by simp [hidle])
    have hwithdraws := h.heard hcancelled (by rw [hidle]; rfl) hheld
    simp [hasleep, Asking.withdraws] at hwithdraws
  held := h.heard hcancelled (by rw [hidle]; rfl)

namespace Settled

lemma released (h : Settled x) (hplace : x.asking.withdraws = false) : x.mailbox.held = false :=
  Bool.eq_false_iff.2 fun hheld => by simp [h.held hheld] at hplace

lemma of_released (hcancelled : x.mailbox.cancelled = true) (hawake : x.asking ≠ .asleep)
    (hheld : x.mailbox.held = false) : Settled x :=
  ⟨hcancelled, hawake, fun h => absurd h (by simp [hheld])⟩

lemma stepAsking (h : Settled x) (hy : x.stepAsking? = some y) : Settled y := by
  rw [stepAsking?] at hy
  cases hplace : x.asking <;> rw [hplace] at hy
  case idle | asleep => cases hy
  case raised =>
    cases hy
    simp only [if_pos h.cancelled]
    exact ⟨h.cancelled, (by simp), fun _ => rfl⟩
  case withdrawing =>
    cases hy
    exact of_released h.cancelled (by simp [finish]) rfl
  case signalling =>
    cases hy
    exact of_released h.cancelled (by simp) (h.released (by rw [hplace]; rfl))
  case polling | waiting =>
    have hheld := h.released (by rw [hplace]; rfl)
    cases hy
    exact of_released h.cancelled (by simp [hheld]) hheld
  case checking =>
    cases hy
    exact of_released h.cancelled (by simp [h.cancelled]) (h.released (by rw [hplace]; rfl))
  case opening | reading =>
    have hheld := h.released (by rw [hplace]; rfl)
    simp only at hy
    split_ifs at hy <;> cases hy <;> exact of_released h.cancelled (by simp [finish]) hheld

lemma stepAnswering (h : Settled x) (hy : x.stepAnswering? = some y) : Settled y := by
  rw [stepAnswering?] at hy
  rcases hplace : x.answering with _ | ⟨_ | ⟨⟨word, k⟩, rest⟩⟩ | _ | _ | _ | _ <;> rw [hplace] at hy
  case idle => cases hy
  case releasing =>
    cases hy
    exact of_released h.cancelled h.awake rfl
  case waking =>
    cases hy
    simp only [if_neg h.awake]
    exact ⟨h.cancelled, h.awake, h.held⟩
  case cancelling =>
    cases hy
    exact ⟨rfl, h.awake, h.held⟩
  case writing.nil | writing.cons | finding =>
    cases hy
    exact ⟨h.cancelled, h.awake, h.held⟩

/-- **What is settled stays so.** -/
theorem next (h : Settled x) (hy : x.next? move = some y) : Settled y := by
  cases move with
  | ask =>
    rw [next?] at hy
    split_ifs at hy
    cases hy
    exact ⟨h.cancelled, (by simp), fun _ => rfl⟩
  | askingStep => exact h.stepAsking hy
  | wakeByItself =>
    rw [next?, if_neg h.awake] at hy
    cases hy
  | returnEarly =>
    rw [next?] at hy
    split_ifs at hy with hwait
    cases hy
    have hwaiting := hwait.resolve_right h.awake
    exact of_released h.cancelled (by simp) (h.released (by rw [hwaiting]; rfl))
  | answer line | terminate =>
    rw [next?] at hy
    split_ifs at hy
    cases hy
    exact ⟨h.cancelled, h.awake, h.held⟩
  | answeringStep => exact h.stepAnswering hy

lemma of_reachable (h : Settled x) (hy : Reachable x y) : Settled y := by
  induction hy with
  | start => exact h
  | step move _ hnext ih => exact ih.next hnext

end Settled

lemma heeds_of_reachable (hheld : m.held = false) (h : Reachable (start m) x) : Heeds x := by
  induction h with
  | start => exact heeds_start hheld
  | step move _ hnext ih => exact ih.next hnext

/-! ## Each side comes to its end -/

/-- **Step by step, a cancel is what it is as a whole.** -/
theorem answeringAlone_terminate (h : x.next? .terminate = some y) :
    ∃ z, AnsweringAlone y z ∧ z.answering = .idle ∧ z.mailbox = x.mailbox.terminate := by
  rw [next?] at h
  split_ifs at h
  cases h
  have hcancel : AnsweringAlone { x with answering := .cancelling } { x with
      mailbox := { x.mailbox with cancelled := true }, answering := .finding } := .single rfl
  cases hheld : x.mailbox.held with
  | false =>
    refine ⟨_, hcancel.tail rfl, ?_, ?_⟩ <;> simp [hheld, Mailbox.terminate]
  | true =>
    obtain ⟨z, hsteps, hidle, hmailbox⟩ := answeringAlone_of_writing (x := { x with
      mailbox := { x.mailbox with cancelled := true }
      answering := writingOf x.mailbox none }) rfl
    refine ⟨z, (hcancel.tail ?_).trans hsteps, hidle, ?_⟩
    · simp [stepAnswering?, hheld, writingOf]
    · simp only [hmailbox, Mailbox.terminate, hheld, if_true]
      rfl

/-- **After a cancel, the asking side comes back by itself.** -/
theorem Settled.askingAlone (h : Settled x) : ∃ y, AskingAlone x y ∧ y.asking = .idle := by
  have hwithdrawn : AskingAlone { x with asking := .withdrawing }
      ({ x with mailbox := x.mailbox.release }.finish none) := .single rfl
  cases hplace : x.asking with
  | idle => exact ⟨x, .refl, hplace⟩
  | raised | checking =>
    have hstep : x.stepAsking? = some { x with asking := .withdrawing } := by
      simp [stepAsking?, hplace, h.cancelled]
    exact ⟨_, .head hstep hwithdrawn, rfl⟩
  | signalling =>
    have hstep : x.stepAsking? = some { x with asking := .polling, signalled := true } := by
      simp [stepAsking?, hplace]
    obtain ⟨y, hsteps, hback⟩ := askingAlone_of_polling
      (x := { x with asking := .polling, signalled := true }) rfl (h.released (by rw [hplace]; rfl))
    exact ⟨y, .head hstep hsteps, hback.1⟩
  | polling =>
    obtain ⟨y, hsteps, hback⟩ := askingAlone_of_polling hplace (h.released (by rw [hplace]; rfl))
    exact ⟨y, hsteps, hback.1⟩
  | waiting =>
    obtain ⟨y, hsteps, hback⟩ := askingAlone_of_waiting hplace (h.released (by rw [hplace]; rfl))
    exact ⟨y, hsteps, hback.1⟩
  | asleep => exact absurd hplace h.awake
  | withdrawing =>
    have hstep : x.stepAsking? = some ({ x with mailbox := x.mailbox.release }.finish none) := by
      simp [stepAsking?, hplace]
    exact ⟨_, .single hstep, rfl⟩
  | opening =>
    obtain ⟨y, hsteps, hback⟩ := askingAlone_of_opening hplace
    exact ⟨y, hsteps, hback.1⟩
  | reading =>
    obtain ⟨y, hsteps, hidle, -⟩ := askingAlone_of_reading hplace
    exact ⟨y, hsteps, hidle⟩

end Exchange

namespace LatchedExchange

variable {m : Mailbox} {x y : LatchedExchange} {move : Exchange.Move}

/-! ## Under a lock -/

/-- Whoever has the lock is in the pause, or waking the other. -/
structure Kept (x : LatchedExchange) : Prop where
  asking : x.latch = .looking ∨ x.latch = .dozing ∨ x.latch = .leaving →
    x.exchange.asking = .waiting
  answering : x.latch = .calling ∨ x.latch = .called → x.exchange.answering = .waking

/-- What is seen from outside, where looking at the flag and falling asleep, or leaving, are one step,
and so are waking and being done with it. -/
def outline (x : LatchedExchange) : Exchange :=
  match x.latch with
  | .dozing => { x.exchange with asking := .asleep }
  | .leaving => { x.exchange with asking := .polling }
  | .called => { x.exchange with answering := .idle }
  | _ => x.exchange

lemma mailbox_outline (x : LatchedExchange) : x.outline.mailbox = x.exchange.mailbox := by
  rw [outline]
  split <;> rfl

/-- The asking side does not look at where the other is. -/
lemma next_answering {x : Exchange} (a : Answering)
    (hmove : move = .ask ∨ move = .askingStep ∨ move = .wakeByItself) :
    ({ x with answering := a } : Exchange).next? move =
      (x.next? move).map fun y => { y with answering := a } := by
  rcases hmove with rfl | rfl | rfl
  · simp only [Exchange.next?]
    split <;> rfl
  · simp only [Exchange.next?, Exchange.stepAsking?]
    cases x.asking <;> simp only [Option.map_some, Option.map_none]
    case withdrawing => rfl
    case opening | reading => split <;> rfl
  · simp only [Exchange.next?]
    split <;> rfl

/-- Nor does the answering side, unless it wakes the other. -/
lemma next_asking {x : Exchange} (a : Asking) (hplace : x.answering ≠ .waking)
    (hmove : (∃ line, move = .answer line) ∨ move = .terminate ∨ move = .answeringStep) :
    ({ x with asking := a } : Exchange).next? move =
      (x.next? move).map fun y => { y with asking := a } := by
  obtain ⟨line, rfl⟩ | rfl | rfl := hmove
  · simp only [Exchange.next?]
    split <;> rfl
  · simp only [Exchange.next?]
    split <;> rfl
  · simp only [Exchange.next?, Exchange.stepAnswering?]
    rcases h : x.answering with _ | ⟨_ | ⟨⟨word, k⟩, rest⟩⟩ | _ | _ | _ | _ <;>
      simp only [Option.map_some, Option.map_none]
    case waking => exact absurd h hplace

/-- A step of the asking side under the lock. -/
lemma outline_pause (hplace : x.exchange.asking = .waiting) (hy : x.stepAsking? = some y) :
    y.outline = x.outline ∨ x.outline.next? .askingStep = some y.outline := by
  rw [stepAsking?, if_pos hplace] at hy
  cases hlatch : x.latch <;> rw [hlatch] at hy <;> cases hy
  case free | dozing | leaving =>
    left
    simp only [outline, hlatch]
  case looking =>
    right
    cases hheld : x.exchange.mailbox.held <;>
      simp [outline, hlatch, Exchange.next?, Exchange.stepAsking?, hplace, hheld]

/-- A step of the answering side that wakes the other. -/
lemma outline_call (hplace : x.exchange.answering = .waking) (hy : x.stepAnswering? = some y) :
    y.outline = x.outline ∨ x.outline.next? .answeringStep = some y.outline := by
  rw [stepAnswering?, if_pos hplace] at hy
  cases hlatch : x.latch <;> rw [hlatch] at hy <;> cases hy
  case free | called =>
    left
    simp only [outline, hlatch]
  case calling =>
    right
    simp [outline, hlatch, Exchange.next?, Exchange.stepAnswering?, hplace]

lemma kept_free (e : Exchange) : Kept ⟨e, .free⟩ := ⟨by simp, by simp⟩

lemma kept_pause (hplace : x.exchange.asking = .waiting) (hy : x.stepAsking? = some y) : Kept y := by
  rw [stepAsking?, if_pos hplace] at hy
  cases hlatch : x.latch <;> rw [hlatch] at hy <;> cases hy
  case free => exact ⟨fun _ => hplace, by simp⟩
  case looking => exact ⟨fun _ => hplace, fun hcall => by split at hcall <;> simp at hcall⟩
  case dozing | leaving => exact kept_free _

lemma kept_call (hplace : x.exchange.answering = .waking) (hy : x.stepAnswering? = some y) :
    Kept y := by
  rw [stepAnswering?, if_pos hplace] at hy
  cases hlatch : x.latch <;> rw [hlatch] at hy <;> cases hy
  case free | calling => exact ⟨by simp, fun _ => hplace⟩
  case called => exact kept_free _

lemma answering_stepAsking {x y : Exchange} (hy : x.stepAsking? = some y) :
    y.answering = x.answering := by
  have hnext := next_answering x.answering (.inr (.inl rfl)) (x := x)
  obtain ⟨z, hz, rfl⟩ := Option.map_eq_some_iff.1 (hnext.symm.trans hy)
  rfl

lemma asking_stepAnswering {x y : Exchange} (hplace : x.answering ≠ .waking)
    (hy : x.stepAnswering? = some y) : y.asking = x.asking := by
  have hnext := next_asking x.asking hplace (.inr (.inr rfl))
  obtain ⟨z, hz, rfl⟩ := Option.map_eq_some_iff.1 (hnext.symm.trans hy)
  rfl

namespace Kept

variable {e : Exchange} (h : Kept x)

include h

/-- A move of the asking side outside the pause. -/
lemma outline_asking (hplace : x.exchange.asking ≠ .waiting)
    (hmove : move = .ask ∨ move = .askingStep ∨ move = .wakeByItself)
    (he : x.exchange.next? move = some e) :
    x.outline.next? move = some ({ x with exchange := e } : LatchedExchange).outline := by
  cases hlatch : x.latch with
  | free | calling => simpa only [outline, hlatch] using he
  | called =>
    have hnext := next_answering .idle hmove (x := x.exchange)
    rw [he] at hnext
    simpa only [outline, hlatch, Option.map_some] using hnext
  | looking => exact absurd (h.asking (.inl hlatch)) hplace
  | dozing => exact absurd (h.asking (.inr (.inl hlatch))) hplace
  | leaving => exact absurd (h.asking (.inr (.inr hlatch))) hplace

/-- A move of the answering side that does not wake the other. -/
lemma outline_answering (hplace : x.exchange.answering ≠ .waking)
    (hmove : (∃ line, move = .answer line) ∨ move = .terminate ∨ move = .answeringStep)
    (he : x.exchange.next? move = some e) :
    x.outline.next? move = some ({ x with exchange := e } : LatchedExchange).outline := by
  cases hlatch : x.latch with
  | free | looking => simpa only [outline, hlatch] using he
  | dozing =>
    have hnext := next_asking .asleep hplace hmove
    rw [he] at hnext
    simpa only [outline, hlatch, Option.map_some] using hnext
  | leaving =>
    have hnext := next_asking .polling hplace hmove
    rw [he] at hnext
    simpa only [outline, hlatch, Option.map_some] using hnext
  | calling => exact absurd (h.answering (.inl hlatch)) hplace
  | called => exact absurd (h.answering (.inr hlatch)) hplace

/-- **From outside, a move is a move or nothing at all.** -/
theorem outline_next (hy : x.next? move = some y) :
    y.outline = x.outline ∨ ∃ move, x.outline.next? move = some y.outline := by
  cases move with
  | ask | wakeByItself =>
    obtain ⟨e, he, rfl⟩ := Option.map_eq_some_iff.1 hy
    have hplace : x.exchange.asking ≠ .waiting := by
      intro hplace
      simp [Exchange.next?, hplace] at he
    exact .inr ⟨_, h.outline_asking hplace (by simp) he⟩
  | askingStep =>
    by_cases hplace : x.exchange.asking = .waiting
    · exact (outline_pause hplace hy).imp_right fun hnext => ⟨_, hnext⟩
    · rw [next?, stepAsking?, if_neg hplace] at hy
      obtain ⟨e, he, rfl⟩ := Option.map_eq_some_iff.1 hy
      exact .inr ⟨.askingStep, h.outline_asking hplace (by simp) he⟩
  | returnEarly => cases hy
  | answer line | terminate =>
    obtain ⟨e, he, rfl⟩ := Option.map_eq_some_iff.1 hy
    have hplace : x.exchange.answering ≠ .waking := by
      intro hplace
      simp [Exchange.next?, hplace] at he
    exact .inr ⟨_, h.outline_answering hplace (by simp) he⟩
  | answeringStep =>
    by_cases hplace : x.exchange.answering = .waking
    · exact (outline_call hplace hy).imp_right fun hnext => ⟨_, hnext⟩
    · rw [next?, stepAnswering?, if_neg hplace] at hy
      obtain ⟨e, he, rfl⟩ := Option.map_eq_some_iff.1 hy
      exact .inr ⟨.answeringStep, h.outline_answering hplace (by simp) he⟩

/-- Nobody has the lock for the other. -/
theorem next (hy : x.next? move = some y) : Kept y := by
  cases move with
  | ask | wakeByItself =>
    obtain ⟨e, he, rfl⟩ := Option.map_eq_some_iff.1 hy
    rw [Exchange.next?] at he
    split_ifs at he with hplace
    cases he
    exact ⟨fun hlatch => by simp [h.asking hlatch] at hplace, h.answering⟩
  | askingStep =>
    by_cases hplace : x.exchange.asking = .waiting
    · exact kept_pause hplace hy
    · rw [next?, stepAsking?, if_neg hplace] at hy
      obtain ⟨e, he, rfl⟩ := Option.map_eq_some_iff.1 hy
      refine ⟨fun hlatch => absurd (h.asking hlatch) hplace, fun hlatch => ?_⟩
      rw [answering_stepAsking he]
      exact h.answering hlatch
  | returnEarly => cases hy
  | answer line | terminate =>
    obtain ⟨e, he, rfl⟩ := Option.map_eq_some_iff.1 hy
    rw [Exchange.next?] at he
    split_ifs at he with hplace
    cases he
    exact ⟨h.asking, fun hlatch => by simp [h.answering hlatch] at hplace⟩
  | answeringStep =>
    by_cases hplace : x.exchange.answering = .waking
    · exact kept_call hplace hy
    · rw [next?, stepAnswering?, if_neg hplace] at hy
      obtain ⟨e, he, rfl⟩ := Option.map_eq_some_iff.1 hy
      refine ⟨fun hlatch => ?_, fun hlatch => absurd (h.answering hlatch) hplace⟩
      rw [asking_stepAnswering hplace he]
      exact h.asking hlatch

end Kept

/-- **From outside, an exchange under a lock is an exchange.** -/
theorem reachable_outline (hkept : Kept x) (h : Reachable x y) :
    Exchange.Reachable x.outline y.outline ∧ Kept y := by
  induction h with
  | start => exact ⟨.start, hkept⟩
  | step move _ hnext ih =>
    obtain ⟨hreached, hkept⟩ := ih
    refine ⟨?_, hkept.next hnext⟩
    obtain heq | ⟨_, hmove⟩ := hkept.outline_next hnext
    · exact heq ▸ hreached
    · exact hreached.step _ hmove

/-! ## The main statement -/

/-- The asking side takes some steps, and the answering side none. -/
abbrev AskingAlone : LatchedExchange → LatchedExchange → Prop :=
  Relation.ReflTransGen fun x y => x.stepAsking? = some y

lemma reachable_asking (h : Reachable (start m) x) (hsteps : AskingAlone x y) :
    Reachable (start m) y := by
  induction hsteps with
  | refl => exact h
  | tail _ hstep ih => exact ih.step .askingStep hstep

/-- While nobody has the lock, a step of the asking side is one step, or three in the pause. -/
lemma askingAlone_step {d e : Exchange} (h : d.stepAsking? = some e) :
    AskingAlone ⟨d, .free⟩ ⟨e, .free⟩ := by
  by_cases hplace : d.asking = .waiting
  · have hlook (l : Latch) (hlatch : l = .free ∨ l = .looking) : stepAsking? ⟨d, l⟩ =
        some ⟨d, if l = .free then .looking else if d.mailbox.held then .dozing else .leaving⟩ := by
      rcases hlatch with rfl | rfl <;> simp [stepAsking?, hplace]
    refine .head (hlook .free (by simp)) (.head (hlook .looking (by simp)) (.single ?_))
    cases hheld : d.mailbox.held <;>
      simpa [Exchange.stepAsking?, stepAsking?, hplace, hheld] using h
  · exact .single (by rw [stepAsking?, if_neg hplace, h]; rfl)

/-- While nobody has the lock, the asking side gets as far as without one. -/
lemma askingAlone_free {d e : Exchange} (h : Exchange.AskingAlone d e) :
    AskingAlone ⟨d, .free⟩ ⟨e, .free⟩ :=
  Relation.ReflTransGen.lift' (LatchedExchange.mk · .free) (fun _ _ => askingAlone_step) _ _ h

/-- Asleep, or about to fall asleep without another look at the flag, or about to wait for a flag that
is up. -/
def Stuck (x : LatchedExchange) : Prop :=
  x.exchange.asking = .asleep ∨ x.latch = .dozing ∨
    x.exchange.asking = .waiting ∧ x.exchange.mailbox.held = true

/-- What a cancel leaves behind, whatever the lock is in the midst of. -/
lemma Kept.not_stuck (hkept : Kept x) (h : Exchange.Settled x.outline) : ¬Stuck x := by
  have hmailbox := mailbox_outline x
  rintro (hasleep | hdozing | ⟨hwaiting, hheld⟩)
  · have houtline : x.outline.asking = .asleep := by
      cases hlatch : x.latch <;> simp only [outline, hlatch, hasleep]
      case leaving => simp [hkept.asking (.inr (.inr hlatch))] at hasleep
    exact h.awake houtline
  · exact h.awake (by simp only [outline, hdozing])
  · have hwithdraws := h.held (by rw [hmailbox, hheld])
    cases hlatch : x.latch <;> simp [outline, hlatch, hwaiting, Asking.withdraws] at hwithdraws

/-- Once the cancel is through, the asking side gets out of the pause, the lock and the question. -/
lemma Kept.askingAlone (hkept : Kept x) (h : Exchange.Settled x.outline)
    (hidle : x.exchange.answering = .idle) : ∃ y, AskingAlone x y ∧ y.exchange.asking = .idle := by
  obtain ⟨e, l⟩ := x
  have hback {e : Exchange} (h : Exchange.Settled e) :
      ∃ y, AskingAlone ⟨e, .free⟩ y ∧ y.exchange.asking = .idle := by
    obtain ⟨d, hsteps, hd⟩ := h.askingAlone
    exact ⟨⟨d, .free⟩, askingAlone_free hsteps, hd⟩
  cases l with
  | free => exact hback h
  | looking =>
    have hplace : e.asking = .waiting := hkept.asking (.inl rfl)
    have hheld : e.mailbox.held = false := h.released (by simp [outline, hplace, Asking.withdraws])
    obtain ⟨y, hsteps, hy⟩ := hback (e := { e with asking := .polling })
      (.of_released h.cancelled nofun hheld)
    have hlook : stepAsking? ⟨e, .looking⟩ = some ⟨e, .leaving⟩ := by
      simp [stepAsking?, hplace, hheld]
    have hleave : stepAsking? ⟨e, .leaving⟩ = some ⟨{ e with asking := .polling }, .free⟩ := by
      simp [stepAsking?, hplace]
    exact ⟨y, .head hlook (.head hleave hsteps), hy⟩
  | dozing => exact absurd rfl h.awake
  | leaving =>
    have hplace : e.asking = .waiting := hkept.asking (.inr (.inr rfl))
    obtain ⟨y, hsteps, hy⟩ := hback (e := { e with asking := .polling }) h
    have hleave : stepAsking? ⟨e, .leaving⟩ = some ⟨{ e with asking := .polling }, .free⟩ := by
      simp [stepAsking?, hplace]
    exact ⟨y, .head hleave hsteps, hy⟩
  | calling => nomatch hidle.symm.trans (hkept.answering (.inl rfl))
  | called => nomatch hidle.symm.trans (hkept.answering (.inr rfl))

/-- Whoever does not ask has left no flag up. -/
lemma released_of_idle (hheld : m.held = false) (h : Reachable (start m) x)
    (hidle : x.exchange.asking = .idle) : x.exchange.mailbox.held = false := by
  obtain ⟨hreached, hkept⟩ := reachable_outline (kept_free _) h
  have hheeds := Exchange.heeds_of_reachable hheld hreached
  rw [← mailbox_outline]
  refine hheeds.released ?_
  cases hlatch : x.latch <;> simp only [outline, hlatch, hidle] <;> try rfl
  all_goals simp [hkept.asking (by simp [hlatch])] at hidle

/-- **A cancel is always heard.**  Take any interleaving of the steps of both sides under the lock, with
as many questions, answers and cancels as one likes.

* Whenever the asking side is back, the flag is down.
* Once a cancel is through, the asking side is not stuck in the pause, nor ever will be.
* It comes back by itself then, and the flag is down. -/
theorem cancel_is_heard (hheld : m.held = false) (h : Reachable (start m) x) :
    (x.exchange.asking = .idle → x.exchange.mailbox.held = false) ∧
    (x.exchange.mailbox.cancelled = true → x.exchange.answering = .idle →
      (∀ y, Reachable x y → ¬Stuck y) ∧
      ∃ y, AskingAlone x y ∧ y.exchange.asking = .idle ∧ y.exchange.mailbox.held = false) := by
  refine ⟨released_of_idle hheld h, fun hcancelled hidle => ?_⟩
  obtain ⟨hreached, hkept⟩ := reachable_outline (kept_free _) h
  have hsettled : Exchange.Settled x.outline := by
    refine (Exchange.heeds_of_reachable hheld hreached).settled ?_ ?_
    · rw [mailbox_outline, hcancelled]
    · cases hlatch : x.latch <;> simp only [outline, hlatch, hidle]
  refine ⟨fun y hy => ?_, ?_⟩
  · obtain ⟨houtline, hykept⟩ := reachable_outline hkept hy
    exact hykept.not_stuck (hsettled.of_reachable houtline)
  · obtain ⟨y, hsteps, hback⟩ := hkept.askingAlone hsettled hidle
    exact ⟨y, hsteps, hback, released_of_idle hheld (reachable_asking h hsteps) hback⟩

/-- What some moves lead to; none if one of them cannot be made. -/
def run? (moves : List Exchange.Move) (x : LatchedExchange) : Option LatchedExchange :=
  moves.foldlM next? x

lemma reachable_run {moves : List Exchange.Move} (h : Reachable (start m) x)
    (hy : run? moves x = some y) : Reachable (start m) y := by
  induction moves generalizing x with
  | nil =>
    cases hy
    exact h
  | cons move moves ih =>
    simp only [run?, List.foldlM_cons, Option.bind_eq_bind, Option.bind_eq_some_iff] at hy
    obtain ⟨z, hz, hy⟩ := hy
    exact ih (h.step move hz) hy

/-- The flag goes down where the asking side has seen it up and is about to fall asleep; it is called
only once it sleeps. -/
def cancelWhileDozing : List Exchange.Move :=
  .ask :: List.replicate 6 .askingStep ++ .terminate :: List.replicate 5 .answeringStep ++
    .askingStep :: List.replicate 3 .answeringStep

theorem cancel_is_heard_dozing :
    ∃ x, Reachable (start ⟨false, .zeros 4, false⟩) x ∧ x.exchange.mailbox.cancelled = true ∧
      x.exchange.answering = .idle ∧ x.exchange.asking = .waiting ∧ (∀ y, Reachable x y → ¬Stuck y) ∧
      ∃ y, AskingAlone x y ∧ y.exchange.asking = .idle ∧ y.exchange.mailbox.held = false := by
  have hrun : (run? cancelWhileDozing (start ⟨false, .zeros 4, false⟩)).any (fun x =>
      x.exchange.mailbox.cancelled ∧ x.exchange.answering = .idle ∧ x.exchange.asking = .waiting) =
      true := by decide +kernel
  obtain ⟨x, hx, hseen⟩ := Option.any_eq_true _ _ |>.1 hrun
  obtain ⟨hcancelled, hidle, hwaiting⟩ := of_decide_eq_true hseen
  have hreached := reachable_run .start hx
  obtain ⟨-, hheard⟩ := cancel_is_heard rfl hreached
  obtain ⟨hnever, hback⟩ := hheard hcancelled hidle
  exact ⟨x, hreached, hcancelled, hidle, hwaiting, hnever, hback⟩

end LatchedExchange

end GuestShell
