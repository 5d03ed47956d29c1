import GuestShell.Session.Mailbox
import GuestShell.Proofs.Session.WindowLines
import Mathlib.Logic.Relation

/-!
# The two sides of a mailbox agree

Both sides take their steps at the same time, in any order, and the one that waits may stop waiting for
no reason.  Still every question gets the answer that was given to it, and no other.

An onlooker watches an exchange and notes down what was asked and answered (`Watched`, `Course`).  What
he sees of one question comes in three stages: it is unanswered, its answer is underway, it is answered
(`Unanswered`, `Underway`, `Answered`).  Only the answering side leads from one stage to the next, until
the asking side has its answer and is back.  A left-over of the question before is at most a wake-up
call, and that does no harm.
-/

namespace GuestShell

namespace Asking

/-- Waiting for the flag to go down. -/
def pauses : Asking → Bool
  | .polling | .checking | .waiting | .asleep => true
  | _ => false

/-- Looking at the window. -/
def reads : Asking → Bool
  | .opening | .reading .. => true
  | _ => false

end Asking

namespace Exchange

variable {m : Mailbox} {x y : Exchange} {move : Move} {line : Option String}

/-! ## Moves -/

/-- What a move comes to when nobody cancels. -/
inductive Turn (x : Exchange) : Move → Exchange → Prop
  | asked (h : x.asking = .idle) :
    Turn x .ask { x with mailbox := x.mailbox.hold, asking := .raised }
  | passed (h : x.asking = .raised) : Turn x .askingStep { x with asking := .signalling }
  | told (h : x.asking = .signalling) :
    Turn x .askingStep { x with asking := .polling, signalled := true }
  /-- While it pauses, the asking side moves from one place to another, or finds the flag down. -/
  | stirred {move : Move} (a : Asking) (h : x.asking.pauses)
    (hmove : move = .askingStep ∨ move = .wakeByItself ∨ move = .returnEarly)
    (ha : a.pauses ∧ (a = .asleep → x.mailbox.held) ∨ a = .opening ∧ x.mailbox.held = false) :
    Turn x move { x with asking := a }
  | withdrew (h : x.asking = .withdrawing) :
    Turn x .askingStep ({ x with mailbox := x.mailbox.release }.finish none)
  | ended (h : x.asking = .opening)
    (hend : x.mailbox.window.words.isEmpty ∨ x.mailbox.window.load 0 = Window.endOfInput) :
    Turn x .askingStep (x.finish none)
  | opened (h : x.asking = .opening)
    (hend : ¬(x.mailbox.window.words.isEmpty ∨ x.mailbox.window.load 0 = Window.endOfInput)) :
    Turn x .askingStep { x with asking := .reading 0 [] }
  | read {k : Nat} {line : List Char} (h : x.asking = .reading k line)
    (hend : x.mailbox.window.words.length ≤ k ∨ x.mailbox.window.load k = 0) :
    Turn x .askingStep (x.finish (some (.ofList line)))
  | readOn {k : Nat} {line : List Char} (h : x.asking = .reading k line)
    (hend : ¬(x.mailbox.window.words.length ≤ k ∨ x.mailbox.window.load k = 0)) :
    Turn x .askingStep { x with
      asking := .reading (k + 1) (line ++ (Window.char? (x.mailbox.window.load k)).toList) }
  | answered {line : Option String} (h : x.answering = .idle) (hs : x.signalled = true) :
    Turn x (.answer line) { x with answering := writingOf x.mailbox line, signalled := false }
  | stored {word : Int32} {k : Nat} {rest : List (Int32 × Nat)}
    (h : x.answering = .writing ((word, k) :: rest)) :
    Turn x .answeringStep { x with
      mailbox := { x.mailbox with window := x.mailbox.window.store k word }
      answering := .writing rest }
  | written (h : x.answering = .writing []) :
    Turn x .answeringStep { x with answering := .releasing }
  | released (h : x.answering = .releasing) :
    Turn x .answeringStep { x with mailbox := x.mailbox.release, answering := .waking }
  | woke (h : x.answering = .waking) : Turn x .answeringStep { x with
      asking := if x.asking = .asleep then .waiting else x.asking
      answering := .idle }

lemma turn_of_stepAsking (hc : x.mailbox.cancelled = false) (h : x.stepAsking? = some y) :
    Turn x .askingStep y := by
  rw [stepAsking?] at h
  cases hplace : x.asking <;> rw [hplace] at h
  case idle | asleep => cases h
  case raised =>
    simp only [hc, Bool.false_eq_true, if_false, Option.some.injEq] at h
    exact h ▸ .passed hplace
  case signalling =>
    cases h
    exact .told hplace
  case polling =>
    cases h
    refine .stirred _ (by rw [hplace]; rfl) (.inl rfl) ?_
    cases x.mailbox.held <;> simp [Asking.pauses]
  case checking =>
    simp only [hc, Bool.false_eq_true, if_false, Option.some.injEq] at h
    exact h ▸ .stirred _ (by rw [hplace]; rfl) (.inl rfl) (.inl ⟨rfl, by simp⟩)
  case waiting =>
    cases h
    refine .stirred _ (by rw [hplace]; rfl) (.inl rfl) ?_
    cases x.mailbox.held <;> simp [Asking.pauses]
  case withdrawing =>
    cases h
    exact .withdrew hplace
  case opening =>
    simp only at h
    split_ifs at h with hend <;> cases h
    · exact .ended hplace hend
    · exact .opened hplace hend
  case reading k line =>
    simp only at h
    split_ifs at h with hend <;> cases h
    · exact .read hplace hend
    · exact .readOn hplace hend

lemma turn_of_stepAnswering (hcancelling : x.answering ≠ .cancelling)
    (hfinding : x.answering ≠ .finding) (h : x.stepAnswering? = some y) :
    Turn x .answeringStep y := by
  rw [stepAnswering?] at h
  rcases hplace : x.answering with _ | ⟨_ | ⟨⟨word, k⟩, rest⟩⟩ | _ | _ | _ | _ <;> rw [hplace] at h
  · cases h
  · cases h
    exact .written hplace
  · cases h
    exact .stored hplace
  · cases h
    exact .released hplace
  · cases h
    exact .woke hplace
  · exact absurd hplace hcancelling
  · exact absurd hplace hfinding

/-- **Where nobody cancels, every move is one of these.** -/
theorem turn_of_next (hc : x.mailbox.cancelled = false) (hcancelling : x.answering ≠ .cancelling)
    (hfinding : x.answering ≠ .finding) (hmove : move ≠ .terminate) (h : x.next? move = some y) :
    Turn x move y := by
  cases move with
  | ask =>
    rw [next?] at h
    split_ifs at h with hidle
    cases h
    exact .asked hidle
  | askingStep => exact turn_of_stepAsking hc h
  | wakeByItself =>
    rw [next?] at h
    split_ifs at h with hasleep
    cases h
    exact .stirred _ (by rw [hasleep]; rfl) (.inr (.inl rfl)) (.inl ⟨rfl, by simp⟩)
  | returnEarly =>
    rw [next?] at h
    split_ifs at h with hwait
    cases h
    refine .stirred _ ?_ (.inr (.inr rfl)) (.inl ⟨rfl, by simp⟩)
    rcases hwait with hwait | hwait <;> rw [hwait] <;> rfl
  | answer line =>
    rw [next?] at h
    split_ifs at h with hready
    cases h
    exact .answered hready.1 hready.2
  | terminate => exact absurd rfl hmove
  | answeringStep => exact turn_of_stepAnswering hcancelling hfinding h

/-! ## An onlooker -/

/-- An exchange, and what an onlooker has noted down of it. -/
structure Watched where
  now : Exchange
  /-- How many questions were begun. -/
  asked : Nat
  /-- How many times the answering side was told of one. -/
  signals : Nat
  /-- The answers that were begun, the first one first. -/
  answers : List (Option String)
  /-- How many of them have taken the flag down. -/
  released : Nat

/-- What is noted of a move. -/
def Watched.after (v : Watched) (move : Move) (y : Exchange) : Watched :=
  match move, v.now.asking, v.now.answering with
  | .ask, _, _ => { v with now := y, asked := v.asked + 1 }
  | .askingStep, .signalling, _ => { v with now := y, signals := v.signals + 1 }
  | .answer line, _, _ => { v with now := y, answers := v.answers ++ [line] }
  | .answeringStep, _, .releasing => { v with now := y, released := v.released + 1 }
  | _, _, _ => { v with now := y }

/-- What an onlooker can see when nobody cancels. -/
inductive Course (m : Mailbox) : Watched → Prop
  | start : Course m ⟨start m, 0, 0, [], 0⟩
  | move {v : Watched} {y : Exchange} (move : Move) : Course m v → move ≠ .terminate →
    v.now.next? move = some y → Course m (v.after move y)

/-! ## The stages of a question -/

variable {v : Watched}

/-- No answer to the question is underway, or there is no question. -/
structure Unanswered (v : Watched) : Prop where
  held : v.now.mailbox.held = (v.now.asking != .idle)
  signalled : v.now.signalled = v.now.asking.pauses
  not_reading : v.now.asking.reads = false
  not_withdrawing : v.now.asking ≠ .withdrawing
  answering : v.now.answering = .idle ∨ v.now.answering = .waking
  answers : v.answers.length = v.now.received.length
  released : v.released = v.now.received.length

/-- The window is being written: when all words are stored, it has what comes of the line. -/
structure Underway (m : Mailbox) (line : Option String) (v : Watched) : Prop where
  pauses : v.now.asking.pauses = true
  held : v.now.mailbox.held = true
  signalled : v.now.signalled = false
  answering : ∃ rest, (v.now.answering = .writing rest ∨ v.now.answering = .releasing ∧ rest = []) ∧
    (v.now.mailbox.window.stores rest).decode = (m.window.encode line).decode
  answers : ∃ before, v.answers = before ++ [line] ∧ before.length = v.now.received.length
  released : v.released = v.now.received.length

/-- The flag is down, and the window has what comes of the line. -/
structure Answered (m : Mailbox) (line : Option String) (v : Watched) : Prop where
  asking : v.now.asking.pauses = true ∨ v.now.asking.reads = true
  held : v.now.mailbox.held = false
  signalled : v.now.signalled = false
  answering : v.now.answering = .idle ∨ v.now.answering = .waking
  awake : v.now.asking = .asleep → v.now.answering = .waking
  window : v.now.mailbox.window.decode = (m.window.encode line).decode
  reading : ∀ k read, v.now.asking = .reading k read → v.now.mailbox.window.ReadTo k read
  answers : ∃ before, v.answers = before ++ [line] ∧ before.length = v.now.received.length
  released : v.released = v.now.received.length + 1

/-- What holds all along an exchange. -/
structure Agrees (m : Mailbox) (v : Watched) : Prop where
  size : v.now.mailbox.window.words.length = m.window.words.length
  uncancelled : v.now.mailbox.cancelled = false
  asked : v.asked = v.now.received.length + (if v.now.asking = .idle then 0 else 1)
  signals : v.signals = v.answers.length + v.now.signalled.toNat
  received : v.now.received.reverse = (v.answers.take v.now.received.length).map fun line =>
    (m.window.encode line).decode
  stage : Unanswered v ∨ ∃ line, Underway m line v ∨ Answered m line v

/-! ## What a move leads to -/

lemma Watched.after_of_pauses (h : v.now.asking.pauses)
    (hmove : move = .askingStep ∨ move = .wakeByItself ∨ move = .returnEarly) :
    v.after move y = { v with now := y } := by
  rcases hmove with rfl | rfl | rfl
  · cases hplace : v.now.asking <;> simp_all [Watched.after, Asking.pauses]
  · rfl
  · rfl

lemma Watched.after_of_reads (hreads : v.now.asking.reads = true) :
    v.after .askingStep y = { v with now := y } := by
  cases hplace : v.now.asking <;> simp_all [Watched.after, Asking.reads]

namespace Agrees

variable (h : Agrees m v)

include h

/-- A question without a pause is not answered yet. -/
lemma unanswered (hpauses : v.now.asking.pauses = false) (hreads : v.now.asking.reads = false) :
    Unanswered v := by
  rcases h.stage with hopen | ⟨line, hunder | hdone⟩
  · exact hopen
  · simp [hunder.pauses] at hpauses
  · rcases hdone.asking with hasking | hasking
    · simp [hasking] at hpauses
    · simp [hasking] at hreads

/-- Where the window is looked at, the question is answered. -/
lemma answered (hreads : v.now.asking.reads = true) : ∃ line, Answered m line v := by
  rcases h.stage with hopen | ⟨line, hunder | hdone⟩
  · simp [hopen.not_reading] at hreads
  · have hpauses := hunder.pauses
    cases hplace : v.now.asking <;> simp_all [Asking.pauses, Asking.reads]
  · exact ⟨line, hdone⟩

lemma asked_turn (hidle : v.now.asking = .idle) :
    Agrees m (v.after .ask { v.now with mailbox := v.now.mailbox.hold, asking := .raised }) := by
  have hopen := h.unanswered (by rw [hidle]; rfl) (by rw [hidle]; rfl)
  have hsignalled : v.now.signalled = false := by rw [hopen.signalled, hidle]; rfl
  refine ⟨h.size, h.uncancelled, ?_, h.signals, h.received, .inl ?_⟩
  · simp [Watched.after, h.asked, hidle]
  · exact ⟨rfl, hsignalled, rfl, by simp [Watched.after], hopen.answering, hopen.answers, hopen.released⟩

/-- The asking side goes from one place of its question to another. -/
lemma of_asking {a : Asking} (hx : v.now.asking ≠ .idle) (ha : a ≠ .idle)
    (hstage : Unanswered { v with now := { v.now with asking := a } } ∨ ∃ line,
      Underway m line { v with now := { v.now with asking := a } } ∨
        Answered m line { v with now := { v.now with asking := a } }) :
    Agrees m { v with now := { v.now with asking := a } } :=
  ⟨h.size, h.uncancelled, by simpa [hx, ha] using h.asked, h.signals, h.received, hstage⟩

lemma passed_turn (hraised : v.now.asking = .raised) :
    Agrees m (v.after .askingStep { v.now with asking := .signalling }) := by
  have hopen := h.unanswered (by rw [hraised]; rfl) (by rw [hraised]; rfl)
  have hheld : v.now.mailbox.held = true := by rw [hopen.held, hraised]; rfl
  have hsignalled : v.now.signalled = false := by rw [hopen.signalled, hraised]; rfl
  have hafter : v.after .askingStep { v.now with asking := .signalling } =
      { v with now := { v.now with asking := .signalling } } := by simp [Watched.after, hraised]
  rw [hafter]
  refine h.of_asking (by simp [hraised]) (by simp) (.inl ?_)
  exact ⟨hheld, hsignalled, rfl, by simp, hopen.answering, hopen.answers, hopen.released⟩

lemma told_turn (hsignalling : v.now.asking = .signalling) :
    Agrees m (v.after .askingStep { v.now with asking := .polling, signalled := true }) := by
  have hopen := h.unanswered (by rw [hsignalling]; rfl) (by rw [hsignalling]; rfl)
  have hheld : v.now.mailbox.held = true := by rw [hopen.held, hsignalling]; rfl
  have hsignalled : v.now.signalled = false := by rw [hopen.signalled, hsignalling]; rfl
  have hafter : v.after .askingStep { v.now with asking := .polling, signalled := true } =
      { v with
        now := { v.now with asking := .polling, signalled := true }
        signals := v.signals + 1 } := by simp [Watched.after, hsignalling]
  rw [hafter]
  refine ⟨h.size, h.uncancelled, ?_, ?_, h.received, .inl ?_⟩
  · simp [h.asked, hsignalling]
  · simp [h.signals, hsignalled]
  · exact ⟨hheld, rfl, rfl, by simp, hopen.answering, hopen.answers, hopen.released⟩

/-- Going from one pause to another changes nothing; a flag that is down is down for good. -/
lemma stirred_turn {a : Asking} (hpauses : v.now.asking.pauses = true)
    (hmove : move = .askingStep ∨ move = .wakeByItself ∨ move = .returnEarly)
    (ha : a.pauses = true ∧ (a = .asleep → v.now.mailbox.held = true) ∨
      a = .opening ∧ v.now.mailbox.held = false) :
    Agrees m (v.after move { v.now with asking := a }) := by
  have hidle : v.now.asking ≠ .idle := by
    intro hidle
    simp [hidle, Asking.pauses] at hpauses
  have haidle : a ≠ .idle := by
    rintro rfl
    simp [Asking.pauses] at ha
  rw [Watched.after_of_pauses hpauses hmove]
  refine h.of_asking hidle haidle ?_
  rcases h.stage with hopen | ⟨line, hunder | hdone⟩
  · have hheld : v.now.mailbox.held = true := by rw [hopen.held]; simpa using hidle
    obtain ⟨hapauses, -⟩ := ha.resolve_right fun hopening => by simp [hheld] at hopening
    have haplace : a.reads = false ∧ a ≠ .withdrawing := by
      cases a <;> simp_all [Asking.pauses, Asking.reads]
    refine .inl ⟨?_, ?_, haplace.1, haplace.2, hopen.answering, hopen.answers, hopen.released⟩
    · simpa [hheld] using haidle
    · simpa [hapauses, hpauses] using hopen.signalled
  · obtain ⟨hapauses, -⟩ := ha.resolve_right fun hopening => by simp [hunder.held] at hopening
    exact .inr ⟨line, .inl { hunder with pauses := hapauses }⟩
  · have haplace : a.pauses = true ∨ a.reads = true := by
      rcases ha with ⟨hapauses, -⟩ | ⟨rfl, -⟩
      · exact .inl hapauses
      · exact .inr rfl
    have hawake : a ≠ .asleep := by
      rintro rfl
      simp [hdone.held, Asking.pauses] at ha
    have hreading : ∀ k read, a ≠ .reading k read := by
      rintro k read rfl
      simp [Asking.pauses] at ha
    exact .inr ⟨line, .inr { hdone with
      asking := haplace
      awake := fun h => absurd h hawake
      reading := fun k read h => absurd h (hreading k read) }⟩

/-- The asking side has its answer: what the window holds. -/
lemma finish {line : Option String} (hdone : Answered m line v) (hidle : v.now.asking ≠ .idle)
    {got : Option String} (hgot : v.now.mailbox.window.decode = got) :
    Agrees m { v with now := v.now.finish got } := by
  obtain ⟨before, hanswers, hlength⟩ := hdone.answers
  have hall : v.answers.length = v.now.received.length + 1 := by simp [hanswers, hlength]
  refine ⟨h.size, h.uncancelled, ?_, h.signals, ?_, .inl ?_⟩
  · simp [h.asked, Exchange.finish, hidle]
  · have htake : v.answers.take v.now.received.length = before := by
      rw [hanswers, ← hlength, List.take_left]
    have hreceived := h.received
    rw [htake] at hreceived
    simp only [Exchange.finish, List.length_cons, List.reverse_cons]
    rw [← hall, List.take_length, hreceived, hanswers, List.map_append, List.map_singleton,
      ← hdone.window, hgot]
  · exact ⟨hdone.held, hdone.signalled, rfl, by simp [Exchange.finish], hdone.answering, hall,
      hdone.released⟩

lemma ended_turn (hopening : v.now.asking = .opening)
    (hend : v.now.mailbox.window.words.isEmpty ∨ v.now.mailbox.window.load 0 = Window.endOfInput) :
    Agrees m (v.after .askingStep (v.now.finish none)) := by
  have hreads : v.now.asking.reads = true := by rw [hopening]; rfl
  obtain ⟨line, hdone⟩ := h.answered hreads
  rw [Watched.after_of_reads hreads]
  refine h.finish hdone (by simp [hopening]) ?_
  rw [Window.decode, if_pos (by simpa using hend)]

/-- The words are read one by one, and nobody writes them meanwhile. -/
lemma reading_turn {k : Nat} {read : List Char} (hreads : v.now.asking.reads = true)
    (hread : v.now.mailbox.window.ReadTo k read) :
    Agrees m (v.after .askingStep { v.now with asking := .reading k read }) := by
  obtain ⟨line, hdone⟩ := h.answered hreads
  have hidle : v.now.asking ≠ .idle := by
    intro hidle
    simp [hidle, Asking.reads] at hreads
  rw [Watched.after_of_reads hreads]
  refine h.of_asking hidle (by simp) (.inr ⟨line, .inr { hdone with
    asking := .inr rfl
    awake := by simp
    reading := ?_ }⟩)
  rintro k' read' heq
  cases heq
  exact hread

lemma read_turn {k : Nat} {read : List Char} (hreading : v.now.asking = .reading k read)
    (hend : v.now.mailbox.window.words.length ≤ k ∨ v.now.mailbox.window.load k = 0) :
    Agrees m (v.after .askingStep (v.now.finish (some (.ofList read)))) := by
  have hreads : v.now.asking.reads = true := by rw [hreading]; rfl
  obtain ⟨line, hdone⟩ := h.answered hreads
  rw [Watched.after_of_reads hreads]
  exact h.finish hdone (by simp [hreading]) ((hdone.reading k read hreading).decode_eq hend)

/-- The answering side goes from one step of its answer to another. -/
lemma of_answering {b : Mailbox} {a : Answering} {released : Nat}
    (hsize : b.window.words.length = v.now.mailbox.window.words.length)
    (hcancelled : b.cancelled = v.now.mailbox.cancelled)
    (hstage : ∃ line,
      Underway m line { v with
        now := { v.now with mailbox := b, answering := a }, released := released } ∨
      Answered m line { v with
        now := { v.now with mailbox := b, answering := a }, released := released }) :
    Agrees m { v with now := { v.now with mailbox := b, answering := a }, released := released } :=
  ⟨hsize.trans h.size, hcancelled.trans h.uncancelled, h.asked, h.signals, h.received, .inr hstage⟩

/-- An answer is written only while the question waits for it. -/
lemma underway (hidle : v.now.answering ≠ .idle) (hwaking : v.now.answering ≠ .waking) :
    ∃ line, Underway m line v := by
  rcases h.stage with hopen | ⟨line, hunder | hdone⟩
  · exact absurd hopen.answering (not_or.2 ⟨hidle, hwaking⟩)
  · exact ⟨line, hunder⟩
  · exact absurd hdone.answering (not_or.2 ⟨hidle, hwaking⟩)

lemma answered_turn {line : Option String} (hsignalled : v.now.signalled = true) :
    Agrees m (v.after (.answer line) { v.now with
      answering := writingOf v.now.mailbox line
      signalled := false }) := by
  rcases h.stage with hopen | ⟨_, hunder | hdone⟩
  · have hpauses : v.now.asking.pauses = true := by rw [← hopen.signalled, hsignalled]
    have hheld : v.now.mailbox.held = true := by
      rw [hopen.held]
      cases hplace : v.now.asking <;> simp_all [Asking.pauses]
    refine ⟨h.size, h.uncancelled, h.asked, ?_, ?_, .inr ⟨line, .inl ?_⟩⟩
    · simp [Watched.after, h.signals, hsignalled]
    · simp only [Watched.after]
      rw [List.take_append_of_le_length (by rw [hopen.answers])]
      exact h.received
    · refine ⟨hpauses, hheld, rfl, ⟨_, .inl rfl, ?_⟩, ⟨_, rfl, hopen.answers⟩, hopen.released⟩
      exact Window.decode_encode_congr h.size line
  · simp [hunder.signalled] at hsignalled
  · simp [hdone.signalled] at hsignalled

lemma stored_turn {word : Int32} {k : Nat} {rest : List (Int32 × Nat)}
    (hwriting : v.now.answering = .writing ((word, k) :: rest)) :
    Agrees m (v.after .answeringStep { v.now with
      mailbox := { v.now.mailbox with window := v.now.mailbox.window.store k word }
      answering := .writing rest }) := by
  obtain ⟨line, hunder⟩ := h.underway (by simp [hwriting]) (by simp [hwriting])
  obtain ⟨left, hleft, hdecode⟩ := hunder.answering
  obtain rfl : left = (word, k) :: rest := by simpa [hwriting, eq_comm] using hleft
  have hafter : v.after .answeringStep { v.now with
      mailbox := { v.now.mailbox with window := v.now.mailbox.window.store k word }
      answering := .writing rest } = { v with now := { v.now with
        mailbox := { v.now.mailbox with window := v.now.mailbox.window.store k word }
        answering := .writing rest } } := by simp [Watched.after, hwriting]
  rw [hafter]
  refine h.of_answering (Window.length_store word) rfl ⟨line, .inl { hunder with answering := ?_ }⟩
  exact ⟨rest, .inl rfl, hdecode⟩

lemma written_turn (hwriting : v.now.answering = .writing []) :
    Agrees m (v.after .answeringStep { v.now with answering := .releasing }) := by
  obtain ⟨line, hunder⟩ := h.underway (by simp [hwriting]) (by simp [hwriting])
  obtain ⟨left, hleft, hdecode⟩ := hunder.answering
  obtain rfl : left = [] := by simpa [hwriting, eq_comm] using hleft
  have hafter : v.after .answeringStep { v.now with answering := .releasing } =
      { v with now := { v.now with answering := .releasing } } := by simp [Watched.after, hwriting]
  rw [hafter]
  refine h.of_answering rfl rfl ⟨line, .inl { hunder with answering := ?_ }⟩
  exact ⟨[], .inr ⟨rfl, rfl⟩, hdecode⟩

lemma released_turn (hreleasing : v.now.answering = .releasing) :
    Agrees m (v.after .answeringStep { v.now with
      mailbox := v.now.mailbox.release, answering := .waking }) := by
  obtain ⟨line, hunder⟩ := h.underway (by simp [hreleasing]) (by simp [hreleasing])
  obtain ⟨left, hleft, hdecode⟩ := hunder.answering
  obtain rfl : left = [] := by simpa [hreleasing] using hleft
  have hafter : v.after .answeringStep { v.now with
      mailbox := v.now.mailbox.release, answering := .waking } =
      { v with
        now := { v.now with mailbox := v.now.mailbox.release, answering := .waking }
        released := v.released + 1 } := by simp [Watched.after, hreleasing]
  have hreading : ∀ k read, v.now.asking ≠ .reading k read := by
    intro k read hreading
    have hpauses := hunder.pauses
    simp [hreading, Asking.pauses] at hpauses
  rw [hafter]
  refine h.of_answering rfl rfl ⟨line, .inr ?_⟩
  exact ⟨.inl hunder.pauses, rfl, hunder.signalled, .inr rfl, fun _ => rfl, hdecode,
    fun k read hr => absurd hr (hreading k read), hunder.answers, by rw [hunder.released]⟩

lemma quiet (hwaking : v.now.answering = .waking) (hawake : v.now.asking ≠ .asleep) :
    Agrees m { v with now := { v.now with answering := .idle } } := by
  refine ⟨h.size, h.uncancelled, h.asked, h.signals, h.received, ?_⟩
  rcases h.stage with hopen | ⟨line, hunder | hdone⟩
  · exact .inl { hopen with answering := .inl rfl }
  · obtain ⟨rest, hrest | ⟨hrest, -⟩, -⟩ := hunder.answering <;> simp [hwaking] at hrest
  · exact .inr ⟨line, .inr { hdone with
      answering := .inl rfl
      awake := fun hasleep => absurd hasleep hawake }⟩

/-- A wake-up call may come late and find the next question; it makes the asking side look again. -/
lemma woke_turn (hwaking : v.now.answering = .waking) :
    Agrees m (v.after .answeringStep { v.now with
      asking := if v.now.asking = .asleep then .waiting else v.now.asking
      answering := .idle }) := by
  have hafter (y : Exchange) : v.after .answeringStep y = { v with now := y } := by
    simp [Watched.after, hwaking]
  rw [hafter]
  by_cases hasleep : v.now.asking = .asleep
  · rw [if_pos hasleep]
    have hwoken : Agrees m { v with now := { v.now with asking := .waiting } } :=
      h.stirred_turn (by rw [hasleep]; rfl) (.inr (.inl rfl)) (.inl ⟨rfl, by simp⟩)
    exact hwoken.quiet hwaking (by simp)
  · rw [if_neg hasleep]
    exact h.quiet hwaking hasleep

/-- **No move of either side puts an end to the agreement.** -/
theorem turn (hturn : Turn v.now move y) : Agrees m (v.after move y) := by
  cases hturn with
  | asked hidle => exact h.asked_turn hidle
  | passed hraised => exact h.passed_turn hraised
  | told hsignalling => exact h.told_turn hsignalling
  | stirred a hpauses hmove ha => exact h.stirred_turn hpauses hmove ha
  | withdrew hwithdrawing =>
    have hopen := h.unanswered (by rw [hwithdrawing]; rfl) (by rw [hwithdrawing]; rfl)
    exact absurd hwithdrawing hopen.not_withdrawing
  | ended hopening hend => exact h.ended_turn hopening hend
  | opened hopening hend => exact h.reading_turn (by rw [hopening]; rfl) (Window.readTo_zero hend)
  | read hreading hend => exact h.read_turn hreading hend
  | readOn hreading hend =>
    have hreads : v.now.asking.reads = true := by rw [hreading]; rfl
    obtain ⟨line, hdone⟩ := h.answered hreads
    obtain ⟨hk, hne⟩ := not_or.1 hend
    exact h.reading_turn hreads ((hdone.reading _ _ hreading).succ (Nat.lt_of_not_le hk) hne)
  | answered _ hsignalled => exact h.answered_turn hsignalled
  | stored hwriting => exact h.stored_turn hwriting
  | written hwriting => exact h.written_turn hwriting
  | released hreleasing => exact h.released_turn hreleasing
  | woke hwaking => exact h.woke_turn hwaking

lemma answering_ne : v.now.answering ≠ .cancelling ∧ v.now.answering ≠ .finding := by
  rcases h.stage with hopen | ⟨line, hunder | hdone⟩
  · rcases hopen.answering with heq | heq <;> simp [heq]
  · obtain ⟨rest, heq | ⟨heq, -⟩, -⟩ := hunder.answering <;> simp [heq]
  · rcases hdone.answering with heq | heq <;> simp [heq]

end Agrees

lemma agrees_start (hheld : m.held = false) (hcancelled : m.cancelled = false) :
    Agrees m ⟨start m, 0, 0, [], 0⟩ :=
  ⟨rfl, hcancelled, rfl, rfl, rfl, .inl ⟨hheld, rfl, rfl, by simp [start], .inl rfl, rfl, rfl⟩⟩

/-- **All along an exchange, both sides agree.** -/
theorem Course.agrees (hheld : m.held = false) (hcancelled : m.cancelled = false)
    (h : Course m v) : Agrees m v := by
  induction h with
  | start => exact agrees_start hheld hcancelled
  | move move _ hmove hnext ih =>
    obtain ⟨hcancelling, hfinding⟩ := ih.answering_ne
    exact ih.turn (turn_of_next ih.uncancelled hcancelling hfinding hmove hnext)

/-! ## Each side by itself -/

/-- The asking side takes some steps, and the answering side none. -/
abbrev AskingAlone : Exchange → Exchange → Prop :=
  Relation.ReflTransGen fun x y => x.stepAsking? = some y

/-- The answering side takes some steps, and the asking side none. -/
abbrev AnsweringAlone : Exchange → Exchange → Prop :=
  Relation.ReflTransGen fun x y => x.stepAnswering? = some y

/-- What the answering side writes, it writes to the end; then the flag is down. -/
lemma answeringAlone_of_writing {rest : List (Int32 × Nat)} (h : x.answering = .writing rest) :
    ∃ y, AnsweringAlone x y ∧ y.answering = .idle ∧
      y.mailbox = { x.mailbox with window := x.mailbox.window.stores rest, held := false } := by
  induction rest generalizing x with
  | nil =>
    have hwritten : x.stepAnswering? = some { x with answering := .releasing } := by
      simp [stepAnswering?, h]
    exact ⟨_, .head hwritten (.head rfl (.single rfl)), rfl, rfl⟩
  | cons word rest ih =>
    obtain ⟨word, k⟩ := word
    have hstored : x.stepAnswering? = some { x with
        mailbox := { x.mailbox with window := x.mailbox.window.store k word }
        answering := .writing rest } := by simp [stepAnswering?, h]
    obtain ⟨y, hsteps, hidle, hmailbox⟩ := ih (x := { x with
      mailbox := { x.mailbox with window := x.mailbox.window.store k word }
      answering := .writing rest }) rfl
    exact ⟨y, .head hstored hsteps, hidle, hmailbox⟩

/-- **Step by step, an answer is what it is as a whole.** -/
theorem answeringAlone_deliver (h : x.next? (.answer line) = some y) :
    ∃ z, AnsweringAlone y z ∧ z.answering = .idle ∧ z.mailbox = x.mailbox.deliver line := by
  rw [next?] at h
  split_ifs at h
  cases h
  exact answeringAlone_of_writing rfl

/-- Nothing holds the answering side up. -/
lemma Agrees.answeringAlone (h : Agrees m v) : ∃ y, AnsweringAlone v.now y ∧ y.answering = .idle := by
  obtain ⟨hcancelling, hfinding⟩ := h.answering_ne
  cases hplace : v.now.answering with
  | idle => exact ⟨_, .refl, hplace⟩
  | writing rest =>
    obtain ⟨y, hsteps, hidle, -⟩ := answeringAlone_of_writing hplace
    exact ⟨y, hsteps, hidle⟩
  | releasing =>
    have hreleased : v.now.stepAnswering? = some { v.now with
        mailbox := v.now.mailbox.release, answering := .waking } := by simp [stepAnswering?, hplace]
    exact ⟨_, .head hreleased (.single rfl), rfl⟩
  | waking =>
    have hwoke : v.now.stepAnswering? = some { v.now with
        asking := if v.now.asking = .asleep then .waiting else v.now.asking
        answering := .idle } := by simp [stepAnswering?, hplace]
    exact ⟨_, .single hwoke, rfl⟩
  | cancelling => exact absurd hplace hcancelling
  | finding => exact absurd hplace hfinding

/-- The asking side is back, with what the window holds. -/
def BackWith (x y : Exchange) : Prop :=
  y.asking = .idle ∧ y.received = x.mailbox.window.decode :: x.received

/-- Whatever was read before, reading comes to its end; if that was the beginning of the line, it comes
back with the line. -/
lemma askingAlone_of_reading {k : Nat} {read : List Char} (hplace : x.asking = .reading k read) :
    ∃ y, AskingAlone x y ∧ y.asking = .idle ∧
      (x.mailbox.window.ReadTo k read → BackWith x y) := by
  -- every step but the last reads one more of the words that are left
  induction hleft : x.mailbox.window.words.length - k generalizing x k read with
  | zero =>
    have hend : x.mailbox.window.words.length ≤ k := by omega
    have hstep : x.stepAsking? = some (x.finish (some (.ofList read))) := by
      simp [stepAsking?, hplace, hend]
    exact ⟨_, .single hstep, rfl, fun hread => ⟨rfl, by rw [hread.decode_eq (.inl hend)]; rfl⟩⟩
  | succ n ih =>
    have hk : k < x.mailbox.window.words.length := by omega
    by_cases hzero : x.mailbox.window.load k = 0
    · have hstep : x.stepAsking? = some (x.finish (some (.ofList read))) := by
        simp [stepAsking?, hplace, hzero]
      exact ⟨_, .single hstep, rfl, fun hread => ⟨rfl, by rw [hread.decode_eq (.inr hzero)]; rfl⟩⟩
    · have hstep : x.stepAsking? = some { x with
          asking := .reading (k + 1) (read ++ (Window.char? (x.mailbox.window.load k)).toList) } := by
        simp [stepAsking?, hplace, hzero, Nat.not_le.2 hk]
      obtain ⟨y, hsteps, hidle, hback⟩ := ih (x := { x with
          asking := .reading (k + 1) (read ++ (Window.char? (x.mailbox.window.load k)).toList) })
        rfl (by simp only; omega)
      exact ⟨y, .head hstep hsteps, hidle, fun hread => hback (hread.succ hk hzero)⟩

lemma askingAlone_of_opening (hplace : x.asking = .opening) :
    ∃ y, AskingAlone x y ∧ BackWith x y := by
  by_cases hend : x.mailbox.window.words.isEmpty ∨ x.mailbox.window.load 0 = Window.endOfInput
  · have hstep : x.stepAsking? = some (x.finish none) := by
      simp only [stepAsking?, hplace, if_pos hend]
    refine ⟨_, .single hstep, rfl, ?_⟩
    rw [Window.decode, if_pos (by simpa using hend)]
    rfl
  · have hstep : x.stepAsking? = some { x with asking := .reading 0 [] } := by
      simp only [stepAsking?, hplace, if_neg hend]
    obtain ⟨y, hsteps, -, hback⟩ :=
      askingAlone_of_reading (x := { x with asking := .reading 0 [] }) rfl
    exact ⟨y, .head hstep hsteps, hback (Window.readTo_zero hend)⟩

lemma askingAlone_of_polling (hplace : x.asking = .polling) (hheld : x.mailbox.held = false) :
    ∃ y, AskingAlone x y ∧ BackWith x y := by
  have hstep : x.stepAsking? = some { x with asking := .opening } := by
    simp [stepAsking?, hplace, hheld]
  obtain ⟨y, hsteps, hback⟩ := askingAlone_of_opening (x := { x with asking := .opening }) rfl
  exact ⟨y, .head hstep hsteps, hback⟩

lemma askingAlone_of_waiting (hplace : x.asking = .waiting) (hheld : x.mailbox.held = false) :
    ∃ y, AskingAlone x y ∧ BackWith x y := by
  have hstep : x.stepAsking? = some { x with asking := .polling } := by
    simp [stepAsking?, hplace, hheld]
  obtain ⟨y, hsteps, hback⟩ := askingAlone_of_polling (x := { x with asking := .polling }) rfl hheld
  exact ⟨y, .head hstep hsteps, hback⟩

/-- **Once its question is answered, the asking side comes back by itself.** -/
theorem Answered.askingAlone {line : Option String} (h : Answered m line v)
    (hcancelled : v.now.mailbox.cancelled = false) (hawake : v.now.asking ≠ .asleep) :
    ∃ y, AskingAlone v.now y ∧ BackWith v.now y := by
  have hasking := h.asking
  cases hplace : v.now.asking with
  | idle | raised | signalling | withdrawing =>
    simp [hplace, Asking.pauses, Asking.reads] at hasking
  | polling => exact askingAlone_of_polling hplace h.held
  | checking =>
    have hstep : v.now.stepAsking? = some { v.now with asking := .waiting } := by
      simp [stepAsking?, hplace, hcancelled]
    obtain ⟨y, hsteps, hback⟩ :=
      askingAlone_of_waiting (x := { v.now with asking := .waiting }) rfl h.held
    exact ⟨y, .head hstep hsteps, hback⟩
  | waiting => exact askingAlone_of_waiting hplace h.held
  | asleep => exact absurd hplace hawake
  | opening => exact askingAlone_of_opening hplace
  | reading k read =>
    obtain ⟨y, hsteps, -, hback⟩ := askingAlone_of_reading hplace
    exact ⟨y, hsteps, hback (h.reading k read hplace)⟩

/-! ## The main statement -/

lemma length_answers {line : Option String} (h : Underway m line v ∨ Answered m line v) :
    v.answers.length = v.now.received.length + 1 ∧ v.now.asking ≠ .idle ∧
      v.now.signalled = false := by
  have hplace : v.now.asking.pauses = true ∨ v.now.asking.reads = true :=
    h.elim (fun hunder => .inl hunder.pauses) Answered.asking
  obtain ⟨before, hanswers, hlength⟩ := h.elim Underway.answers Answered.answers
  refine ⟨by simp [hanswers, hlength], ?_, h.elim Underway.signalled Answered.signalled⟩
  intro hidle
  simp [hidle, Asking.pauses, Asking.reads] at hplace

namespace Agrees

variable (h : Agrees m v)

include h

/-- Nobody comes back with an answer that has not taken the flag down, and no two questions are open at
once. -/
lemma counts : v.now.received.length ≤ v.released ∧ v.released ≤ v.answers.length ∧
    v.answers.length ≤ v.signals ∧ v.signals ≤ v.asked ∧ v.asked ≤ v.now.received.length + 1 := by
  have hasked := h.asked
  have hsignals := h.signals
  rcases h.stage with hopen | ⟨line, hstage⟩
  · have htold : v.now.signalled.toNat ≤ if v.now.asking = .idle then 0 else 1 := by
      rw [hopen.signalled]
      cases v.now.asking <;> simp [Asking.pauses]
    have hone : (if v.now.asking = .idle then 0 else 1) ≤ 1 := by split_ifs <;> omega
    have hanswers := hopen.answers
    have hreleased := hopen.released
    omega
  · obtain ⟨hanswers, hidle, hsignalled⟩ := length_answers hstage
    have hreleased : v.released = v.now.received.length ∨
        v.released = v.now.received.length + 1 := hstage.imp Underway.released Answered.released
    rw [if_neg hidle] at hasked
    rw [hsignalled, Bool.toNat_false] at hsignals
    omega

/-- The window is not looked at while it is written. -/
lemma not_reads_of_writing {words : List (Int32 × Nat)} (hwriting : v.now.answering = .writing words) :
    v.now.asking.reads = false := by
  obtain ⟨line, hunder⟩ := h.underway (by simp [hwriting]) (by simp [hwriting])
  have hpauses := hunder.pauses
  cases hplace : v.now.asking <;> simp_all [Asking.pauses, Asking.reads]

/-- Whoever is asleep will be woken. -/
lemma signalled_or_answering (hasleep : v.now.asking = .asleep) :
    v.now.signalled = true ∨ v.now.answering ≠ .idle := by
  rcases h.stage with hopen | ⟨line, hunder | hdone⟩
  · left
    rw [hopen.signalled, hasleep]
    rfl
  · right
    obtain ⟨rest, heq | ⟨heq, -⟩, -⟩ := hunder.answering <;> simp [heq]
  · right
    simp [hdone.awake hasleep]

/-- When every question is answered and the answering side is done, the asking side comes back. -/
lemma askingAlone (hall : v.answers.length = v.asked) (hidle : v.now.answering = .idle) :
    ∃ y, AskingAlone v.now y ∧ y.asking = .idle ∧
      y.received.reverse = v.answers.map fun line => (m.window.encode line).decode := by
  have hasked := h.asked
  have hreceived := h.received
  by_cases hback : v.now.asking = .idle
  · rw [if_pos hback] at hasked
    have hlength : v.now.received.length = v.answers.length := by omega
    rw [hlength, List.take_length] at hreceived
    exact ⟨_, .refl, hback, hreceived⟩
  rw [if_neg hback] at hasked
  rcases h.stage with hopen | ⟨line, hunder | hdone⟩
  · have hanswers := hopen.answers
    omega
  · obtain ⟨rest, heq | ⟨heq, -⟩, -⟩ := hunder.answering <;> simp [hidle] at heq
  · have hawake : v.now.asking ≠ .asleep := fun hasleep => by simp [hdone.awake hasleep] at hidle
    obtain ⟨y, hsteps, hyidle, hyreceived⟩ := hdone.askingAlone h.uncancelled hawake
    obtain ⟨before, hanswers, hlength⟩ := hdone.answers
    refine ⟨y, hsteps, hyidle, ?_⟩
    rw [hanswers, ← hlength, List.take_left] at hreceived
    rw [hyreceived, List.reverse_cons, hreceived, hdone.window, hanswers, List.map_append,
      List.map_singleton]

end Agrees

/-- **Every question gets the answer that was given to it.**  Take any interleaving of the steps of
both sides, with as many questions as one likes and with pauses that end for no reason, of which an
onlooker has noted down what was asked, told, answered and released.

* What the asking side got is what decoding gives of the lines that were delivered, in their order.
* It is never ahead of the answers that have taken the flag down, and there is one open question at
  most, which the answering side is told of once and answers once.
* The window is never looked at while it is written.
* Whoever is asleep is about to be answered, an answer that was begun comes to its end by itself, and
  after it the question does. -/
theorem questions_get_their_answers (hheld : m.held = false) (hcancelled : m.cancelled = false)
    (h : Course m v) :
    (v.now.received.reverse = (v.answers.take v.now.received.length).map fun line =>
      (m.window.encode line).decode) ∧
    (v.now.received.length ≤ v.released ∧ v.released ≤ v.answers.length ∧
      v.answers.length ≤ v.signals ∧ v.signals ≤ v.asked ∧
      v.asked ≤ v.now.received.length + 1) ∧
    (∀ words, v.now.answering = .writing words → v.now.asking.reads = false) ∧
    (v.now.asking = .asleep → v.now.signalled = true ∨ v.now.answering ≠ .idle) ∧
    (∃ y, AnsweringAlone v.now y ∧ y.answering = .idle) ∧
    (v.answers.length = v.asked → v.now.answering = .idle →
      ∃ y, AskingAlone v.now y ∧ y.asking = .idle ∧
        y.received.reverse = v.answers.map fun line => (m.window.encode line).decode) := by
  have hagrees := h.agrees hheld hcancelled
  exact ⟨hagrees.received, hagrees.counts, fun _ => hagrees.not_reads_of_writing,
    hagrees.signalled_or_answering, hagrees.answeringAlone, hagrees.askingAlone⟩

/-- What an onlooker has noted after some moves; none if one of them cannot be made. -/
def watch (moves : List Move) (v : Watched) : Option Watched :=
  moves.foldlM (fun v move => (v.now.next? move).map (v.after move)) v

lemma Course.watch {w : Watched} {moves : List Move} (h : Course m v)
    (hmoves : ∀ move ∈ moves, move ≠ .terminate) (hw : watch moves v = some w) : Course m w := by
  induction moves generalizing v with
  | nil =>
    cases hw
    exact h
  | cons move moves ih =>
    obtain ⟨hmove, hmoves⟩ := List.forall_mem_cons.1 hmoves
    simp only [Exchange.watch, List.foldlM_cons] at hw
    cases hnext : v.now.next? move with
    | none => simp [hnext] at hw
    | some y =>
      rw [hnext] at hw
      exact ih (h.move move hmove hnext) hmoves hw

/-- Two questions.  The first pause ends for no reason, and the first wake-up call comes when the second
question is asked already. -/
def twoQuestions : List Move :=
  [.ask, .askingStep, .askingStep, .askingStep, .askingStep, .returnEarly, .answer (some "hi")] ++
    List.replicate 5 .answeringStep ++ List.replicate 5 .askingStep ++
    [.ask, .askingStep, .askingStep, .askingStep, .askingStep, .askingStep, .answeringStep,
      .answer none] ++ List.replicate 4 .answeringStep ++ List.replicate 3 .askingStep

theorem questions_get_their_answers_two :
    ∃ v, Course ⟨false, .zeros 4, false⟩ v ∧ v.answers = [some "hi", none] ∧
      v.now.received.length = 2 ∧
      v.now.received.reverse = (v.answers.take 2).map fun line =>
        ((Window.zeros 4).encode line).decode := by
  have hwatch : (watch twoQuestions ⟨start ⟨false, .zeros 4, false⟩, 0, 0, [], 0⟩).any (fun v =>
      v.answers = [some "hi", none] ∧ v.now.received.length = 2) = true := by decide +kernel
  obtain ⟨v, hv, hseen⟩ := Option.any_eq_true _ _ |>.1 hwatch
  obtain ⟨hanswers, hlength⟩ := of_decide_eq_true hseen
  have hcourse : Course ⟨false, .zeros 4, false⟩ v := Course.start.watch (by decide) hv
  obtain ⟨hreceived, -⟩ := questions_get_their_answers rfl rfl hcourse
  rw [hlength] at hreceived
  exact ⟨v, hcourse, hanswers, hlength, hreceived⟩

end Exchange

end GuestShell
