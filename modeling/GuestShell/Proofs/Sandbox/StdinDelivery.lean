import GuestShell.Sandbox.Stdin
import GuestShell.Proofs.Task.Runs
import Mathlib.Data.List.Induction
import Mathlib.Tactic.SplitIfs

/-!
# What standard input delivers

A program reads its input with whatever sizes it likes, and whoever types answers with whatever lines
he likes.  A *delivery* is one read: the size, the answers that were asked for on the way, and what was
read.  A `Session` is one read after the other, with nobody interrupting.

Input known beforehand is delivered once, in order, and nobody is asked (`Piped`).  Lines are delivered
in the order in which they were typed; a new one is asked for only when all before it is delivered, and
a read finds nothing exactly where the input ends, or where a line ends and the policy says so
(`Typed`).  The main statement is `session_delivers`.

The invariant behind both is a balance: what was delivered and what is pending are together what was
given (`Balanced`).
-/

namespace GuestShell.Stdin

/-! ## Sessions -/

/-- One read. -/
structure Delivery where
  max : Nat
  /-- What was answered on the way, question by question. -/
  answers : List (Option String)
  result : Except HostStop Bytes

/-- The bytes of a read. -/
def Delivery.bytes (d : Delivery) : Bytes :=
  match d.result with
  | .ok chunk => chunk
  | .error _ => []

/-- The answers among what was asked for. -/
def answersIn (log : Task.Log Run.Request Run.Answer) : List (Option String) :=
  log.filterMap fun
    | ⟨.readLine, line⟩ => some line
    | _ => none

/-- Nobody interrupts. -/
def Uninterrupted (log : Task.Log Run.Request Run.Answer) : Prop :=
  ∀ stopped : Bool, ⟨.isInterrupted, stopped⟩ ∈ log → stopped = false

/-- One read leads from an input to an input. -/
def Delivers (s : Stdin) (d : Delivery) (s' : Stdin) : Prop :=
  ∃ log, Task.Runs (s.read d.max) log (d.result, s') ∧ Uninterrupted log ∧ d.answers = answersIn log

/-- One read after the other. -/
inductive Session (start : Stdin) : List Delivery → Stdin → Prop
  | nil : Session start [] start
  | concat {ds : List Delivery} {d : Delivery} {s s' : Stdin} (before : Session start ds s)
      (last : Delivers s d s') : Session start (ds ++ [d]) s'

variable {start s s' : Stdin} {ds : List Delivery} {d : Delivery}

/-- What holds of each read, given the reads before it. -/
def AtEach (P : List Delivery → Delivery → Prop) (ds : List Delivery) : Prop :=
  ∀ before d after, ds = before ++ d :: after → P before d

lemma atEach_nil {P : List Delivery → Delivery → Prop} : AtEach P [] := by
  intro before d after h
  simp at h

lemma AtEach.concat {P : List Delivery → Delivery → Prop} (h : AtEach P ds) (hd : P ds d) :
    AtEach P (ds ++ [d]) := by
  intro before e after heq
  induction after using List.reverseRecOn with
  | nil =>
    obtain ⟨rfl, he⟩ := List.append_inj' heq rfl
    rwa [← List.singleton_inj.1 he]
  | append_singleton after e' _ =>
    rw [← List.cons_append, ← List.append_assoc] at heq
    exact h before e after (List.append_inj' heq rfl).1

/-! ## One read -/

/-- Every line has bytes: its line feed at least. -/
lemma terminated_ne_nil (line : String) : terminated line ≠ [] := by
  have hline : (if Text.endsWith line "\n" then line else line ++ "\n").toList ≠ [] := by
    split_ifs with hends
    · rintro hnil
      simp [Text.endsWith, hnil] at hends
    · simp
  rw [terminated, Text.encode]
  obtain ⟨c, cs, hcs⟩ := List.exists_cons_of_ne_nil hline
  rw [hcs, List.flatMap_cons]
  simp [String.utf8EncodeChar_ne_nil]

/-- What a read comes to when nobody interrupts. -/
lemma Delivers.cases (h : Delivers s d s') :
    (d.max = 0 ∧ d.answers = [] ∧ d.result = .ok [] ∧ s' = s) ∨
    (0 < d.max ∧ s.endNext = true ∧ d.answers = [] ∧ d.result = .ok [] ∧
      s' = { s with endNext := false }) ∨
    (0 < d.max ∧ s.endNext = false ∧ s.pending ≠ [] ∧ d.answers = [] ∧
      d.result = .ok (s.take d.max).1 ∧ s' = (s.take d.max).2) ∨
    (0 < d.max ∧ s.endNext = false ∧ s.pending = [] ∧ s.preset = true ∧ d.answers = [] ∧
      d.result = .ok [] ∧ s' = s) ∨
    (0 < d.max ∧ s.endNext = false ∧ s.pending = [] ∧ s.preset = false ∧
      ((d.answers = [none] ∧ d.result = .ok [] ∧ s' = s) ∨
        ∃ line, d.answers = [some line] ∧
          d.result = .ok ({ s with pending := terminated line }.take d.max).1 ∧
          s' = ({ s with pending := terminated line }.take d.max).2)) := by
  obtain ⟨log, hread, hcalm, hanswers⟩ := h
  rw [Stdin.read] at hread
  split_ifs at hread with hmax hend hpending hpreset
  · obtain ⟨rfl, hresult, rfl⟩ := Task.runs_done_pair_iff.1 hread
    exact .inl ⟨hmax, hanswers, hresult, rfl⟩
  · obtain ⟨rfl, hresult, rfl⟩ := Task.runs_done_pair_iff.1 hread
    exact .inr (.inl ⟨Nat.pos_of_ne_zero hmax, hend, hanswers, hresult, rfl⟩)
  · obtain ⟨rfl, hresult, rfl⟩ := Task.runs_done_pair_iff.1 hread
    exact .inr (.inr (.inl ⟨Nat.pos_of_ne_zero hmax, eq_false_of_ne_true hend,
      by simpa using hpending, hanswers, hresult, rfl⟩))
  · obtain ⟨rfl, hresult, rfl⟩ := Task.runs_done_pair_iff.1 hread
    exact .inr (.inr (.inr (.inl ⟨Nat.pos_of_ne_zero hmax, eq_false_of_ne_true hend,
      by simpa using hpending, hpreset, hanswers, hresult, rfl⟩)))
  · obtain ⟨line, rest, rfl, hline⟩ := Task.runs_ask_iff.1 hread
    obtain ⟨stopped, rest, rfl, hstopped⟩ := Task.runs_ask_iff.1 hline
    obtain rfl : stopped = false := hcalm stopped (by simp)
    refine .inr (.inr (.inr (.inr ⟨Nat.pos_of_ne_zero hmax, eq_false_of_ne_true hend,
      by simpa using hpending, eq_false_of_ne_true hpreset, ?_⟩)))
    cases line with
    | none =>
      obtain ⟨rfl, hresult, rfl⟩ := Task.runs_done_pair_iff.1 hstopped
      exact .inl ⟨hanswers, hresult, rfl⟩
    | some line =>
      obtain ⟨rfl, hresult, rfl⟩ := Task.runs_done_pair_iff.1 hstopped
      exact .inr ⟨line, hanswers, hresult, rfl⟩

/-! ## What all reads come to -/

/-- The bytes of all reads. -/
def bytesOf (ds : List Delivery) : Bytes := ds.flatMap Delivery.bytes

/-- The lines that were answered. -/
def linesOf (ds : List Delivery) : List String := ds.flatMap fun d => d.answers.filterMap id

/-- The bytes of these lines. -/
def givenBy (ds : List Delivery) : Bytes := (linesOf ds).flatMap terminated

/-- The last read that asked for anything has delivered a line to its end. -/
def Drained (ds : List Delivery) : Prop :=
  bytesOf ds = givenBy ds ∧ ∃ d, (ds.filter (0 < ·.max)).getLast? = some d ∧ d.bytes ≠ []

/-- A read that finds nothing though nobody was asked. -/
def Delivery.isPause (d : Delivery) : Bool := 0 < d.max && d.bytes.isEmpty && d.answers.isEmpty

lemma bytesOf_concat : bytesOf (ds ++ [d]) = bytesOf ds ++ d.bytes := by
  simp [bytesOf]

lemma linesOf_concat : linesOf (ds ++ [d]) = linesOf ds ++ d.answers.filterMap id := by
  simp [linesOf]

lemma givenBy_concat :
    givenBy (ds ++ [d]) = givenBy ds ++ (d.answers.filterMap id).flatMap terminated := by
  simp [givenBy, linesOf_concat]

lemma drained_concat_iff (hmax : 0 < d.max) :
    Drained (ds ++ [d]) ↔ bytesOf (ds ++ [d]) = givenBy (ds ++ [d]) ∧ d.bytes ≠ [] := by
  simp [Drained, hmax]

/-- A read of no bytes makes no difference. -/
lemma drained_concat_of_idle (hmax : d.max = 0) (hbytes : d.bytes = []) (hanswers : d.answers = []) :
    Drained (ds ++ [d]) ↔ Drained ds := by
  simp [Drained, hmax, bytesOf_concat, givenBy_concat, hbytes, hanswers]

/-- Taking from what is pending moves bytes from one side of the balance to the other. -/
lemma balance_take {delivered given : Bytes} (hbalance : delivered ++ s.pending = given) (max : Nat) :
    (delivered ++ (s.take max).1) ++ (s.take max).2.pending = given := by
  simp [take, ← hbalance]

lemma take_ne_nil {max : Nat} (hmax : 0 < max) (hpending : s.pending ≠ []) : (s.take max).1 ≠ [] := by
  simp [take, hpending, Nat.ne_of_gt hmax]

/-! ## Input known beforehand -/

/-- Input known beforehand, on its way. -/
structure PipedUnderway (text : String) (ds : List Delivery) (s : Stdin) : Prop where
  preset_eq : s.preset = true
  balance : bytesOf ds ++ s.pending = terminated text
  endNext_eq : s.endNext = false

lemma PipedUnderway.delivers {text : String} (h : PipedUnderway text ds s) (hd : Delivers s d s') :
    PipedUnderway text (ds ++ [d]) s' := by
  obtain ⟨hpreset, hbalance, hend⟩ := h
  rcases hd.cases with ⟨-, -, hresult, rfl⟩ | ⟨-, hend', -⟩ | ⟨-, -, -, -, hresult, rfl⟩ |
    ⟨-, -, -, -, -, hresult, rfl⟩ | ⟨-, -, -, hpreset', -⟩
  · exact ⟨hpreset, by simpa [bytesOf_concat, Delivery.bytes, hresult] using hbalance, hend⟩
  · simp [hend] at hend'
  · refine ⟨hpreset, ?_, by simp [take, hpreset]⟩
    rw [bytesOf_concat, Delivery.bytes, hresult]
    exact balance_take hbalance d.max
  · exact ⟨hpreset, by simpa [bytesOf_concat, Delivery.bytes, hresult] using hbalance, hend⟩
  · simp [hpreset] at hpreset'

/-! ## Input typed line by line -/

/-- Lines on their way. -/
structure TypedUnderway (policy : StdinPolicy) (ds : List Delivery) (s : Stdin) : Prop where
  policy_eq : s.policy = policy
  preset_eq : s.preset = false
  balance : bytesOf ds ++ s.pending = givenBy ds
  endNext_iff : s.endNext = true ↔ policy = .alternate ∧ Drained ds
  /-- There was a pause after every line but one that is not delivered yet or has its pause to come. -/
  pauses : policy = .alternate → ds.countP Delivery.isPause +
    (if s.pending = [] ∧ s.endNext = false then 0 else 1) = (linesOf ds).length

/-- A read that takes from what is pending, be it old or newly typed, leaves a balance, and the next
read finds the end of the line exactly if nothing is left of it. -/
lemma TypedUnderway.take {policy : StdinPolicy} (hpolicy : s.policy = policy)
    (hpreset : s.preset = false) (hbalance : bytesOf ds ++ s.pending = givenBy (ds ++ [d]))
    (hpending : s.pending ≠ []) (hmax : 0 < d.max) (hbytes : d.bytes = (s.take d.max).1)
    (hpauses : policy = .alternate → ds.countP Delivery.isPause + 1 = (linesOf (ds ++ [d])).length) :
    TypedUnderway policy (ds ++ [d]) (s.take d.max).2 := by
  have hne : d.bytes ≠ [] := hbytes ▸ take_ne_nil hmax hpending
  have hsum : bytesOf (ds ++ [d]) ++ (s.take d.max).2.pending = givenBy (ds ++ [d]) := by
    rw [bytesOf_concat, hbytes]
    exact balance_take hbalance d.max
  have hleft : (s.take d.max).2.pending = [] ↔ bytesOf (ds ++ [d]) = givenBy (ds ++ [d]) := by
    rw [← hsum, List.self_eq_append_right]
  have hend : (s.take d.max).2.endNext = true ↔
      policy = .alternate ∧ (s.take d.max).2.pending = [] := by
    simp [Stdin.take, hpreset, hpolicy, and_comm]
  refine ⟨hpolicy, hpreset, hsum, ?_, fun halternate => ?_⟩
  · rw [hend, hleft, drained_concat_iff hmax, and_iff_left hne]
  · rw [← hpauses halternate, List.countP_append, List.countP_singleton, if_neg, if_neg]
    · rintro ⟨hnil, hfalse⟩
      simp [hend.2 ⟨halternate, hnil⟩] at hfalse
    · simp [Delivery.isPause, hne]

lemma TypedUnderway.delivers {policy : StdinPolicy} (h : TypedUnderway policy ds s)
    (hd : Delivers s d s') : TypedUnderway policy (ds ++ [d]) s' := by
  obtain ⟨hpolicy, hpreset, hbalance, hend, hpauses⟩ := h
  rcases hd.cases with ⟨hmax, hanswers, hresult, rfl⟩ | ⟨hmax, hend', hanswers, hresult, rfl⟩ |
    ⟨hmax, hend', hpending, hanswers, hresult, rfl⟩ | ⟨-, -, -, hpreset', -⟩ |
    ⟨hmax, hend', hpending, -, ⟨hanswers, hresult, rfl⟩ | ⟨line, hanswers, hresult, rfl⟩⟩
  · have hbytes : d.bytes = [] := by rw [Delivery.bytes, hresult]
    refine ⟨hpolicy, hpreset, ?_, ?_, fun halternate => ?_⟩
    · simpa [bytesOf_concat, givenBy_concat, hbytes, hanswers] using hbalance
    · rw [hend, drained_concat_of_idle hmax hbytes hanswers]
    · simpa [linesOf_concat, hanswers, Delivery.isPause, hmax] using hpauses halternate
  · have hbytes : d.bytes = [] := by rw [Delivery.bytes, hresult]
    obtain ⟨halternate, hdrained⟩ := hend.1 hend'
    have hpending : s.pending = [] := by simpa [hdrained.1] using hbalance
    refine ⟨hpolicy, hpreset, ?_, ?_, fun halternate => ?_⟩
    · simpa [bytesOf_concat, givenBy_concat, hbytes, hanswers] using hbalance
    · simp [drained_concat_iff hmax, hbytes]
    · have := hpauses halternate
      rw [if_neg (by simp [hend'])] at this
      simp [linesOf_concat, hanswers, Delivery.isPause, hmax, hbytes, hpending, this]
  · refine .take hpolicy hpreset ?_ hpending hmax (by rw [Delivery.bytes, hresult]) fun halternate => ?_
    · simpa [givenBy_concat, hanswers] using hbalance
    · have := hpauses halternate
      rw [if_neg (by simp [hpending])] at this
      simpa [linesOf_concat, hanswers] using this
  · simp [hpreset] at hpreset'
  · have hbytes : d.bytes = [] := by rw [Delivery.bytes, hresult]
    refine ⟨hpolicy, hpreset, ?_, ?_, fun halternate => ?_⟩
    · simpa [bytesOf_concat, givenBy_concat, hbytes, hanswers] using hbalance
    · simp [drained_concat_iff hmax, hbytes, hend']
    · simpa [linesOf_concat, hanswers, Delivery.isPause] using hpauses halternate
  · have hbytes : bytesOf ds = givenBy ds := by simpa [hpending] using hbalance
    refine .take (s := { s with pending := terminated line }) hpolicy hpreset ?_
      (terminated_ne_nil line) hmax (by rw [Delivery.bytes, hresult]) fun halternate => ?_
    · simp [givenBy_concat, hanswers, hbytes]
    · have := hpauses halternate
      rw [if_pos ⟨hpending, hend'⟩] at this
      simpa [linesOf_concat, hanswers] using this

/-! ## However the handler answers -/

/-- The answers of somebody who types a line, or ends the input, and does not interrupt. -/
def calm (line : Option String) : (q : Run.Request) → Run.Answer q
  | .stdout _ | .stderr _ | .note _ => ()
  | .readLine => line
  | .isInterrupted => false
  | .clock => (0 : Moment)
  | .epoch => (0 : Nat)

/-- One read, with a line for the case that one is asked for. -/
def readCalmly (line : Option String) (s : Stdin) (max : Nat) : Delivery × Stdin :=
  let t := (s.read max).trace fun _ => calm line
  (⟨max, answersIn t.1, t.2.1⟩, t.2.2)

/-- Reads of the given sizes, with a handler that sees what has been read. -/
def readAll (handler : List Delivery → Option String) (s : Stdin) (maxes : List Nat) :
    List Delivery × Stdin :=
  maxes.foldl (fun r max =>
    let next := readCalmly (handler r.1) r.2 max
    (r.1 ++ [next.1], next.2)) ([], s)

lemma readAll_concat (handler : List Delivery → Option String) (s : Stdin) (maxes : List Nat)
    (max : Nat) :
    let r := readAll handler s maxes
    let next := readCalmly (handler r.1) r.2 max
    readAll handler s (maxes ++ [max]) = (r.1 ++ [next.1], next.2) := by
  simp [readAll]

lemma mem_log_of_mem_answersIn {log : Task.Log Run.Request Run.Answer} {line : Option String}
    (h : line ∈ answersIn log) : ⟨.readLine, line⟩ ∈ log := by
  obtain ⟨⟨q, a⟩, hmem, heq⟩ := List.mem_filterMap.1 h
  cases q <;> cases heq
  exact hmem

/-- What a calm handler was asked and what it answered. -/
lemma eq_calm_of_mem_trace {line : Option String} {max : Nat} {q : Run.Request} {a : Run.Answer q}
    (h : ⟨q, a⟩ ∈ ((s.read max).trace fun _ => calm line).1) : a = calm line q := by
  obtain ⟨before, after, hlog⟩ := List.append_of_mem h
  exact Task.obeys_trace (fun _ => calm line) (s.read max) before q a after hlog

lemma delivers_readCalmly (line : Option String) (s : Stdin) (max : Nat) :
    Delivers s (readCalmly line s max).1 (readCalmly line s max).2 :=
  ⟨_, Task.runs_trace _ _, fun _ h => eq_calm_of_mem_trace h, rfl⟩

/-- **However the handler answers, every read comes to an end.** -/
theorem session_readAll (handler : List Delivery → Option String) (s : Stdin) (maxes : List Nat) :
    Session s (readAll handler s maxes).1 (readAll handler s maxes).2 ∧
      (readAll handler s maxes).1.map Delivery.max = maxes ∧
      AtEach (fun before d => ∀ line ∈ d.answers, line = handler before)
        (readAll handler s maxes).1 := by
  induction maxes using List.reverseRecOn with
  | nil => exact ⟨.nil, rfl, atEach_nil⟩
  | append_singleton maxes max ih =>
    obtain ⟨hsession, hmaxes, hlines⟩ := ih
    rw [readAll_concat]
    refine ⟨hsession.concat (delivers_readCalmly _ _ _), ?_, hlines.concat fun line hline => ?_⟩
    · rw [List.map_append, hmaxes]
      rfl
    · exact eq_calm_of_mem_trace (mem_log_of_mem_answersIn hline)

/-! ## What a program finds -/

/-- Input known beforehand, as a program finds it. -/
structure Piped (text : String) (ds : List Delivery) : Prop where
  in_order : bytesOf ds <+: terminated text
  unasked : ∀ d ∈ ds, d.answers = []
  /-- A read finds nothing exactly when all is delivered. -/
  empty_iff : AtEach (fun before d =>
    0 < d.max → (d.bytes = [] ↔ bytesOf before = terminated text)) ds

/-- Typed input, as a program finds it. -/
structure Typed (policy : StdinPolicy) (ds : List Delivery) : Prop where
  in_order : bytesOf ds <+: givenBy ds
  asked_once : ∀ d ∈ ds, d.answers.length ≤ 1
  /-- Nobody is asked before all is delivered. -/
  asked_late : AtEach (fun before d => d.answers ≠ [] → bytesOf before = givenBy before) ds
  /-- A read finds nothing exactly when the input ends, or once a line has ended and there are to be
  pauses. -/
  empty_iff : AtEach (fun before d => 0 < d.max →
    (d.bytes = [] ↔ d.answers = [none] ∨ policy = .alternate ∧ Drained before)) ds
  /-- Whenever the next line is asked for, there has been one pause for each line. -/
  paused_once : policy = .alternate → AtEach (fun before d =>
    d.answers ≠ [] → before.countP Delivery.isPause = (linesOf before).length) ds

lemma length_take_le (s : Stdin) (max : Nat) : (s.take max).1.length ≤ max :=
  List.length_take_le _ _

/-- A read gives bytes, and not more than it was asked for. -/
lemma Delivers.exists_chunk (h : Delivers s d s') :
    ∃ chunk, d.result = .ok chunk ∧ chunk.length ≤ d.max := by
  rcases h.cases with ⟨-, -, hresult, -⟩ | ⟨-, -, -, hresult, -⟩ | ⟨-, -, -, -, hresult, -⟩ |
    ⟨-, -, -, -, -, hresult, -⟩ | ⟨-, -, -, -, ⟨-, hresult, -⟩ | ⟨line, -, hresult, -⟩⟩
  all_goals first
    | exact ⟨_, hresult, Nat.zero_le _⟩
    | exact ⟨_, hresult, length_take_le _ _⟩

lemma Session.exists_chunk (h : Session start ds s) :
    ∀ d ∈ ds, ∃ chunk, d.result = .ok chunk ∧ chunk.length ≤ d.max := by
  induction h with
  | nil => simp
  | concat _ hd ih =>
    simp only [List.mem_append, List.mem_singleton]
    rintro e (he | rfl)
    · exact ih e he
    · exact hd.exists_chunk

/-- One more read of input known beforehand. -/
lemma Piped.concat {text : String} (h : Piped text ds) (hs : PipedUnderway text ds s)
    (hd : Delivers s d s') : Piped text (ds ++ [d]) := by
  have hbalance := (hs.delivers hd).balance
  obtain ⟨hpreset, hbefore, hend⟩ := hs
  have hleft : bytesOf ds = terminated text ↔ s.pending = [] := by
    rw [← hbefore, List.self_eq_append_right]
  have hnext : d.answers = [] ∧ (0 < d.max → (d.bytes = [] ↔ s.pending = [])) := by
    rcases hd.cases with ⟨hmax, hanswers, -⟩ | ⟨-, hend', -⟩ |
      ⟨hmax, -, hpending, hanswers, hresult, -⟩ | ⟨-, -, hpending, -, hanswers, hresult, -⟩ |
      ⟨-, -, -, hpreset', -⟩
    · exact ⟨hanswers, fun hpos => absurd hmax (Nat.ne_of_gt hpos)⟩
    · simp [hend] at hend'
    · exact ⟨hanswers, by simp [Delivery.bytes, hresult, take_ne_nil, hmax, hpending]⟩
    · exact ⟨hanswers, by simp [Delivery.bytes, hresult, hpending]⟩
    · simp [hpreset] at hpreset'
  refine ⟨⟨_, hbalance⟩, ?_, h.empty_iff.concat fun hmax => ?_⟩
  · simp only [List.mem_append, List.mem_singleton]
    rintro e (he | rfl)
    · exact h.unasked e he
    · exact hnext.1
  · rw [hnext.2 hmax, hleft]

/-- One more read of typed input. -/
lemma Typed.concat {policy : StdinPolicy} (h : Typed policy ds) (hs : TypedUnderway policy ds s)
    (hd : Delivers s d s') : Typed policy (ds ++ [d]) := by
  have hbalance := (hs.delivers hd).balance
  obtain ⟨hpolicy, hpreset, hbefore, hend, hpauses⟩ := hs
  have hasked : d.answers.length ≤ 1 ∧ (d.answers ≠ [] → s.pending = [] ∧ s.endNext = false) := by
    rcases hd.cases with ⟨-, hanswers, -⟩ | ⟨-, -, hanswers, -⟩ | ⟨-, -, -, hanswers, -⟩ |
      ⟨-, -, -, -, hanswers, -⟩ | ⟨-, hend', hpending, -, ⟨hanswers, -⟩ | ⟨line, hanswers, -⟩⟩
    all_goals simp_all
  have hempty : 0 < d.max → (d.bytes = [] ↔ d.answers = [none] ∨ s.endNext = true) := by
    intro hmax
    rcases hd.cases with ⟨hzero, -⟩ | ⟨-, hend', -, hresult, -⟩ |
      ⟨-, hend', hpending, hanswers, hresult, -⟩ | ⟨-, -, -, hpreset', -⟩ |
      ⟨-, hend', -, -, ⟨hanswers, hresult, -⟩ | ⟨line, hanswers, hresult, -⟩⟩
    · exact absurd hzero (Nat.ne_of_gt hmax)
    · simp [Delivery.bytes, hresult, hend']
    · simp [Delivery.bytes, hresult, hend', hanswers, take_ne_nil, hmax, hpending]
    · simp [hpreset] at hpreset'
    · simp [Delivery.bytes, hresult, hanswers]
    · simp [Delivery.bytes, hresult, hend', hanswers, take_ne_nil, hmax, terminated_ne_nil]
  refine ⟨⟨_, hbalance⟩, ?_, h.asked_late.concat fun hne => ?_, h.empty_iff.concat fun hmax => ?_,
    fun halternate => (h.paused_once halternate).concat fun hne => ?_⟩
  · simp only [List.mem_append, List.mem_singleton]
    rintro e (he | rfl)
    · exact h.asked_once e he
    · exact hasked.1
  · simpa [(hasked.2 hne).1] using hbefore
  · rw [hempty hmax, hend]
  · simpa [hasked.2 hne] using hpauses halternate

lemma piped_session {policy : StdinPolicy} {text : String}
    (h : Session (.start policy (some text)) ds s) : Piped text ds ∧ PipedUnderway text ds s := by
  induction h with
  | nil => exact ⟨⟨List.nil_prefix, by simp, atEach_nil⟩, ⟨rfl, rfl, rfl⟩⟩
  | concat _ hd ih => exact ⟨ih.1.concat ih.2 hd, ih.2.delivers hd⟩

lemma typed_session {policy : StdinPolicy} (h : Session (.start policy none) ds s) :
    Typed policy ds ∧ TypedUnderway policy ds s := by
  induction h with
  | nil =>
    have hnot : ¬Drained [] := by simp [Drained]
    exact ⟨⟨List.nil_prefix, by simp, atEach_nil, atEach_nil, fun _ => atEach_nil⟩,
      ⟨rfl, rfl, rfl, by simp [start, hnot], fun _ => rfl⟩⟩
  | concat _ hd ih => exact ⟨ih.1.concat ih.2 hd, ih.2.delivers hd⟩

/-- **Standard input is delivered without loss, repetition or disorder.**  Whatever sizes are read and
however a handler answers, every read gives bytes, at most as many as it was to; input known beforehand
is delivered once, typed lines one after the other. -/
theorem session_delivers (policy : StdinPolicy) (preset : Option String) :
    (∀ (handler : List Delivery → Option String) (maxes : List Nat),
      ∃ ds s, Session (.start policy preset) ds s ∧ ds.map Delivery.max = maxes ∧
        AtEach (fun before d => ∀ line ∈ d.answers, line = handler before) ds) ∧
    ∀ ds s, Session (.start policy preset) ds s →
      (∀ d ∈ ds, ∃ chunk, d.result = .ok chunk ∧ chunk.length ≤ d.max) ∧
      match preset with
      | some text => Piped text ds
      | none => Typed policy ds := by
  refine ⟨fun handler maxes => ⟨_, _, session_readAll handler _ maxes⟩, fun ds s h => ?_⟩
  refine ⟨h.exists_chunk, ?_⟩
  cases preset with
  | none => exact (typed_session h).1
  | some text => exact (piped_session h).1

/-- Two lines and the end of input, read in pieces of many sizes, none among them. -/
theorem session_delivers_pieces :
    let handler := fun ds => ["ab", "c\n"][(linesOf ds).length]?
    let read := readAll handler (.start .alternate none) [2, 0, 4, 0, 1, 7, 7, 7]
    Session (.start .alternate none) read.1 read.2 ∧
      read.1.map Delivery.bytes = [[97, 98], [], [10], [], [], [99, 10], [], []] ∧
      Typed .alternate read.1 := by
  intro handler read
  have hsession : Session (.start .alternate none) read.1 read.2 :=
    (session_readAll handler _ _).1
  exact ⟨hsession, by decide +kernel, ((session_delivers .alternate none).2 _ _ hsession).2⟩

end GuestShell.Stdin
