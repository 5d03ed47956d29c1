import GuestShell.Proofs.Sandbox.Keeps
import GuestShell.Proofs.Task.Runs

/-!
# Runs of host functions

A run of a host function (`System.Ran`) goes from a process to a process.  Its log lists what the
surroundings were asked, and at its end stands a value or a failure.  The lemmas take a run apart, one
for each way to build a host function.
-/

namespace GuestShell.System

variable {ε δ α β : Type} {p q : Process δ}

/-- What was asked and answered during a call. -/
abbrev Log : Type := Task.Log Run.Request Run.Answer

/-- One way through a host function, from a process to a process. -/
def Ran (a : System ε δ α) (p : Process δ) (log : Log) (r : Except (Failure ε) α)
    (q : Process δ) : Prop :=
  Task.Runs (a p) log (r, q)

variable {log : Log} {r : Except (Failure ε) α}

/-- However requests are answered, there is a run with these answers. -/
lemma ran_trace (answer : Log → (o : Run.Request) → Run.Answer o) (a : System ε δ α)
    (p : Process δ) : Ran a p ((a p).trace answer).1 ((a p).trace answer).2.1
      ((a p).trace answer).2.2 :=
  Task.runs_trace answer (a p)

/-- What is kept is kept by every run. -/
lemma Keeps.ran {R : FileTree → Slots δ → Prop} {a : System ε δ α} (ha : Keeps R a)
    (hp : R p.tree p.descriptors) (h : Ran a p log r q) : R q.tree q.descriptors :=
  Task.always_iff_runs.1 (ha p hp) log (r, q) h

/-! ## Sequences -/

lemma ran_pure_iff {v : α} :
    Ran (pure v : System ε δ α) p log r q ↔ log = [] ∧ r = .ok v ∧ q = p :=
  Task.runs_done_pair_iff

lemma ran_throw_iff {e : Failure ε} :
    Ran (throw e : System ε δ α) p log r q ↔ log = [] ∧ r = .error e ∧ q = p :=
  Task.runs_done_pair_iff

/-- A run of two functions ends with the first one's failure or goes on with the second. -/
theorem ran_bind_iff {a : System ε δ α} {f : α → System ε δ β} {r : Except (Failure ε) β} :
    Ran (a >>= f) p log r q ↔
      (∃ e, r = .error e ∧ Ran a p log (.error e) q) ∨
      ∃ v u before after, log = before ++ after ∧ Ran a p before (.ok v) u ∧
        Ran (f v) u after r q := by
  rw [Ran, bind_apply, Task.runs_bind_iff]
  constructor
  · rintro ⟨⟨e | v, u⟩, before, after, rfl, ha, hf⟩
    · obtain ⟨rfl, rfl, rfl⟩ := Task.runs_done_pair_iff.1 hf
      rw [List.append_nil]
      exact .inl ⟨e, rfl, ha⟩
    · exact .inr ⟨v, u, before, after, rfl, ha, hf⟩
  · rintro (⟨e, rfl, ha⟩ | ⟨v, u, before, after, rfl, ha, hf⟩)
    · exact ⟨(.error e, q), log, [], (List.append_nil log).symm, ha, .done _⟩
    · exact ⟨(.ok v, u), before, after, rfl, ha, hf⟩

/-! ## Steps -/

/-- The process as it is decides on what follows. -/
lemma ran_process_bind_iff {f : Process δ → System ε δ α} :
    Ran (process >>= f) p log r q ↔ Ran (f p) p log r q :=
  Iff.rfl

lemma ran_ask_iff {o : Run.Request} {r : Except (Failure ε) (Run.Answer o)} :
    Ran (ask o : System ε δ (Run.Answer o)) p log r q ↔
      ∃ a, log = [⟨o, a⟩] ∧ r = .ok a ∧ q = p := by
  rw [Ran, ask, Task.runs_ask_iff]
  constructor
  · rintro ⟨a, rest, rfl, h⟩
    obtain ⟨rfl, rfl, rfl⟩ := Task.runs_done_pair_iff.1 h
    exact ⟨a, rfl, rfl, rfl⟩
  · rintro ⟨a, rfl, rfl, rfl⟩
    exact ⟨a, [], rfl, .done _⟩

lemma ran_reading_iff [ErrorCode ε] {a : Memory → Except EngineError α} :
    Ran (reading a : System ε δ α) p log r q ↔ log = [] ∧ q = p ∧
      ((∃ v, a p.memory = .ok v ∧ r = .ok v) ∨
        ∃ e, a p.memory = .error e ∧ r = .error (.code ErrorCode.badAddress)) := by
  rw [Ran, reading]
  cases a p.memory with
  | ok v => simp [pure, Task.runs_done_pair_iff, and_comm]
  | error e => simp [pure, Task.runs_done_pair_iff, and_comm]

lemma ran_writing_iff [ErrorCode ε] {a : Memory → Except EngineError Memory}
    {r : Except (Failure ε) Unit} :
    Ran (writing a : System ε δ Unit) p log r q ↔ log = [] ∧
      ((∃ m, a p.memory = .ok m ∧ r = .ok () ∧ q = { p with memory := m }) ∨
        ∃ e, a p.memory = .error e ∧ r = .error (.code ErrorCode.badAddress) ∧ q = p) := by
  rw [Ran, writing]
  cases a p.memory with
  | ok m => simp [pure, Task.runs_done_pair_iff]
  | error e => simp [pure, Task.runs_done_pair_iff]

lemma ran_onTree_iff [ErrorCode ε] {a : FileTree.Action α} :
    Ran (onTree a : System ε δ α) p log r q ↔ log = [] ∧
      ((∃ v t, a p.tree = .ok v t ∧ r = .ok v ∧ q = { p with tree := t }) ∨
        ∃ e t, a p.tree = .error e t ∧ r = .error (failureOf e) ∧ q = { p with tree := t }) := by
  rw [Ran, onTree]
  cases a p.tree with
  | ok v t => simp [pure, Task.runs_done_pair_iff]
  | error e t => simp [pure, Task.runs_done_pair_iff]

/-- An action at the present moment asks the clock, and then acts. -/
lemma ran_onTreeNow_iff [ErrorCode ε] {a : Moment → FileTree.Action α} :
    Ran (onTreeNow a : System ε δ α) p log r q ↔
      ∃ now : Moment, log = [⟨.clock, now⟩] ∧ Ran (onTree (a now) : System ε δ α) p [] r q := by
  rw [onTreeNow, ran_bind_iff]
  constructor
  · rintro (⟨e, -, h⟩ | ⟨now, u, before, after, rfl, hask, h⟩)
    · obtain ⟨_, -, h, -⟩ := ran_ask_iff.1 h
      cases h
    · obtain ⟨_, rfl, h', rfl⟩ := ran_ask_iff.1 hask
      cases h'
      obtain rfl := (ran_onTree_iff.1 h).1
      exact ⟨_, rfl, h⟩
  · rintro ⟨now, rfl, h⟩
    exact .inr ⟨now, p, _, [], rfl, ran_ask_iff.2 ⟨now, rfl, rfl, rfl⟩, h⟩

lemma ran_addDescriptor_bind_iff {d : δ} {f : Nat → System ε δ α} :
    Ran (addDescriptor d >>= f) p log r q ↔
      Ran (f p.descriptors.next) { p with descriptors := p.descriptors.insert d } log r q :=
  Iff.rfl

lemma ran_dropDescriptor_bind_iff {k : Nat} {f : Unit → System ε δ α} :
    Ran (dropDescriptor k >>= f) p log r q ↔
      Ran (f ()) { p with descriptors := p.descriptors.remove k } log r q :=
  Iff.rfl

/-! ## Looking -/

/-- The function asks nothing and changes nothing. -/
def Looks (a : System ε δ α) : Prop := ∀ p log r q, Ran a p log r q → log = [] ∧ q = p

/-- What is done at once and hands the process back is no more than a look. -/
lemma looks_of_done {a : System ε δ α} (h : ∀ p, ∃ r, a p = .done (r, p)) : Looks a := by
  intro p log r q hrun
  obtain ⟨r', hdone⟩ := h p
  rw [Ran, hdone] at hrun
  obtain ⟨hlog, -, hq⟩ := Task.runs_done_pair_iff.1 hrun
  exact ⟨hlog, hq⟩

lemma looks_pure (v : α) : Looks (pure v : System ε δ α) := looks_of_done fun _ => ⟨_, rfl⟩

lemma looks_fail (e : ε) : Looks (fail e : System ε δ α) := looks_of_done fun _ => ⟨_, rfl⟩

lemma looks_process : Looks (process : System ε δ (Process δ)) := looks_of_done fun _ => ⟨_, rfl⟩

lemma looks_reading [ErrorCode ε] (a : Memory → Except EngineError α) :
    Looks (reading a : System ε δ α) := by
  intro p log r q h
  obtain ⟨hlog, hq, -⟩ := ran_reading_iff.1 h
  exact ⟨hlog, hq⟩

lemma looks_onTree [ErrorCode ε] {a : FileTree.Action α} (ha : FileTree.Looks a) :
    Looks (onTree a : System ε δ α) := by
  intro p log r q h
  have hafter := ha p.tree
  obtain ⟨hlog, ⟨v, t, hok, -, hq⟩ | ⟨e, t, herror, -, hq⟩⟩ := ran_onTree_iff.1 h
  · rw [FileTree.after_ok hok] at hafter
    exact ⟨hlog, by rw [hq, hafter]⟩
  · rw [FileTree.after_error herror] at hafter
    exact ⟨hlog, by rw [hq, hafter]⟩

/-- A run that begins with a look fails there, or goes on with the process as it is. -/
lemma Looks.ran_bind {a : System ε δ α} {f : α → System ε δ β} {r : Except (Failure ε) β}
    (ha : Looks a) (h : Ran (a >>= f) p log r q) :
    (∃ e, r = .error e ∧ log = [] ∧ q = p) ∨
      ∃ v, Ran a p [] (.ok v) p ∧ Ran (f v) p log r q := by
  rcases ran_bind_iff.1 h with ⟨e, hr, hfail⟩ | ⟨v, u, before, after, rfl, hlook, hrest⟩
  · obtain ⟨hlog, hq⟩ := ha _ _ _ _ hfail
    exact .inl ⟨e, hr, hlog, hq⟩
  · obtain ⟨rfl, rfl⟩ := ha _ _ _ _ hlook
    exact .inr ⟨v, hlook, hrest⟩

lemma looks_bind {a : System ε δ α} {f : α → System ε δ β} (ha : Looks a)
    (hf : ∀ v, Looks (f v)) : Looks (a >>= f) := by
  intro p log r q h
  rcases ha.ran_bind h with ⟨e, -, hlog, hq⟩ | ⟨v, -, hrest⟩
  · exact ⟨hlog, hq⟩
  · exact hf v _ _ _ _ hrest

lemma looks_ite {c : Prop} [Decidable c] {a b : System ε δ α} (ha : Looks a) (hb : Looks b) :
    Looks (if c then a else b) := by
  split_ifs
  · exact ha
  · exact hb

end GuestShell.System
