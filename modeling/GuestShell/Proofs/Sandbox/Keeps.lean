import GuestShell.Sandbox.Process
import GuestShell.Proofs.FileTree.Handles
import GuestShell.Proofs.Task.Runs
import Mathlib.Tactic.SplitIfs

/-!
# What host functions leave alone

A host function works on the whole process, but what most claims about files need to know of it is
only what becomes of the file tree and of the descriptors.  `Keeps R` says that a host function keeps
a relation between the two, however its requests are answered and whether it fails or not.

Memory, input and all the rest do not occur in such a relation, so what only touches them keeps it for
nothing; what acts on the tree keeps it if the action does (`keeps_onTree`).
-/

namespace GuestShell.System

variable {ε δ α β : Type} {R : FileTree → Slots δ → Prop}

/-- The relation survives a host function. -/
def Keeps (R : FileTree → Slots δ → Prop) (a : System ε δ α) : Prop :=
  ∀ p, R p.tree p.descriptors → (a p).Always fun r => R r.2.tree r.2.descriptors

/-- The relation survives a request of the tree. -/
def Tolerates (R : FileTree → Slots δ → Prop) (op : FileTree.Operation) : Prop :=
  ∀ now t d, R t d → R (op.apply now t) d

/-! ## Sequences -/

lemma keeps_pure (v : α) : Keeps R (pure v : System ε δ α) := fun _ h => h

lemma keeps_throw (e : Failure ε) : Keeps R (throw e : System ε δ α) := fun _ h => h

lemma keeps_fail (e : ε) : Keeps R (fail e : System ε δ α) := fun _ h => h

lemma bind_apply (a : System ε δ α) (f : α → System ε δ β) (p : Process δ) :
    (a >>= f) p = (a p).bind fun r =>
      match r.1 with
      | .ok v => f v r.2
      | .error e => .done (.error e, r.2) := by
  show (a p).bind _ = _
  congr 1
  funext r
  obtain ⟨_ | v, q⟩ := r <;> rfl

lemma keeps_bind {a : System ε δ α} {f : α → System ε δ β} (ha : Keeps R a)
    (hf : ∀ v, Keeps R (f v)) : Keeps R (a >>= f) := by
  intro p hp
  rw [bind_apply, Task.always_bind]
  refine (ha p hp).imp fun r hr => ?_
  obtain ⟨e | v, q⟩ := r
  · exact hr
  · exact hf v q hr

lemma keeps_map {a : System ε δ α} (f : α → β) (ha : Keeps R a) : Keeps R (f <$> a) := by
  rw [map_eq_pure_bind]
  exact keeps_bind ha fun v => keeps_pure (f v)

lemma keeps_ite {c : Prop} [Decidable c] {a b : System ε δ α} (ha : c → Keeps R a)
    (hb : ¬c → Keeps R b) : Keeps R (if c then a else b) := by
  split_ifs with h
  · exact ha h
  · exact hb h

/-! ## What does not touch files -/

lemma keeps_process : Keeps R (process : System ε δ (Process δ)) := fun _ h => h

lemma keeps_update {f : Process δ → Process δ}
    (hf : ∀ p, (f p).tree = p.tree ∧ (f p).descriptors = p.descriptors) :
    Keeps R (update f : System ε δ Unit) := by
  intro p hp
  obtain ⟨htree, hdescriptors⟩ := hf p
  show R (f p).tree (f p).descriptors
  rwa [htree, hdescriptors]

lemma keeps_ask (r : Run.Request) : Keeps R (ask r : System ε δ (Run.Answer r)) :=
  fun _ h _ => h

lemma keeps_reading [ErrorCode ε] (a : Memory → Except EngineError α) :
    Keeps R (reading a : System ε δ α) := by
  intro p hp
  rw [reading]
  split <;> exact hp

lemma keeps_writing [ErrorCode ε] (a : Memory → Except EngineError Memory) :
    Keeps R (writing a : System ε δ Unit) := by
  intro p hp
  rw [writing]
  split <;> exact hp

lemma keeps_write [ErrorCode ε] (address : Nat) (bytes : Bytes) :
    Keeps R (write address bytes : System ε δ Unit) :=
  keeps_writing _

lemma keeps_readInput (max : Nat) : Keeps R (readInput max : System ε δ Bytes) := by
  intro p hp
  rw [readInput, Task.always_bind]
  -- the input is read by a task of its own, which never sees the process
  refine Task.always_of_forall (fun r => ?_) _
  obtain ⟨e | chunk, s⟩ := r <;> exact hp

/-! ## What does -/

lemma keeps_onTree [ErrorCode ε] {a : FileTree.Action α}
    (h : ∀ t d, R t d → R (FileTree.after a t) d) : Keeps R (onTree a : System ε δ α) := by
  intro p hp
  have := h p.tree p.descriptors hp
  rw [FileTree.after] at this
  rw [onTree]
  cases ha : a p.tree <;> rw [ha] at this <;> exact this

lemma keeps_onTree_of_looks [ErrorCode ε] {a : FileTree.Action α} (ha : FileTree.Looks a) :
    Keeps R (onTree a : System ε δ α) :=
  keeps_onTree fun t d h => by rwa [ha t]

lemma keeps_onTreeNow [ErrorCode ε] {a : Moment → FileTree.Action α}
    (h : ∀ now t d, R t d → R (FileTree.after (a now) t) d) :
    Keeps R (onTreeNow a : System ε δ α) :=
  keeps_bind (keeps_ask .clock) fun now => keeps_onTree (h now)

lemma keeps_addDescriptor {d : δ} (h : ∀ t ds, R t ds → R t (ds.insert d)) :
    Keeps R (addDescriptor d : System ε δ Nat) :=
  fun p hp => h p.tree p.descriptors hp

lemma keeps_dropDescriptor {k : Nat} (h : ∀ t ds, R t ds → R t (ds.remove k)) :
    Keeps R (dropDescriptor k : System ε δ Unit) :=
  fun p hp => h p.tree p.descriptors hp

end GuestShell.System
