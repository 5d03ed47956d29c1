import GuestShell.Proofs.Sandbox.LiveDescriptors
import GuestShell.Proofs.Sandbox.StdinDelivery

/-!
# A failing call leaves no trace

When a function of the smaller interface fails with an error code, the process is exactly what it was
and nobody but the clock was asked (`spotless_perform`).

A failure undoes nothing, so this is about the order of steps.  Looking comes first, and looking is
harmless.  Then at most one step can still fail, and what can fail there is atomic by itself
(`Spotless`).  What comes after it cannot fail with a code any more (`Sure`): the bytes that were read
fit the area that was checked before, and the handle of a live descriptor can be closed.
-/

namespace GuestShell

open FileTree (Action)

namespace System

variable {ε δ α β : Type} {p q : Process δ} {log : Log}

/-- If the function fails with a code, it has changed nothing and asked nobody but the clock. -/
def Spotless (a : System ε δ α) (p : Process δ) : Prop :=
  ∀ log e q, Ran a p log (.error (.code e)) q → q = p ∧ ∀ r ∈ log, r.1 = .clock

/-- The function does not fail with a code. -/
def Sure (a : System ε δ α) (p : Process δ) : Prop :=
  ∀ log e q, ¬Ran a p log (.error (.code e)) q

/-! ## What cannot fail with a code -/

lemma sure_pure (v : α) : Sure (pure v : System ε δ α) p := by
  intro log e q h
  obtain ⟨-, hr, -⟩ := ran_pure_iff.1 h
  cases hr

lemma sure_stop (s : HostStop) : Sure (stop s : System ε δ α) p := by
  intro log e q h
  obtain ⟨-, hr, -⟩ := ran_throw_iff.1 h
  cases hr

lemma sure_ask (r : Run.Request) : Sure (ask r : System ε δ (Run.Answer r)) p := by
  intro log e q h
  obtain ⟨_, -, hr, -⟩ := ran_ask_iff.1 h
  cases hr

lemma sure_bind {a : System ε δ α} {f : α → System ε δ β} (ha : Sure a p)
    (hf : ∀ log v u, Ran a p log (.ok v) u → Sure (f v) u) : Sure (a >>= f) p := by
  intro log e q h
  rcases ran_bind_iff.1 h with ⟨_, hr, hfail⟩ | ⟨v, u, _, _, -, hrun, hrest⟩
  · cases hr
    exact ha _ _ _ hfail
  · exact hf _ v u hrun _ _ _ hrest

lemma sure_update (f : Process δ → Process δ) : Sure (update f : System ε δ Unit) p := by
  intro log e q h
  obtain ⟨-, hr, -⟩ := Task.runs_done_pair_iff.1 h
  cases hr

/-- An area that was checked lies in the memory. -/
lemma fits_of_ran_check [ErrorCode ε] {address size : Nat}
    (h : Ran (reading (·.check address size) : System ε δ Unit) p log (.ok ()) q) :
    address + size ≤ p.memory.size := by
  rcases (ran_reading_iff.1 h).2.2 with ⟨_, hok, -⟩ | ⟨_, -, hr⟩
  · by_contra hout
    rw [Memory.check, if_neg hout] at hok
    cases hok
  · cases hr

/-- Bytes that fit can be put into memory. -/
lemma sure_write [ErrorCode ε] {address : Nat} {bytes : Bytes}
    (hfit : address + bytes.length ≤ p.memory.size) :
    Sure (write address bytes : System ε δ Unit) p := by
  intro log e q h
  rcases (ran_writing_iff.1 h).2 with ⟨_, -, hr, -⟩ | ⟨_, herror, -⟩
  · cases hr
  · rw [Memory.write, if_pos hfit] at herror
    cases herror

/-- A read gives no more than was asked for. -/
lemma always_read_length (s : Stdin) (max : Nat) :
    (s.read max).Always fun r => ∀ chunk, r.1 = .ok chunk → chunk.length ≤ max := by
  rw [Stdin.read]
  split_ifs
  · simp [pure, Task.Always]
  · simp [pure, Task.Always]
  · simpa [pure, Task.Always] using s.length_take_le max
  · simp [pure, Task.Always]
  · intro line stopped
    cases stopped with
    | true => simp [pure, Task.Always]
    | false =>
      cases line with
      | none => simp [pure, Task.Always]
      | some line => simpa [pure, Task.Always] using Stdin.length_take_le _ max

/-- Reading the input is stopped or gives a chunk, and leaves the memory alone. -/
lemma ran_readInput {max : Nat} {r : Except (Failure ε) Bytes}
    (h : Ran (readInput max : System ε δ Bytes) p log r q) :
    (∃ s, r = .error (.stop s)) ∨
      ∃ chunk, r = .ok chunk ∧ chunk.length ≤ max ∧ q.memory = p.memory := by
  obtain ⟨⟨result, s⟩, before, after, -, hread, hend⟩ := Task.runs_bind_iff.1 h
  have hlength := Task.always_iff_runs.1 (always_read_length p.stdin max) _ _ hread
  cases result with
  | error stop =>
    obtain ⟨-, hr, -⟩ := Task.runs_done_pair_iff.1 hend
    exact .inl ⟨stop, hr⟩
  | ok chunk =>
    obtain ⟨-, hr, rfl⟩ := Task.runs_done_pair_iff.1 hend
    exact .inr ⟨chunk, hr, hlength chunk rfl, rfl⟩

/-- What is read from a file is no more than was asked for. -/
lemma length_of_ran_read [ErrorCode ε] {handle max : Nat} {data : Bytes}
    (h : Ran (onTree (FileTree.read handle max) : System ε δ Bytes) p log (.ok data) q) :
    data.length ≤ max := by
  obtain ⟨-, ⟨_, t, hok, hr, -⟩ | ⟨_, _, -, hr, -⟩⟩ := ran_onTree_iff.1 h
  · cases hr
    rcases FileTree.read_cases handle max p.tree with ⟨_, herror⟩ | ⟨_, _, _, -, -, hrun⟩
    · cases herror.symm.trans hok
    · cases hrun.symm.trans hok
      exact List.length_take_le _ _
  · cases hr

/-! ## What fails without a trace -/

lemma Sure.spotless {a : System ε δ α} (ha : Sure a p) : Spotless a p :=
  fun _ _ _ h => absurd h (ha _ _ _)

lemma Looks.spotless {a : System ε δ α} (ha : Looks a) : Spotless a p := by
  intro log e q h
  obtain ⟨rfl, rfl⟩ := ha _ _ _ _ h
  exact ⟨rfl, by simp⟩

/-- First a look, then something spotless. -/
lemma Looks.spotless_bind {a : System ε δ α} {f : α → System ε δ β} (ha : Looks a)
    (hf : ∀ v, Ran a p [] (.ok v) p → Spotless (f v) p) : Spotless (a >>= f) p := by
  intro log e q h
  rcases ha.ran_bind h with ⟨_, -, rfl, rfl⟩ | ⟨v, hlook, hrest⟩
  · exact ⟨rfl, by simp⟩
  · exact hf v hlook _ _ _ hrest

/-- First something spotless, then something sure. -/
lemma Spotless.bind_sure {a : System ε δ α} {f : α → System ε δ β} (ha : Spotless a p)
    (hf : ∀ log v u, Ran a p log (.ok v) u → Sure (f v) u) : Spotless (a >>= f) p := by
  intro log e q h
  rcases ran_bind_iff.1 h with ⟨_, hr, hfail⟩ | ⟨v, u, _, _, -, hrun, hrest⟩
  · cases hr
    exact ha _ _ _ hfail
  · exact absurd hrest (hf _ v u hrun _ _ _)

lemma spotless_ite {c : Prop} [Decidable c] {a b : System ε δ α} (ha : c → Spotless a p)
    (hb : ¬c → Spotless b p) : Spotless (if c then a else b) p := by
  split_ifs with h
  · exact ha h
  · exact hb h

lemma spotless_write [ErrorCode ε] (address : Nat) (bytes : Bytes) :
    Spotless (write address bytes : System ε δ Unit) p := by
  intro log e q h
  obtain ⟨rfl, ⟨_, -, hr, -⟩ | ⟨_, -, -, rfl⟩⟩ := ran_writing_iff.1 h
  · cases hr
  · exact ⟨rfl, by simp⟩

lemma spotless_onTree [ErrorCode ε] {a : Action α} (ha : FileTree.Atomic a) :
    Spotless (onTree a : System ε δ α) p := by
  intro log e q h
  obtain ⟨rfl, ⟨_, _, -, hr, -⟩ | ⟨_, t, herror, -, rfl⟩⟩ := ran_onTree_iff.1 h
  · cases hr
  · obtain rfl := ha _ _ _ herror
    exact ⟨rfl, by simp⟩

lemma spotless_onTreeNow [ErrorCode ε] {a : Moment → Action α} (ha : ∀ now, FileTree.Atomic (a now)) :
    Spotless (onTreeNow a : System ε δ α) p := by
  intro log e q h
  obtain ⟨now, rfl, htree⟩ := ran_onTreeNow_iff.1 h
  obtain ⟨rfl, -⟩ := spotless_onTree (ha now) _ _ _ htree
  exact ⟨rfl, by simp⟩

end System

namespace Posix

open GuestShell.System FileTree

variable {g : Guest}

lemma looks_handle (fd : Int) : Looks (handle fd) :=
  looks_of_done fun g => (handle_cases fd g).elim (fun ⟨_, h⟩ => ⟨_, h⟩)
    fun ⟨_, _, _, h⟩ => ⟨_, h⟩

/-- The area was checked before anything was read, so what was read can be stored. -/
lemma spotless_read (fd : Int) (address size : Nat) : Spotless (read fd address size) g := by
  refine (looks_reading _).spotless_bind fun _ hcheck => ?_
  have hsize := fits_of_ran_check hcheck
  have stored {data : Bytes} {u : Guest} (hdata : data.length ≤ size) (hu : u.memory = g.memory) :
      Sure (do
        System.write address data
        return (data.length : Int) : Sys Int) u := by
    refine sure_bind (sure_write ?_) fun _ _ _ _ => sure_pure _
    rw [hu]
    omega
  refine spotless_ite (fun _ => ?_) fun _ => spotless_ite (fun _ => ?_) fun _ => ?_
  · refine Sure.spotless (sure_bind ?_ fun log v u hread => ?_)
    · intro log e q h
      rcases ran_readInput h with ⟨_, hr⟩ | ⟨_, hr, -⟩ <;> cases hr
    · rcases ran_readInput hread with ⟨_, hr⟩ | ⟨chunk, hr, hlength, hmemory⟩
      · cases hr
      · cases hr
        exact stored hlength hmemory
  · exact (looks_fail _).spotless_bind fun _ h => absurd (ran_throw_iff.1 h).2.1 (by simp)
  · refine (looks_handle fd).spotless_bind fun h _ => ?_
    refine (spotless_onTree (atomic_read h size)).bind_sure fun log data u hread => ?_
    rcases (ran_onTree_iff.1 hread).2 with ⟨_, t, hok, hr, rfl⟩ | ⟨_, _, -, hr, -⟩
    · cases hr
      refine stored ?_ rfl
      rcases read_cases h size g.tree with ⟨_, herror⟩ | ⟨_, _, _, -, -, hrun⟩
      · rw [herror] at hok
        cases hok
      · rw [hrun] at hok
        cases hok
        exact List.length_take_le _ _
    · cases hr

lemma spotless_write_call (fd : Int) (address size : Nat) : Spotless (write fd address size) g := by
  refine (looks_reading _).spotless_bind fun data _ => ?_
  refine spotless_ite (fun _ => ?_) fun _ => spotless_ite (fun _ => ?_) fun _ => ?_
  · exact (sure_bind (sure_ask _) fun _ _ _ _ => sure_pure _).spotless
  · exact (sure_bind (sure_ask _) fun _ _ _ _ => sure_pure _).spotless
  refine spotless_ite (fun _ => ?_) fun _ => ?_
  · exact (looks_fail _).spotless_bind fun _ _ => (looks_pure _).spotless
  · refine (looks_handle fd).spotless_bind fun h _ => ?_
    exact (spotless_onTreeNow fun now => atomic_write h data).bind_sure fun _ _ _ _ => sure_pure _

lemma spotless_open (p : Path) (flags : Nat) : Spotless (open_ p flags) g := by
  refine (spotless_onTreeNow fun now => atomic_openPath p _).bind_sure fun _ h u _ => ?_
  intro log e q hrun
  rw [ran_addDescriptor_bind_iff] at hrun
  exact sure_pure _ _ _ _ hrun

/-- The descriptor is gone before its handle is closed, but the handle of a descriptor is open. -/
lemma spotless_close (hm : Matched some g.tree g.descriptors) (fd : Int) : Spotless (close fd) g := by
  intro log e q h
  rcases ran_close hm h with ⟨_, -, rfl, rfl⟩ | ⟨-, -, hr, -⟩ | ⟨_, _, -, -, hr, -⟩
  · exact ⟨rfl, by simp⟩
  · cases hr
  · cases hr

lemma spotless_seek (fd offset whence : Int) : Spotless (seek fd offset whence) g := by
  refine (looks_handle fd).spotless_bind fun h _ => ?_
  have horigin : Looks (origin whence offset) :=
    looks_ite (looks_pure _) (looks_ite (looks_pure _) (looks_ite (looks_pure _) (looks_fail _)))
  refine horigin.spotless_bind fun o _ => ?_
  exact (spotless_onTree (atomic_seek h o)).bind_sure fun _ _ _ _ => sure_pure _

lemma spotless_copyOut (address room : Nat) (bytes : Bytes) :
    Spotless (copyOut address room bytes) g :=
  (spotless_write _ _).bind_sure fun _ _ _ _ => sure_pure _

lemma spotless_change {a : Moment → Action Unit} (ha : ∀ now, Atomic (a now)) :
    Spotless (change a) g :=
  (spotless_onTreeNow ha).bind_sure fun _ _ _ _ => sure_pure _

/-- **If a function fails with a code, nothing has happened.** -/
theorem spotless_perform (hm : Matched some g.tree g.descriptors) (c : PosixCall)
    (args : List Value) : Spotless (perform c args) g := by
  cases c with
  | read => exact spotless_read _ _ _
  | write => exact spotless_write_call _ _ _
  | open_ => exact (looks_path _ _).spotless_bind fun p _ => spotless_open p _
  | close => exact spotless_close hm _
  | seek => exact spotless_seek _ _ _
  | exit => exact (sure_stop _).spotless
  | getenv =>
    refine (looks_reading _).spotless_bind fun name _ => looks_process.spotless_bind fun g' _ => ?_
    split
    · exact spotless_copyOut _ _ _
    · exact (looks_pure _).spotless
  | getcwd =>
    refine spotless_ite (fun _ => ?_) fun _ => spotless_copyOut _ _ _
    exact (looks_fail _).spotless_bind fun _ _ => spotless_copyOut _ _ _
  | stat =>
    refine (looks_path _ _).spotless_bind fun p _ => ?_
    refine (looks_onTree (looks_metadata p)).spotless_bind fun m _ => ?_
    exact (spotless_write _ _).bind_sure fun _ _ _ _ => sure_pure _
  | mkdir =>
    exact (looks_path _ _).spotless_bind fun p _ => spotless_change fun _ => atomic_makeDirectory p
  | readdir =>
    refine (looks_path _ _).spotless_bind fun p _ => ?_
    refine (looks_onTree (looks_list p)).spotless_bind fun names _ => ?_
    exact (spotless_write _ _).bind_sure fun _ _ _ _ => sure_pure _
  | rmdir =>
    exact (looks_path _ _).spotless_bind fun p _ =>
      spotless_change fun _ => atomic_removeDirectory p
  | unlink =>
    exact (looks_path _ _).spotless_bind fun p _ => spotless_change fun _ => atomic_removeFile p
  | rename =>
    refine (looks_path _ _).spotless_bind fun source _ => ?_
    exact (looks_path _ _).spotless_bind fun target _ =>
      spotless_change fun _ => atomic_rename source target

/-- **A call that fails with a code leaves no trace**, wherever the run has come to, whatever the
arguments and the memory are: the whole process is as it was, and at most the clock was asked. -/
theorem perform_failure_traceless {now : Moment} {i : Invocation} (hg : Course now i g)
    (c : PosixCall) (args : List Value) (m : Memory) {log : Log} {e : PosixError} {q : Guest}
    (h : Ran (perform c args) { g with memory := m } log (.error (.code e)) q) :
    q = { g with memory := m } ∧ ∀ r ∈ log, r.1 = .clock := by
  have hm : Matched some g.tree g.descriptors := matched_of_course hg
  exact spotless_perform (g := { g with memory := m }) hm c args log e q h

/-- Writing to a file that was opened for reading only; the clock was asked. -/
theorem perform_failure_traceless_one_file :
    Course 7 oneFile reader ∧ ∃ log q,
      Ran (perform .write [.i32 3, .i32 0, .i32 1]) { reader with memory := .ofList [97] } log
        (.error (.code .permissionDenied)) q ∧
      q = { reader with memory := .ofList [97] } ∧ log ≠ [] ∧ ∀ r ∈ log, r.1 = .clock := by
  have hcourse : Course 7 oneFile reader := Runnable.Course.start.next _
  have hrun : Ran (perform .write [.i32 3, .i32 0, .i32 1])
      { reader with memory := .ofList [97] } _ (.error (.code .permissionDenied)) _ :=
    ran_trace (fun _ => Runnable.stillness) _ _
  obtain ⟨hq, hlog⟩ := perform_failure_traceless hcourse _ _ _ hrun
  exact ⟨hcourse, _, _, hrun, hq, by decide +kernel, hlog⟩

end Posix

end GuestShell
