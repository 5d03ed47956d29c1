import GuestShell.Proofs.Engine.Memory
import GuestShell.Proofs.FileTree.Limits
import GuestShell.Proofs.Sandbox.LibcFailures

/-!
# When a call breaks the host down

A host function that is asked for a file longer than any machine can hold does not answer with an
error code.  It breaks down, and the host with it.  `Posix.TooLong` and `Libc.TooLong` say which
calls those are, and every other call is answered or ends the run in an orderly way
(`breaks_perform`).

Most functions are `Sturdy`: nothing they do can break the host down, whatever the process is.  For
the others `BreaksIff` names the condition, which is carried back from the step that breaks down to
the beginning of the function.
-/

namespace GuestShell

open FileTree (Action Never)

namespace System

variable {ε δ α β : Type} {p q : Process δ} {log : Log} {P : Prop}

/-- The function does not break the host down. -/
def Sturdy (a : System ε δ α) : Prop := ∀ p log q, ¬Ran a p log (.error (.stop .breakdown)) q

/-- However the function is run, it breaks the host down exactly if this is so. -/
def BreaksIff (P : Prop) (a : System ε δ α) (p : Process δ) : Prop :=
  ∀ log r q, Ran a p log r q → (r = .error (.stop .breakdown) ↔ P)

/-! ## Steps that are sturdy -/

lemma sturdy_pure (v : α) : Sturdy (pure v : System ε δ α) := by
  intro p log q h
  cases (ran_pure_iff.1 h).2.1

lemma sturdy_fail (e : ε) : Sturdy (fail e : System ε δ α) := by
  intro p log q h
  cases (ran_throw_iff.1 h).2.1

lemma sturdy_stop {s : HostStop} (hs : s ≠ .breakdown) : Sturdy (stop s : System ε δ α) := by
  intro p log q h
  cases (ran_throw_iff.1 h).2.1
  exact hs rfl

lemma sturdy_ask (r : Run.Request) : Sturdy (ask r : System ε δ (Run.Answer r)) := by
  intro p log q h
  obtain ⟨_, -, hr, -⟩ := ran_ask_iff.1 h
  cases hr

lemma sturdy_process : Sturdy (process : System ε δ (Process δ)) := by
  intro p log q h
  cases (Task.runs_done_pair_iff.1 h).2.1

lemma sturdy_update (f : Process δ → Process δ) : Sturdy (update f : System ε δ Unit) := by
  intro p log q h
  cases (Task.runs_done_pair_iff.1 h).2.1

lemma sturdy_addDescriptor (d : δ) : Sturdy (addDescriptor d : System ε δ Nat) := by
  intro p log q h
  cases (Task.runs_done_pair_iff.1 h).2.1

lemma sturdy_reading [ErrorCode ε] (a : Memory → Except EngineError α) :
    Sturdy (reading a : System ε δ α) := by
  intro p log q h
  obtain ⟨-, -, ⟨_, -, hr⟩ | ⟨_, -, hr⟩⟩ := ran_reading_iff.1 h
  · cases hr
  · cases hr

lemma sturdy_writing [ErrorCode ε] (a : Memory → Except EngineError Memory) :
    Sturdy (writing a : System ε δ Unit) := by
  intro p log q h
  obtain ⟨-, ⟨_, -, hr, -⟩ | ⟨_, -, hr, -⟩⟩ := ran_writing_iff.1 h
  · cases hr
  · cases hr

/-- While somebody is asked for a line, a run may be stopped, and that is all. -/
lemma always_read_stop (s : Stdin) (max : Nat) :
    (s.read max).Always fun r => ∀ stop, r.1 = .error stop → stop = .interrupted := by
  rw [Stdin.read]
  split_ifs
  · simp [pure, Task.Always]
  · simp [pure, Task.Always]
  · simp [pure, Task.Always]
  · simp [pure, Task.Always]
  · intro line stopped
    cases stopped with
    | true => simp [pure, Task.Always, eq_comm]
    | false => cases line <;> simp [pure, Task.Always]

lemma sturdy_readInput (max : Nat) : Sturdy (readInput max : System ε δ Bytes) := by
  intro p log q h
  obtain ⟨⟨result, s⟩, before, after, -, hread, hend⟩ := Task.runs_bind_iff.1 h
  have hstop := Task.always_iff_runs.1 (always_read_stop p.stdin max) _ _ hread
  cases result with
  | error stop =>
    obtain ⟨-, hr, -⟩ := Task.runs_done_pair_iff.1 hend
    cases hr
    cases hstop _ rfl
  | ok chunk => cases (Task.runs_done_pair_iff.1 hend).2.1

lemma failureOf_eq_breakdown_iff [ErrorCode ε] {e : FileError} :
    (failureOf e : Failure ε) = .stop .breakdown ↔ e = .tooLong := by
  cases e <;> simp [failureOf]

/-- An action on the tree breaks the host down exactly if it fails for want of room. -/
lemma breaksIff_onTree [ErrorCode ε] {a : Action α}
    (ha : (∃ u, a p.tree = .error .tooLong u) ↔ P) :
    BreaksIff P (onTree a : System ε δ α) p := by
  intro log r q h
  rw [← ha]
  obtain ⟨-, ⟨v, t, hok, rfl, -⟩ | ⟨e, t, herror, rfl, -⟩⟩ := ran_onTree_iff.1 h
  · simp [hok]
  · simp [herror, failureOf_eq_breakdown_iff]

lemma breaksIff_onTreeNow [ErrorCode ε] {a : Moment → Action α}
    (ha : ∀ now, (∃ u, a now p.tree = .error .tooLong u) ↔ P) :
    BreaksIff P (onTreeNow a : System ε δ α) p := by
  intro log r q h
  obtain ⟨now, -, htree⟩ := ran_onTreeNow_iff.1 h
  exact breaksIff_onTree (ha now) _ _ _ htree

lemma sturdy_onTree [ErrorCode ε] {a : Action α} (ha : Never .tooLong a) :
    Sturdy (onTree a : System ε δ α) := by
  intro p log q h
  have hnever : (∃ u, a p.tree = .error .tooLong u) ↔ False := by simp [ha p.tree]
  exact (breaksIff_onTree hnever _ _ _ h).1 rfl

lemma sturdy_onTreeNow [ErrorCode ε] {a : Moment → Action α} (ha : ∀ now, Never .tooLong (a now)) :
    Sturdy (onTreeNow a : System ε δ α) := by
  intro p log q h
  obtain ⟨now, -, htree⟩ := ran_onTreeNow_iff.1 h
  exact sturdy_onTree (ha now) _ _ _ htree

/-- What was read is the area, and there was memory for it. -/
lemma ran_read_ok [ErrorCode ε] {address size : Nat} {data : Bytes}
    (h : Ran (reading (·.read address size) : System ε δ Bytes) p log (.ok data) q) :
    address + size ≤ p.memory.size ∧ data.length = size := by
  obtain ⟨-, -, ⟨v, hok, hr⟩ | ⟨_, -, hr⟩⟩ := ran_reading_iff.1 h
  · cases hr
    rw [Memory.read] at hok
    split_ifs at hok with hfit
    cases hok
    exact ⟨hfit, Memory.length_area _ _ _⟩
  · cases hr

/-! ## Sequences -/

lemma sturdy_bind {a : System ε δ α} {f : α → System ε δ β} (ha : Sturdy a)
    (hf : ∀ v, Sturdy (f v)) : Sturdy (a >>= f) := by
  intro p log q h
  rcases ran_bind_iff.1 h with ⟨_, hr, hfail⟩ | ⟨v, u, _, _, -, -, hrest⟩
  · cases hr
    exact ha _ _ _ hfail
  · exact hf v _ _ _ hrest

/-- Nothing comes after a failure. -/
lemma sturdy_fail_bind (e : ε) (f : α → System ε δ β) : Sturdy ((fail e : System ε δ α) >>= f) := by
  intro p log q h
  rcases ran_bind_iff.1 h with ⟨_, hr, hfail⟩ | ⟨_, _, _, _, -, hfail, -⟩
  · cases hr
    exact sturdy_fail e _ _ _ hfail
  · cases (ran_throw_iff.1 hfail).2.1

lemma sturdy_map {a : System ε δ α} (f : α → β) (ha : Sturdy a) : Sturdy (f <$> a) := by
  rw [map_eq_pure_bind]
  exact sturdy_bind ha fun _ => sturdy_pure _

lemma sturdy_ite {c : Prop} [Decidable c] {a b : System ε δ α} (ha : Sturdy a) (hb : Sturdy b) :
    Sturdy (if c then a else b) := by
  split_ifs
  · exact ha
  · exact hb

lemma Sturdy.breaksIff {a : System ε δ α} (ha : Sturdy a) (hP : ¬P) : BreaksIff P a p := by
  intro log r q h
  refine iff_of_false ?_ hP
  rintro rfl
  exact ha _ _ _ h

lemma BreaksIff.congr {Q : Prop} {a : System ε δ α} (ha : BreaksIff P a p) (h : P ↔ Q) :
    BreaksIff Q a p :=
  fun log r q hrun => (ha log r q hrun).trans h

/-- What comes after the step that may break down is sturdy. -/
lemma BreaksIff.bind {a : System ε δ α} {f : α → System ε δ β} (ha : BreaksIff P a p)
    (hf : ∀ v, Sturdy (f v)) : BreaksIff P (a >>= f) p := by
  intro log r q h
  rcases ran_bind_iff.1 h with ⟨e, rfl, hfail⟩ | ⟨v, u, before, after, -, hrun, hrest⟩
  · simpa using ha log _ q hfail
  · have hP : ¬P := by simpa using ha before _ u hrun
    exact (hf v).breaksIff hP _ _ _ hrest

/-- What comes before it looks, and if it fails, there is nothing to break down over. -/
lemma Looks.breaksIff_bind {a : System ε δ α} {f : α → System ε δ β} (ha : Looks a)
    (hsturdy : Sturdy a) (hfail : ∀ log e q, Ran a p log (.error e) q → ¬P)
    (hf : ∀ v, Ran a p [] (.ok v) p → BreaksIff P (f v) p) : BreaksIff P (a >>= f) p := by
  intro log r q h
  rcases ran_bind_iff.1 h with ⟨e, rfl, hrun⟩ | ⟨v, u, before, after, -, hrun, hrest⟩
  · refine iff_of_false ?_ (hfail log e q hrun)
    rintro heq
    cases heq
    exact hsturdy _ _ _ hrun
  · obtain ⟨rfl, rfl⟩ := ha _ _ _ _ hrun
    exact hf v hrun after r q hrest

lemma breaksIff_ite {c : Prop} [Decidable c] {a b : System ε δ α} (ha : c → BreaksIff P a p)
    (hb : ¬c → BreaksIff P b p) : BreaksIff P (if c then a else b) p := by
  split_ifs with h
  · exact ha h
  · exact hb h

end System

open GuestShell.System FileTree

/-! ## The smaller interface -/

namespace Posix

variable {g : Guest}

/-- The call is to make a file longer than any file can be. -/
def TooLong (c : PosixCall) (args : List Value) (g : Guest) : Prop :=
  match c with
  | .write =>
    let address := (argument args 1).address
    let size := (argument args 2).address
    address + size ≤ g.memory.size ∧ ∃ k h : Nat, (argument args 0).narrow.toInt = k + firstFile ∧
      g.descriptors.get? k = some h ∧ g.tree.Outgrows h size
  | _ => False

lemma sturdy_handle (fd : Int) : Sturdy (handle fd) := by
  refine sturdy_ite (sturdy_fail_bind _ _) (sturdy_bind sturdy_process fun g => ?_)
  cases g.descriptors.get? (fd - firstFile).toNat with
  | none => exact sturdy_fail _
  | some h => exact sturdy_pure _

lemma handle_live {k h : Nat} (hk : g.descriptors.get? k = some h) :
    handle (k + firstFile) g = .done (.ok h, g) := by
  have hkey : (k + firstFile - firstFile : Int).toNat = k := by omega
  rw [handle, if_neg (by omega)]
  simp only [hkey, bind_apply, process, pure, Task.bind_done, hk]
  rfl

lemma sturdy_path (address size : Nat) : Sturdy (path address size) :=
  sturdy_bind (sturdy_reading _) fun _ => sturdy_pure _

lemma sturdy_read (fd : Int) (address size : Nat) : Sturdy (read fd address size) := by
  have rest (data : Bytes) : Sturdy (do
      System.write address data
      return (data.length : Int) : Sys Int) :=
    sturdy_bind (sturdy_writing _) fun _ => sturdy_pure _
  refine sturdy_bind (sturdy_reading _) fun _ => sturdy_ite ?_ (sturdy_ite ?_ ?_)
  · exact sturdy_bind (sturdy_readInput size) rest
  · exact sturdy_fail_bind _ _
  · refine sturdy_bind (sturdy_handle fd) fun h => ?_
    exact sturdy_bind (sturdy_onTree (never_tooLong_read h size)) rest

lemma sturdy_open (p : Path) (flags : Nat) : Sturdy (open_ p flags) :=
  sturdy_bind (sturdy_onTreeNow fun _ => never_tooLong_openPath p _) fun h =>
    sturdy_bind (sturdy_addDescriptor h) fun _ => sturdy_pure _

lemma sturdy_close (fd : Int) : Sturdy (close fd) := by
  refine sturdy_ite (sturdy_pure _) (sturdy_bind (sturdy_handle fd) fun h => ?_)
  refine sturdy_bind (sturdy_update _) fun _ => ?_
  exact sturdy_bind (sturdy_onTree (never_tooLong_close h)) fun _ => sturdy_pure _

lemma sturdy_seek (fd offset whence : Int) : Sturdy (seek fd offset whence) := by
  have horigin : Sturdy (origin whence offset) :=
    sturdy_ite (sturdy_pure _) (sturdy_ite (sturdy_pure _) (sturdy_ite (sturdy_pure _)
      (sturdy_fail _)))
  refine sturdy_bind (sturdy_handle fd) fun h => sturdy_bind horigin fun o => ?_
  exact sturdy_bind (sturdy_onTree (never_tooLong_seek h o)) fun _ => sturdy_pure _

lemma sturdy_copyOut (address room : Nat) (bytes : Bytes) : Sturdy (copyOut address room bytes) :=
  sturdy_bind (sturdy_writing _) fun _ => sturdy_pure _

lemma sturdy_change {a : Moment → Action Unit} (ha : ∀ now, Never .tooLong (a now)) :
    Sturdy (change a) :=
  sturdy_bind (sturdy_onTreeNow ha) fun _ => sturdy_pure _

/-- Writing to a file breaks the host down if the file has not enough room for the bytes. -/
lemma breaksIff_write (fd : Int) (address size : Nat) :
    BreaksIff (address + size ≤ g.memory.size ∧ ∃ k h : Nat, fd = k + firstFile ∧
      g.descriptors.get? k = some h ∧ g.tree.Outgrows h size) (write fd address size) g := by
  refine (looks_reading _).breaksIff_bind (sturdy_reading _) (fun log e q hread => ?_)
    fun data hread => ?_
  · rintro ⟨hfit, -⟩
    obtain ⟨-, -, ⟨_, -, hr⟩ | ⟨_, herror, -⟩⟩ := ran_reading_iff.1 hread
    · cases hr
    · rw [Memory.read, if_pos hfit] at herror
      cases herror
  obtain ⟨hfit, hlength⟩ := ran_read_ok hread
  -- what is no file descriptor is never too long
  have other {a : Sys Unit} (ha : Sturdy a) (hfd : fd < firstFile) : BreaksIff
      (address + size ≤ g.memory.size ∧ ∃ k h : Nat, fd = k + firstFile ∧
        g.descriptors.get? k = some h ∧ g.tree.Outgrows h size)
      (do a; return (data.length : Int) : Sys Int) g := by
    refine (sturdy_bind ha fun _ => sturdy_pure _).breaksIff ?_
    rintro ⟨-, k, h, rfl, -⟩
    omega
  refine breaksIff_ite (fun h1 => other (sturdy_ask _) (h1 ▸ by decide)) fun _ => ?_
  refine breaksIff_ite (fun h2 => other (sturdy_ask _) (h2 ▸ by decide)) fun _ => ?_
  refine breaksIff_ite (fun h0 => other (sturdy_fail _) (h0 ▸ by decide)) fun _ => ?_
  refine (looks_handle fd).breaksIff_bind (sturdy_handle fd) (fun log e q hhandle => ?_)
    fun h hhandle => ?_
  · rintro ⟨-, k, h, rfl, hk, -⟩
    rw [Ran, handle_live hk] at hhandle
    cases (Task.runs_done_pair_iff.1 hhandle).2.1
  rcases handle_cases fd g with ⟨_, hrun⟩ | ⟨h', hfd, hk, hrun⟩
  · rw [Ran, hrun] at hhandle
    cases (Task.runs_done_pair_iff.1 hhandle).2.1
  rw [Ran, hrun] at hhandle
  cases (Task.runs_done_pair_iff.1 hhandle).2.1
  refine (breaksIff_onTreeNow fun now => write_tooLong_iff.trans ?_).bind fun _ => sturdy_pure _
  rw [hlength]
  constructor
  · intro hout
    exact ⟨hfit, _, h, by omega, hk, hout⟩
  · rintro ⟨-, k, h', rfl, hk', hout⟩
    rw [Int.add_sub_cancel, Int.toNat_natCast, hk'] at hk
    exact Option.some.inj hk ▸ hout

/-- **A call of the smaller interface breaks the host down exactly if it is to make a file too
long.** -/
theorem breaks_perform (c : PosixCall) (args : List Value) :
    BreaksIff (TooLong c args g) (perform c args) g := by
  cases c with
  | read => exact (sturdy_read _ _ _).breaksIff not_false
  | write => exact breaksIff_write _ _ _
  | open_ => exact (sturdy_bind (sturdy_path _ _) fun p => sturdy_open p _).breaksIff not_false
  | close => exact (sturdy_close _).breaksIff not_false
  | seek => exact (sturdy_seek _ _ _).breaksIff not_false
  | exit =>
    have hexit : Sturdy (System.stop (.exit (argument args 0).narrow) : Sys Int) :=
      sturdy_stop (by simp)
    exact hexit.breaksIff not_false
  | getenv =>
    refine (sturdy_bind (sturdy_reading _) fun name => ?_).breaksIff not_false
    refine sturdy_bind sturdy_process fun g' => ?_
    split
    · exact sturdy_copyOut _ _ _
    · exact sturdy_pure _
  | getcwd =>
    exact (sturdy_ite (sturdy_fail_bind _ _) (sturdy_copyOut _ _ _)).breaksIff not_false
  | stat =>
    refine (sturdy_bind (sturdy_path _ _) fun p => ?_).breaksIff not_false
    refine sturdy_bind (sturdy_onTree (never_tooLong_metadata p)) fun m => ?_
    exact sturdy_bind (sturdy_writing _) fun _ => sturdy_pure _
  | mkdir =>
    exact (sturdy_bind (sturdy_path _ _) fun p =>
      sturdy_change fun _ => never_tooLong_makeDirectory p).breaksIff not_false
  | readdir =>
    refine (sturdy_bind (sturdy_path _ _) fun p => ?_).breaksIff not_false
    refine sturdy_bind (sturdy_onTree (never_tooLong_list p)) fun names => ?_
    exact sturdy_bind (sturdy_writing _) fun _ => sturdy_pure _
  | rmdir =>
    exact (sturdy_bind (sturdy_path _ _) fun p =>
      sturdy_change fun _ => never_tooLong_removeDirectory p).breaksIff not_false
  | unlink =>
    exact (sturdy_bind (sturdy_path _ _) fun p =>
      sturdy_change fun _ => never_tooLong_removeFile p).breaksIff not_false
  | rename =>
    refine (sturdy_bind (sturdy_path _ _) fun source => ?_).breaksIff not_false
    exact sturdy_bind (sturdy_path _ _) fun target =>
      sturdy_change fun _ => never_tooLong_rename source target

end Posix

/-! ## The larger interface -/

namespace Libc

variable {g : Guest}

/-- There is memory for every area. -/
def AllFit (m : Memory) (as : List Area) : Prop := ∀ a ∈ as, a.address + a.size ≤ m.size

/-- The bytes that areas have room for. -/
def totalSize : List Area → Nat
  | [] => 0
  | a :: as => a.size + totalSize as

/-- The descriptor stands for an open file of which this holds. -/
def OnFile (fd : Int) (P : Nat → Prop) (g : Guest) : Prop :=
  ∃ (k h : Nat) (append : Bool), fd = k ∧ g.descriptors.get? k = some (.file h append) ∧ P h

/-- The call is to make a file longer than any file can be, by a write or at once. -/
def TooLong (c : LibcCall) (args : List Value) (g : Guest) : Prop :=
  let arg (k : Nat) : Value := args.getD k (.i32 0)
  match c with
  | .fdWrite =>
    let vector := (arg 1).address
    let count := (arg 2).address
    OnFile (arg 0).narrow.toInt (fun h => ∃ bytes, count * 8 < UInt32.size ∧
      g.memory.read vector (count * 8) = .ok bytes ∧ AllFit g.memory (areasOf bytes) ∧
      g.tree.Outgrows h (totalSize (areasOf bytes))) g
  | .fdFilestatSetSize =>
    let size := (arg 1).wide.toUInt64.toNat
    OnFile (arg 0).narrow.toInt (fun h => g.tree.Overstretches h size) g
  | _ => False

/-! ### Functions that are sturdy -/

lemma sturdy_descriptor (fd : Int) : Sturdy (descriptor fd) := by
  refine sturdy_ite (sturdy_fail_bind _ _) (sturdy_bind sturdy_process fun g => ?_)
  cases g.descriptors.get? fd.toNat with
  | none => exact sturdy_fail _
  | some d => exact sturdy_pure _

lemma descriptor_live {k : Nat} {d : Descriptor} (hk : g.descriptors.get? k = some d) :
    descriptor k g = .done (.ok d, g) := by
  rw [descriptor, if_neg (by omega)]
  simp only [Int.toNat_natCast, bind_apply, process, pure, Task.bind_done, hk]
  rfl

lemma sturdy_directory (fd : Int) : Sturdy (directory fd) := by
  refine sturdy_bind (sturdy_descriptor fd) fun d => ?_
  cases d with
  | directory p name => exact sturdy_pure _
  | device d => exact sturdy_fail _
  | file h append => exact sturdy_fail _

lemma sturdy_path (fd : Int) (address size : Nat) : Sturdy (path fd address size) :=
  sturdy_bind (sturdy_directory fd) fun _ =>
    sturdy_bind (sturdy_reading _) fun _ => sturdy_pure _

lemma sturdy_deviceAt (p : Path) : Sturdy (deviceAt? p) :=
  sturdy_bind sturdy_process fun _ => sturdy_pure _

lemma sturdy_writeTexts (pointers target : Nat) (texts : List String) :
    Sturdy (writeTexts pointers target texts) := by
  induction texts generalizing pointers target with
  | nil => exact sturdy_pure _
  | cons s rest ih =>
    refine sturdy_bind (sturdy_writing _) fun _ => sturdy_bind (sturdy_writing _) fun _ => ?_
    exact sturdy_bind (sturdy_writing _) fun _ => ih _ _

lemma sturdy_writeSizes (countAt sizeAt : Nat) (texts : List String) :
    Sturdy (writeSizes countAt sizeAt texts) :=
  sturdy_bind (sturdy_writing _) fun _ => sturdy_writing _

lemma sturdy_areas (address count : Nat) : Sturdy (areas address count) :=
  sturdy_ite (sturdy_fail_bind _ _) (sturdy_bind (sturdy_reading _) fun _ => sturdy_pure _)

lemma sturdy_readFrom (d : Descriptor) (size : Nat) : Sturdy (readFrom d size) := by
  cases d with
  | device d =>
    cases d with
    | stdin => exact sturdy_readInput size
    | tty => exact sturdy_readInput size
    | stdout => exact sturdy_fail _
    | stderr => exact sturdy_fail _
  | directory p name => exact sturdy_fail _
  | file h append => exact sturdy_onTree (never_tooLong_read h size)

lemma sturdy_readAreas (d : Descriptor) (total : Nat) (as : List Area) :
    Sturdy (readAreas d total as) := by
  induction as generalizing total with
  | nil => exact sturdy_pure _
  | cons a rest ih =>
    refine sturdy_ite (ih total) (sturdy_bind (sturdy_reading _) fun _ => ?_)
    refine sturdy_bind (sturdy_readFrom d a.size) fun data => ?_
    exact sturdy_bind (sturdy_writing _) fun _ => sturdy_ite (sturdy_pure _) (ih _)

lemma sturdy_fdRead (fd : Int) (vector count resultAt : Nat) :
    Sturdy (fdRead fd vector count resultAt) :=
  sturdy_bind (sturdy_descriptor fd) fun d => sturdy_bind (sturdy_areas vector count) fun as =>
    sturdy_bind (sturdy_readAreas d 0 as) fun _ => sturdy_writing _

lemma sturdy_gather (as : List Area) : Sturdy (gather as) := by
  induction as with
  | nil => exact sturdy_pure _
  | cons a rest ih =>
    exact sturdy_bind (sturdy_reading _) fun _ => sturdy_bind ih fun _ => sturdy_pure _

lemma sturdy_writeTo {d : Descriptor} (hd : ∀ h append, d ≠ .file h append) (data : Bytes) :
    Sturdy (writeTo d data) := by
  cases d with
  | device d =>
    cases d with
    | stdin => exact sturdy_fail _
    | stdout => exact sturdy_ask (.stdout data)
    | stderr => exact sturdy_ask (.stderr data)
    | tty => exact sturdy_ask (.stdout data)
  | directory p name => exact sturdy_fail _
  | file h append => exact absurd rfl (hd h append)

lemma sturdy_fdSeek (fd offset : Int) (whence : Nat) : Sturdy (fdSeek fd offset whence) := by
  have horigin : Sturdy (origin whence offset) :=
    sturdy_ite (sturdy_pure _) (sturdy_ite (sturdy_pure _) (sturdy_ite (sturdy_pure _)
      (sturdy_fail _)))
  refine sturdy_bind (sturdy_descriptor fd) fun d => ?_
  cases d with
  | device d => exact sturdy_fail _
  | directory p name => exact sturdy_fail _
  | file h append =>
    exact sturdy_bind horigin fun o => sturdy_onTree (never_tooLong_seek h o)

lemma sturdy_fdClose (fd : Int) : Sturdy (fdClose fd) := by
  refine sturdy_bind (sturdy_descriptor fd) fun d => sturdy_bind (sturdy_update _) fun _ => ?_
  cases d with
  | device d => exact sturdy_pure _
  | directory p name => exact sturdy_pure _
  | file h append => exact sturdy_onTree (never_tooLong_close h)

lemma sturdy_fdFdstatGet (fd : Int) (address : Nat) : Sturdy (fdFdstatGet fd address) :=
  sturdy_bind (sturdy_descriptor fd) fun _ => sturdy_writing _

lemma sturdy_fdFilestatGet (fd : Int) (address : Nat) : Sturdy (fdFilestatGet fd address) := by
  refine sturdy_bind (sturdy_descriptor fd) fun d => ?_
  cases d with
  | device d => exact sturdy_bind (sturdy_pure _) fun _ => sturdy_writing _
  | directory p name =>
    have hlook : Sturdy (System.onTree (FileTree.metadata p) : Sys Metadata) :=
      sturdy_onTree (never_tooLong_metadata p)
    exact sturdy_bind (sturdy_map _ hlook) fun _ => sturdy_writing _
  | file h append =>
    have hlook : Sturdy (System.onTree (FileTree.handleMetadata h) : Sys Metadata) :=
      sturdy_onTree (never_tooLong_handleMetadata h)
    exact sturdy_bind (sturdy_map _ hlook) fun _ => sturdy_writing _

lemma sturdy_preopenName (fd : Int) : Sturdy (preopenName fd) := by
  refine sturdy_bind (sturdy_descriptor fd) fun d => ?_
  split
  · exact sturdy_pure _
  · exact sturdy_fail _

lemma sturdy_pathFilestatGet (p : Path) (address : Nat) : Sturdy (pathFilestatGet p address) := by
  refine sturdy_bind (sturdy_deviceAt p) fun d => ?_
  cases d with
  | some d => exact sturdy_bind (sturdy_pure _) fun _ => sturdy_writing _
  | none =>
    have hlook : Sturdy (System.onTree (FileTree.metadata p) : Sys Metadata) :=
      sturdy_onTree (never_tooLong_metadata p)
    exact sturdy_bind hlook fun _ => sturdy_bind (sturdy_pure _) fun _ => sturdy_writing _

lemma sturdy_listed (p : Path) : Sturdy (listed p) :=
  sturdy_bind (sturdy_onTree (never_tooLong_list p)) fun _ =>
    sturdy_bind sturdy_process fun _ => sturdy_pure _

lemma sturdy_fdReaddir (fd : Int) (address room cookie usedAt : Nat) :
    Sturdy (fdReaddir fd address room cookie usedAt) :=
  sturdy_bind (sturdy_directory fd) fun p => sturdy_bind (sturdy_listed p) fun _ =>
    sturdy_bind (sturdy_writing _) fun _ => sturdy_writing _

lemma sturdy_isDirectory (p : Path) : Sturdy (isDirectory p) := by
  refine sturdy_bind sturdy_process fun g => ?_
  split <;> exact sturdy_pure _

lemma sturdy_openPlace (p : Path) (f : OpenFlags) : Sturdy (openPlace p f) := by
  refine sturdy_bind (sturdy_deviceAt p) fun d => ?_
  cases d with
  | some d => exact sturdy_pure _
  | none =>
    refine sturdy_bind (sturdy_isDirectory p) fun b => sturdy_ite ?_ (sturdy_ite ?_ ?_)
    · exact sturdy_ite (sturdy_fail _) (sturdy_ite (sturdy_fail _) (sturdy_pure _))
    · exact sturdy_bind sturdy_process fun _ => sturdy_ite (sturdy_fail _) (sturdy_fail _)
    · exact sturdy_bind (sturdy_onTreeNow fun _ => never_tooLong_openPath p _) fun _ =>
        sturdy_pure _

lemma sturdy_pathOpen (p : Path) (f : OpenFlags) (resultAt : Nat) :
    Sturdy (pathOpen p f resultAt) :=
  sturdy_bind (sturdy_openPlace p f) fun d =>
    sturdy_bind (sturdy_addDescriptor d) fun _ => sturdy_writing _

lemma sturdy_pathUnlinkFile (p : Path) : Sturdy (pathUnlinkFile p) := by
  refine sturdy_bind (sturdy_deviceAt p) fun d => ?_
  cases d with
  | some d => exact sturdy_fail _
  | none => exact sturdy_onTree (never_tooLong_removeFile p)

lemma sturdy_randomGet (address size : Nat) : Sturdy (randomGet address size) :=
  sturdy_bind (sturdy_reading _) fun _ => sturdy_bind sturdy_process fun _ =>
    sturdy_bind (sturdy_update _) fun _ => sturdy_writing _

/-! ### Functions that can make a file too long -/

/-- What begins with a descriptor breaks down over an open file only. -/
lemma breaksIff_onFile {α : Type} {P : Nat → Prop} {fd : Int} {f : Descriptor → Sys α}
    (hother : ∀ d, (∀ h append, d ≠ .file h append) → Sturdy (f d))
    (hfile : ∀ h append, BreaksIff (P h) (f (.file h append)) g) :
    BreaksIff (OnFile fd P g) (descriptor fd >>= f) g := by
  refine (looks_descriptor fd).breaksIff_bind (sturdy_descriptor fd) (fun log e q hrun => ?_)
    fun d hrun => ?_
  · rintro ⟨k, h, append, rfl, hk, -⟩
    rw [Ran, descriptor_live hk] at hrun
    cases (Task.runs_done_pair_iff.1 hrun).2.1
  rcases descriptor_cases fd g with ⟨_, herror⟩ | ⟨d', hfd, hk, hok⟩
  · rw [Ran, herror] at hrun
    cases (Task.runs_done_pair_iff.1 hrun).2.1
  rw [Ran, hok] at hrun
  cases (Task.runs_done_pair_iff.1 hrun).2.1
  have hon : OnFile fd P g ↔ ∃ h append, d = .file h append ∧ P h := by
    constructor
    · rintro ⟨k, h, append, rfl, hk', hP⟩
      rw [Int.toNat_natCast] at hk
      exact ⟨h, append, Option.some.inj (hk.symm.trans hk'), hP⟩
    · rintro ⟨h, append, rfl, hP⟩
      exact ⟨fd.toNat, h, append, (Int.toNat_of_nonneg hfd).symm, hk, hP⟩
  cases d with
  | device d => exact (hother (.device d) (by simp)).breaksIff (by simp [hon])
  | directory p name => exact (hother (.directory p name) (by simp)).breaksIff (by simp [hon])
  | file h append => exact (hfile h append).congr (by simp [hon])

lemma breaksIff_fdFilestatSetSize (fd : Int) (size : Nat) :
    BreaksIff (OnFile fd (fun h => g.tree.Overstretches h size) g) (fdFilestatSetSize fd size)
      g := by
  refine breaksIff_onFile (fun d hd => ?_) fun h append => ?_
  · cases d with
    | device d => exact sturdy_fail _
    | directory p name => exact sturdy_fail _
    | file h append => exact absurd rfl (hd h append)
  · exact breaksIff_onTreeNow fun now => setLength_tooLong_iff

lemma areas_eq_ok {vector count : Nat} {bytes : Bytes} (hcount : count * 8 < UInt32.size)
    (hread : g.memory.read vector (count * 8) = .ok bytes) :
    areas vector count g = .done (.ok (areasOf bytes), g) := by
  rw [areas, if_neg (Nat.not_le.2 hcount)]
  simp only [bind_apply, System.reading, hread, pure, Task.bind_done]
  rfl

lemma count_of_ran_areas {vector count : Nat} {as : List Area} {log : Log} {q : Guest}
    (h : Ran (areas vector count) g log (.ok as) q) : count * 8 < UInt32.size := by
  by_contra hcount
  rw [areas, if_pos (Nat.not_lt.1 hcount)] at h
  rcases ran_bind_iff.1 h with ⟨_, hr, -⟩ | ⟨_, _, _, _, -, hfail, -⟩
  · cases hr
  · cases (ran_throw_iff.1 hfail).2.1

/-- What is gathered are the bytes of all areas. -/
lemma ran_gather_ok {as : List Area} {data : Bytes} {log : Log} {q : Guest}
    (h : Ran (gather as) g log (.ok data) q) :
    AllFit g.memory as ∧ data.length = totalSize as := by
  induction as generalizing data log q with
  | nil =>
    cases (ran_pure_iff.1 h).2.1
    exact ⟨by simp [AllFit], rfl⟩
  | cons a rest ih =>
    rcases (looks_reading _).ran_bind h with ⟨_, hr, -⟩ | ⟨bytes, hread, hrest⟩
    · cases hr
    rcases (looks_gather rest).ran_bind hrest with ⟨_, hr, -⟩ | ⟨more, hmore, hend⟩
    · cases hr
    cases (ran_pure_iff.1 hend).2.1
    obtain ⟨hfit, hlength⟩ := ran_read_ok hread
    obtain ⟨hfits, hlengths⟩ := ih hmore
    refine ⟨List.forall_mem_cons.2 ⟨hfit, hfits⟩, ?_⟩
    rw [List.length_append, hlength, hlengths, totalSize]

/-- Gathering fails only for want of memory. -/
lemma not_allFit_of_ran_gather {as : List Area} {e : Failure LibcError} {log : Log} {q : Guest}
    (h : Ran (gather as) g log (.error e) q) : ¬AllFit g.memory as := by
  induction as generalizing log q with
  | nil => cases (ran_pure_iff.1 h).2.1
  | cons a rest ih =>
    intro hfits
    obtain ⟨hfit, hfits⟩ := List.forall_mem_cons.1 hfits
    rcases ran_bind_iff.1 h with ⟨_, -, hread⟩ | ⟨bytes, u, _, after, -, hread, hrest⟩
    · obtain ⟨-, -, ⟨_, -, hr⟩ | ⟨_, herror, -⟩⟩ := ran_reading_iff.1 hread
      · cases hr
      · rw [Memory.read, if_pos hfit] at herror
        cases herror
    · obtain ⟨-, rfl⟩ := looks_reading _ _ _ _ _ hread
      rcases ran_bind_iff.1 hrest with ⟨_, hr, hfail⟩ | ⟨_, _, _, _, -, -, hend⟩
      · cases hr
        exact ih hfail hfits
      · cases (ran_pure_iff.1 hend).2.1

/-- Writing to a file breaks the host down if the file has not enough room for all the bytes. -/
lemma breaksIff_fdWrite (fd : Int) (vector count resultAt : Nat) :
    BreaksIff (OnFile fd (fun h => ∃ bytes, count * 8 < UInt32.size ∧
      g.memory.read vector (count * 8) = .ok bytes ∧ AllFit g.memory (areasOf bytes) ∧
      g.tree.Outgrows h (totalSize (areasOf bytes))) g) (fdWrite fd vector count resultAt) g := by
  refine breaksIff_onFile (fun d hd => ?_) fun h append => ?_
  · exact sturdy_bind (sturdy_areas _ _) fun as => sturdy_bind (sturdy_gather as) fun data =>
      sturdy_bind (sturdy_writeTo hd data) fun _ => sturdy_writing _
  refine (looks_areas vector count).breaksIff_bind (sturdy_areas vector count)
    (fun log e q hfail => ?_) fun as hareas => ?_
  · rintro ⟨bytes, hcount, hread, -⟩
    rw [Ran, areas_eq_ok hcount hread] at hfail
    cases (Task.runs_done_pair_iff.1 hfail).2.1
  obtain ⟨bytes, hread, rfl⟩ := areasOf_of_ran_areas hareas
  refine (looks_gather _).breaksIff_bind (sturdy_gather _) (fun log e q hfail => ?_)
    fun data hgather => ?_
  · rintro ⟨bytes', -, hread', hfits, -⟩
    cases hread.symm.trans hread'
    exact not_allFit_of_ran_gather hfail hfits
  obtain ⟨hfits, hlength⟩ := ran_gather_ok hgather
  refine BreaksIff.bind ?_ fun _ => sturdy_writing _
  refine (breaksIff_onTreeNow fun now => write_tooLong_iff.trans ?_).bind fun _ => sturdy_pure _
  rw [hlength]
  constructor
  · intro hout
    exact ⟨bytes, count_of_ran_areas hareas, hread, hfits, hout⟩
  · rintro ⟨bytes', -, hread', -, hout⟩
    cases hread.symm.trans hread'
    exact hout

/-- **A call of the larger interface breaks the host down exactly if it is to make a file too
long.** -/
theorem breaks_perform (c : LibcCall) (args : List Value) :
    BreaksIff (TooLong c args g) (perform c args) g := by
  have looked (fd : Int) : Sturdy (do let _ ← descriptor fd : Sys Unit) :=
    sturdy_bind (sturdy_descriptor fd) fun _ => sturdy_pure _
  cases c with
  | argsGet =>
    exact (sturdy_bind sturdy_process fun _ => sturdy_writeTexts _ _ _).breaksIff not_false
  | argsSizesGet =>
    exact (sturdy_bind sturdy_process fun _ => sturdy_writeSizes _ _ _).breaksIff not_false
  | environGet =>
    exact (sturdy_bind sturdy_process fun _ => sturdy_writeTexts _ _ _).breaksIff not_false
  | environSizesGet =>
    exact (sturdy_bind sturdy_process fun _ => sturdy_writeSizes _ _ _).breaksIff not_false
  | clockResGet => exact (sturdy_ite (sturdy_writing _) (sturdy_fail _)).breaksIff not_false
  | clockTimeGet =>
    refine (sturdy_ite (sturdy_bind (sturdy_ask .clock) fun _ => ?_) (sturdy_fail _)).breaksIff
      not_false
    exact sturdy_writing _
  | fdAdvise => exact (looked _).breaksIff not_false
  | fdDatasync => exact (looked _).breaksIff not_false
  | fdSync => exact (looked _).breaksIff not_false
  | fdFdstatSetFlags => exact (looked _).breaksIff not_false
  | fdClose => exact (sturdy_fdClose _).breaksIff not_false
  | fdFdstatGet => exact (sturdy_fdFdstatGet _ _).breaksIff not_false
  | fdFilestatGet => exact (sturdy_fdFilestatGet _ _).breaksIff not_false
  | fdFilestatSetSize => exact breaksIff_fdFilestatSetSize _ _
  | fdPrestatGet =>
    exact (sturdy_bind (sturdy_preopenName _) fun _ => sturdy_writing _).breaksIff not_false
  | fdPrestatDirName =>
    exact (sturdy_bind (sturdy_preopenName _) fun _ => sturdy_writing _).breaksIff not_false
  | fdRead => exact (sturdy_fdRead _ _ _ _).breaksIff not_false
  | fdReaddir => exact (sturdy_fdReaddir _ _ _ _ _).breaksIff not_false
  | fdSeek =>
    exact (sturdy_bind (sturdy_fdSeek _ _ _) fun _ => sturdy_writing _).breaksIff not_false
  | fdTell =>
    exact (sturdy_bind (sturdy_fdSeek _ _ _) fun _ => sturdy_writing _).breaksIff not_false
  | fdWrite => exact breaksIff_fdWrite _ _ _ _
  | pathCreateDirectory =>
    exact (sturdy_bind (sturdy_path _ _ _) fun p =>
      sturdy_onTreeNow fun _ => never_tooLong_makeDirectory p).breaksIff not_false
  | pathFilestatGet =>
    exact (sturdy_bind (sturdy_path _ _ _) fun p => sturdy_pathFilestatGet p _).breaksIff not_false
  | pathOpen =>
    exact (sturdy_bind (sturdy_path _ _ _) fun p => sturdy_pathOpen p _ _).breaksIff not_false
  | pathRemoveDirectory =>
    exact (sturdy_bind (sturdy_path _ _ _) fun p =>
      sturdy_onTree (never_tooLong_removeDirectory p)).breaksIff not_false
  | pathRename =>
    refine (sturdy_bind (sturdy_path _ _ _) fun source => ?_).breaksIff not_false
    refine sturdy_bind (sturdy_path _ _ _) fun target => ?_
    exact sturdy_onTree (never_tooLong_rename source target)
  | pathUnlinkFile =>
    exact (sturdy_bind (sturdy_path _ _ _) fun p => sturdy_pathUnlinkFile p).breaksIff not_false
  | procExit =>
    have hexit : Sturdy (System.stop (.exit (args.getD 0 (.i32 0)).narrow) : Sys Unit) :=
      sturdy_stop (by simp)
    exact hexit.breaksIff not_false
  | randomGet => exact (sturdy_randomGet _ _).breaksIff not_false
  | schedYield => exact (sturdy_pure _).breaksIff not_false
  | pollOneoff => exact (sturdy_fail _).breaksIff not_false
  | sockAccept => exact (sturdy_fail _).breaksIff not_false
  | sockRecv => exact (sturdy_fail _).breaksIff not_false
  | sockSend => exact (sturdy_fail _).breaksIff not_false
  | sockShutdown => exact (sturdy_fail _).breaksIff not_false

end Libc

end GuestShell
