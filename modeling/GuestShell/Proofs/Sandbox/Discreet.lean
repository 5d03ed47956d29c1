import GuestShell.Proofs.Run.Hearing
import GuestShell.Proofs.Sandbox.Keeps
import GuestShell.Sandbox.Libc
import GuestShell.Sandbox.Posix

/-!
# What host functions want to know

Host functions are discreet about the surroundings (`Discreet`).  They never look at the epoch; where
the input was known beforehand they ask nobody for lines; and of a line they take notice of the bytes
only, which are the same whether its line feed was typed or not.

One walk through each interface shows it of all functions (`Posix.discreet_perform`,
`Libc.discreet_perform`).  Reading input is the one step that has to be looked at.
-/

namespace GuestShell

/-- What a host function may ask; nobody for lines where the input was known beforehand. -/
def Run.HostMayAsk (preset : Bool) : Run.Request → Prop
  | .epoch => False
  | .readLine | .isInterrupted => preset = false
  | .stdout _ | .stderr _ | .clock | .note _ => True

namespace System

variable {ε δ α β : Type}

/-- The function asks only what it may, leaves the kind of input as it was, and of a line it takes
notice of the bytes only. -/
def Discreet (a : System ε δ α) : Prop :=
  ∀ p, (a p).Only (Run.HostMayAsk p.stdin.preset) (fun r => r.2.stdin.preset = p.stdin.preset) ∧
    (a p).Ignores Run.heard

/-! ## Sequences -/

lemma discreet_pure (v : α) : Discreet (pure v : System ε δ α) := fun _ => ⟨rfl, trivial⟩

lemma discreet_throw (e : Failure ε) : Discreet (throw e : System ε δ α) := fun _ => ⟨rfl, trivial⟩

lemma discreet_fail (e : ε) : Discreet (fail e : System ε δ α) := discreet_throw _

lemma discreet_bind {a : System ε δ α} {f : α → System ε δ β} (ha : Discreet a)
    (hf : ∀ v, Discreet (f v)) : Discreet (a >>= f) := by
  intro p
  rw [bind_apply]
  refine ⟨(ha p).1.bind fun r hr => ?_, (ha p).2.bind fun r => ?_⟩
  · obtain ⟨e | v, q⟩ := r
    · exact hr
    · exact hr ▸ (hf v q).1
  · obtain ⟨e | v, q⟩ := r
    · trivial
    · exact (hf v q).2

lemma discreet_map {a : System ε δ α} (f : α → β) (ha : Discreet a) : Discreet (f <$> a) := by
  rw [map_eq_pure_bind]
  exact discreet_bind ha fun v => discreet_pure (f v)

lemma discreet_ite {c : Prop} [Decidable c] {a b : System ε δ α} (ha : Discreet a)
    (hb : Discreet b) : Discreet (if c then a else b) := by
  split_ifs
  · exact ha
  · exact hb

/-! ## Steps -/

lemma discreet_process : Discreet (process : System ε δ (Process δ)) := fun _ => ⟨rfl, trivial⟩

lemma discreet_update {f : Process δ → Process δ} (hf : ∀ p, (f p).stdin = p.stdin) :
    Discreet (update f : System ε δ Unit) :=
  fun p => ⟨congrArg Stdin.preset (hf p), trivial⟩

lemma discreet_ask {q : Run.Request} (hmay : ∀ preset, Run.HostMayAsk preset q)
    (hheard : ∀ a, Run.heard q a = a) : Discreet (ask q : System ε δ (Run.Answer q)) :=
  fun p => ⟨⟨hmay p.stdin.preset, fun _ => rfl⟩, fun a => ⟨by rw [hheard], trivial⟩⟩

lemma discreet_clock : Discreet (ask .clock : System ε δ Moment) :=
  discreet_ask (fun _ => trivial) fun _ => rfl

lemma discreet_stdout (chunk : Bytes) : Discreet (ask (.stdout chunk) : System ε δ Unit) :=
  discreet_ask (fun _ => trivial) fun _ => rfl

lemma discreet_stderr (chunk : Bytes) : Discreet (ask (.stderr chunk) : System ε δ Unit) :=
  discreet_ask (fun _ => trivial) fun _ => rfl

lemma discreet_reading [ErrorCode ε] (a : Memory → Except EngineError α) :
    Discreet (reading a : System ε δ α) := by
  intro p
  rw [reading]
  split <;> exact ⟨rfl, trivial⟩

lemma discreet_writing [ErrorCode ε] (a : Memory → Except EngineError Memory) :
    Discreet (writing a : System ε δ Unit) := by
  intro p
  rw [writing]
  split <;> exact ⟨rfl, trivial⟩

lemma discreet_write [ErrorCode ε] (address : Nat) (bytes : Bytes) :
    Discreet (write address bytes : System ε δ Unit) :=
  discreet_writing _

lemma discreet_onTree [ErrorCode ε] (a : FileTree.Action α) : Discreet (onTree a : System ε δ α) := by
  intro p
  rw [onTree]
  split <;> exact ⟨rfl, trivial⟩

lemma discreet_onTreeNow [ErrorCode ε] (a : Moment → FileTree.Action α) :
    Discreet (onTreeNow a : System ε δ α) :=
  discreet_bind discreet_clock fun now => discreet_onTree (a now)

lemma discreet_addDescriptor (d : δ) : Discreet (addDescriptor d : System ε δ Nat) :=
  fun _ => ⟨rfl, trivial⟩

lemma discreet_dropDescriptor (k : Nat) : Discreet (dropDescriptor k : System ε δ Unit) :=
  discreet_update fun _ => rfl

/-- Nobody is asked for a line that was known beforehand, and any other line counts by its bytes. -/
lemma discreet_read (s : Stdin) (max : Nat) :
    (s.read max).Only (Run.HostMayAsk s.preset) (fun r => r.2.preset = s.preset) ∧
      (s.read max).Ignores Run.heard := by
  rw [Stdin.read]
  split_ifs with _ _ _ hpreset
  · exact ⟨rfl, trivial⟩
  · exact ⟨rfl, trivial⟩
  · exact ⟨rfl, trivial⟩
  · exact ⟨rfl, trivial⟩
  · have hasked : s.preset = false := eq_false_of_ne_true hpreset
    constructor
    · refine ⟨hasked, fun (line : Option String) => ⟨hasked, fun (stopped : Bool) => ?_⟩⟩
      cases stopped with
      | true => rfl
      | false => cases line <;> rfl
    · refine fun (line : Option String) => ⟨?_, fun (stopped : Bool) => ⟨rfl, ?_⟩⟩
      · cases line with
        | none => rfl
        | some line => simp only [Run.heard, Option.map_some, Run.terminated_ended]
      · cases stopped with
        | true => trivial
        | false => cases line <;> trivial

lemma discreet_readInput (max : Nat) : Discreet (readInput max : System ε δ Bytes) := by
  intro p
  obtain ⟨honly, hignores⟩ := discreet_read p.stdin max
  refine ⟨honly.bind fun r hr => ?_, hignores.bind fun r => ?_⟩
  · obtain ⟨e | chunk, s⟩ := r <;> exact hr
  · obtain ⟨e | chunk, s⟩ := r <;> trivial

end System

open GuestShell.System

/-! ## The smaller interface -/

namespace Posix

lemma discreet_handle (fd : Int) : Discreet (handle fd) := by
  refine discreet_ite (discreet_bind (discreet_fail _) fun _ => ?_) ?_
  all_goals
    refine discreet_bind discreet_process fun g => ?_
    split
    · exact discreet_pure _
    · exact discreet_fail _

lemma discreet_path (address size : Nat) : Discreet (path address size) :=
  discreet_bind (discreet_reading _) fun _ => discreet_pure _

lemma discreet_read (fd : Int) (address size : Nat) : Discreet (read fd address size) := by
  refine discreet_bind (discreet_reading _) fun _ => ?_
  have rest (data : Bytes) : Discreet (do
      System.write address data
      return (data.length : Int) : Sys Int) :=
    discreet_bind (System.discreet_write _ _) fun _ => discreet_pure _
  refine discreet_ite (discreet_bind (discreet_readInput _) rest) ?_
  refine discreet_ite (discreet_bind (discreet_fail _) rest) ?_
  exact discreet_bind (discreet_handle fd) fun h => discreet_bind (discreet_onTree _) rest

lemma discreet_write (fd : Int) (address size : Nat) : Discreet (write fd address size) := by
  refine discreet_bind (discreet_reading _) fun data => ?_
  refine discreet_ite (discreet_bind (discreet_stdout _) fun _ => discreet_pure _) ?_
  refine discreet_ite (discreet_bind (discreet_stderr _) fun _ => discreet_pure _) ?_
  refine discreet_ite (discreet_bind (discreet_fail _) fun _ => discreet_pure _) ?_
  refine discreet_bind (discreet_handle fd) fun h => ?_
  exact discreet_bind (discreet_onTreeNow _) fun _ => discreet_pure _

lemma discreet_close (fd : Int) : Discreet (close fd) := by
  refine discreet_ite (discreet_pure _) (discreet_bind (discreet_handle fd) fun h => ?_)
  refine discreet_bind (discreet_dropDescriptor _) fun _ => ?_
  exact discreet_bind (discreet_onTree _) fun _ => discreet_pure _

lemma discreet_seek (fd offset whence : Int) : Discreet (seek fd offset whence) := by
  refine discreet_bind (discreet_handle fd) fun h => discreet_bind ?_ fun o => ?_
  · refine discreet_ite (discreet_pure _) (discreet_ite (discreet_pure _) ?_)
    exact discreet_ite (discreet_pure _) (discreet_fail _)
  · exact discreet_bind (discreet_onTree _) fun _ => discreet_pure _

lemma discreet_copyOut (address room : Nat) (bytes : Bytes) : Discreet (copyOut address room bytes) :=
  discreet_bind (System.discreet_write _ _) fun _ => discreet_pure _

lemma discreet_getenv (name : String) (address room : Nat) : Discreet (getenv name address room) := by
  refine discreet_bind discreet_process fun g => ?_
  split
  · exact discreet_copyOut _ _ _
  · exact discreet_pure _

lemma discreet_change (a : Moment → FileTree.Action Unit) : Discreet (change a) :=
  discreet_bind (discreet_onTreeNow _) fun _ => discreet_pure _

/-- **Every function of the smaller interface is discreet.** -/
theorem discreet_perform (c : PosixCall) (args : List Value) : Discreet (perform c args) := by
  cases c with
  | read => exact discreet_read _ _ _
  | write => exact discreet_write _ _ _
  | open_ =>
    refine discreet_bind (discreet_path _ _) fun p => discreet_bind (discreet_onTreeNow _) fun h => ?_
    exact discreet_bind (discreet_addDescriptor _) fun _ => discreet_pure _
  | close => exact discreet_close _
  | seek => exact discreet_seek _ _ _
  | exit => exact discreet_throw _
  | getenv => exact discreet_bind (discreet_reading _) fun name => discreet_getenv _ _ _
  | getcwd =>
    exact discreet_ite (discreet_bind (discreet_fail _) fun _ => discreet_copyOut _ _ _)
      (discreet_copyOut _ _ _)
  | stat | readdir =>
    refine discreet_bind (discreet_path _ _) fun p => discreet_bind (discreet_onTree _) fun _ => ?_
    exact discreet_bind (System.discreet_write _ _) fun _ => discreet_pure _
  | mkdir | rmdir | unlink => exact discreet_bind (discreet_path _ _) fun p => discreet_change _
  | rename =>
    refine discreet_bind (discreet_path _ _) fun source => ?_
    exact discreet_bind (discreet_path _ _) fun target => discreet_change _

end Posix

/-! ## The larger interface -/

namespace Libc

lemma discreet_descriptor (fd : Int) : Discreet (descriptor fd) := by
  refine discreet_ite (discreet_bind (discreet_fail _) fun _ => ?_) ?_
  all_goals
    refine discreet_bind discreet_process fun g => ?_
    split
    · exact discreet_pure _
    · exact discreet_fail _

lemma discreet_directory (fd : Int) : Discreet (directory fd) := by
  refine discreet_bind (discreet_descriptor fd) fun d => ?_
  split
  · exact discreet_pure _
  · exact discreet_fail _

lemma discreet_path (fd : Int) (address size : Nat) : Discreet (path fd address size) :=
  discreet_bind (discreet_directory fd) fun _ => discreet_bind (discreet_reading _) fun _ =>
    discreet_pure _

lemma discreet_deviceAt (p : Path) : Discreet (deviceAt? p) :=
  discreet_bind discreet_process fun _ => discreet_pure _

lemma discreet_writeTexts (texts : List String) (pointers target : Nat) :
    Discreet (writeTexts pointers target texts) := by
  induction texts generalizing pointers target with
  | nil => exact discreet_pure _
  | cons s rest ih =>
    refine discreet_bind (discreet_writing _) fun _ => ?_
    refine discreet_bind (System.discreet_write _ _) fun _ => ?_
    exact discreet_bind (System.discreet_write _ _) fun _ => ih _ _

lemma discreet_writeSizes (countAt sizeAt : Nat) (texts : List String) :
    Discreet (writeSizes countAt sizeAt texts) :=
  discreet_bind (discreet_writing _) fun _ => discreet_writing _

lemma discreet_areas (address count : Nat) : Discreet (areas address count) := by
  have hread : Discreet (do return areasOf (← System.reading (·.read address (count * 8))) :
      Sys (List Area)) := discreet_bind (discreet_reading _) fun _ => discreet_pure _
  exact discreet_ite (discreet_bind (discreet_fail _) fun _ => hread) hread

lemma discreet_readFrom (d : Descriptor) (size : Nat) : Discreet (readFrom d size) := by
  cases d with
  | device d =>
    cases d with
    | stdin | tty => exact discreet_readInput _
    | stdout | stderr => exact discreet_fail _
  | directory p name => exact discreet_fail _
  | file h append => exact discreet_onTree _

lemma discreet_readAreas (d : Descriptor) (areas : List Area) (total : Nat) :
    Discreet (readAreas d total areas) := by
  induction areas generalizing total with
  | nil => exact discreet_pure _
  | cons a rest ih =>
    refine discreet_ite (ih total) (discreet_bind (discreet_reading _) fun _ => ?_)
    refine discreet_bind (discreet_readFrom d a.size) fun data => ?_
    exact discreet_bind (System.discreet_write _ _) fun _ => discreet_ite (discreet_pure _) (ih _)

lemma discreet_gather (areas : List Area) : Discreet (gather areas) := by
  induction areas with
  | nil => exact discreet_pure _
  | cons a rest ih =>
    exact discreet_bind (discreet_reading _) fun _ => discreet_bind ih fun _ => discreet_pure _

lemma discreet_writeTo (d : Descriptor) (data : Bytes) : Discreet (writeTo d data) := by
  cases d with
  | device d =>
    cases d with
    | stdout | tty => exact discreet_stdout _
    | stderr => exact discreet_stderr _
    | stdin => exact discreet_fail _
  | directory p name => exact discreet_fail _
  | file h append => exact discreet_bind (discreet_onTreeNow _) fun _ => discreet_pure _

lemma discreet_fdSeek (fd offset : Int) (whence : Nat) : Discreet (fdSeek fd offset whence) := by
  refine discreet_bind (discreet_descriptor fd) fun d => ?_
  cases d with
  | device d => exact discreet_fail _
  | directory p name => exact discreet_fail _
  | file h append =>
    refine discreet_bind ?_ fun o => discreet_onTree _
    refine discreet_ite (discreet_pure _) (discreet_ite (discreet_pure _) ?_)
    exact discreet_ite (discreet_pure _) (discreet_fail _)

lemma discreet_fdClose (fd : Int) : Discreet (fdClose fd) := by
  refine discreet_bind (discreet_descriptor fd) fun d => ?_
  refine discreet_bind (discreet_dropDescriptor _) fun _ => ?_
  cases d with
  | device d => exact discreet_pure _
  | directory p name => exact discreet_pure _
  | file h append => exact discreet_onTree _

lemma discreet_fdFilestatGet (fd : Int) (address : Nat) : Discreet (fdFilestatGet fd address) := by
  refine discreet_bind (discreet_descriptor fd) fun d => ?_
  cases d with
  | device d => exact discreet_bind (discreet_pure _) fun _ => System.discreet_write _ _
  | directory p name =>
    exact discreet_bind (discreet_map _ (discreet_onTree _)) fun _ => System.discreet_write _ _
  | file h append =>
    exact discreet_bind (discreet_map _ (discreet_onTree _)) fun _ => System.discreet_write _ _

lemma discreet_preopenName (fd : Int) : Discreet (preopenName fd) := by
  refine discreet_bind (discreet_descriptor fd) fun d => ?_
  split
  · exact discreet_pure _
  · exact discreet_fail _

lemma discreet_pathFilestatGet (p : Path) (address : Nat) :
    Discreet (pathFilestatGet p address) := by
  refine discreet_bind (discreet_deviceAt p) fun d => ?_
  cases d with
  | some d => exact discreet_bind (discreet_pure _) fun _ => System.discreet_write _ _
  | none =>
    refine discreet_bind (discreet_onTree _) fun _ => ?_
    exact discreet_bind (discreet_pure _) fun _ => System.discreet_write _ _

lemma discreet_openPlace (p : Path) (f : OpenFlags) : Discreet (openPlace p f) := by
  refine discreet_bind (discreet_deviceAt _) fun d => ?_
  cases d with
  | some d => exact discreet_pure _
  | none =>
    have hlook : Discreet (isDirectory p) := by
      refine discreet_bind discreet_process fun g => ?_
      split <;> exact discreet_pure _
    refine discreet_bind hlook fun _ => discreet_ite ?_ (discreet_ite ?_ ?_)
    · refine discreet_ite (discreet_fail _) ?_
      exact discreet_ite (discreet_fail _) (discreet_pure _)
    · refine discreet_bind discreet_process fun _ => ?_
      exact discreet_ite (discreet_fail _) (discreet_fail _)
    · exact discreet_bind (discreet_onTreeNow _) fun h => discreet_pure _

lemma discreet_randomGet (address size : Nat) : Discreet (randomGet address size) := by
  refine discreet_bind (discreet_reading _) fun _ => discreet_bind discreet_process fun g => ?_
  exact discreet_bind (discreet_update fun _ => rfl) fun _ => System.discreet_write _ _

/-- **Every function of the larger interface is discreet.** -/
theorem discreet_perform (c : LibcCall) (args : List Value) : Discreet (perform c args) := by
  cases c with
  | argsGet | environGet => exact discreet_bind discreet_process fun _ => discreet_writeTexts _ _ _
  | argsSizesGet | environSizesGet =>
    exact discreet_bind discreet_process fun _ => discreet_writeSizes _ _ _
  | clockResGet => exact discreet_ite (discreet_writing _) (discreet_fail _)
  | clockTimeGet =>
    exact discreet_ite (discreet_bind discreet_clock fun _ => discreet_writing _) (discreet_fail _)
  | fdAdvise | fdDatasync | fdSync | fdFdstatSetFlags =>
    exact discreet_bind (discreet_descriptor _) fun _ => discreet_pure _
  | fdClose => exact discreet_fdClose _
  | fdFdstatGet => exact discreet_bind (discreet_descriptor _) fun _ => System.discreet_write _ _
  | fdFilestatGet => exact discreet_fdFilestatGet _ _
  | fdFilestatSetSize =>
    refine discreet_bind (discreet_descriptor _) fun d => ?_
    cases d with
    | file h append => exact discreet_onTreeNow _
    | device d => exact discreet_fail _
    | directory p name => exact discreet_fail _
  | fdPrestatGet | fdPrestatDirName =>
    exact discreet_bind (discreet_preopenName _) fun _ => System.discreet_write _ _
  | fdRead =>
    refine discreet_bind (discreet_descriptor _) fun d =>
      discreet_bind (discreet_areas _ _) fun _ => ?_
    exact discreet_bind (discreet_readAreas d _ _) fun _ => discreet_writing _
  | fdReaddir =>
    refine discreet_bind (discreet_directory _) fun p => discreet_bind ?_ fun entries => ?_
    · exact discreet_bind (discreet_onTree _) fun _ => discreet_bind discreet_process fun _ =>
        discreet_pure _
    · exact discreet_bind (System.discreet_write _ _) fun _ => discreet_writing _
  | fdSeek | fdTell => exact discreet_bind (discreet_fdSeek _ _ _) fun _ => discreet_writing _
  | fdWrite =>
    refine discreet_bind (discreet_descriptor _) fun d =>
      discreet_bind (discreet_areas _ _) fun _ => ?_
    refine discreet_bind (discreet_gather _) fun data => ?_
    exact discreet_bind (discreet_writeTo d data) fun _ => discreet_writing _
  | pathCreateDirectory =>
    exact discreet_bind (discreet_path _ _ _) fun p => discreet_onTreeNow _
  | pathFilestatGet =>
    exact discreet_bind (discreet_path _ _ _) fun p => discreet_pathFilestatGet p _
  | pathOpen =>
    refine discreet_bind (discreet_path _ _ _) fun p => ?_
    refine discreet_bind (discreet_openPlace p _) fun d => ?_
    exact discreet_bind (discreet_addDescriptor d) fun _ => discreet_writing _
  | pathRemoveDirectory => exact discreet_bind (discreet_path _ _ _) fun p => discreet_onTree _
  | pathRename =>
    refine discreet_bind (discreet_path _ _ _) fun source => ?_
    exact discreet_bind (discreet_path _ _ _) fun target => discreet_onTree _
  | pathUnlinkFile =>
    refine discreet_bind (discreet_path _ _ _) fun p =>
      discreet_bind (discreet_deviceAt p) fun d => ?_
    cases d with
    | some d => exact discreet_fail _
    | none => exact discreet_onTree _
  | procExit => exact discreet_throw _
  | randomGet => exact discreet_randomGet _ _
  | schedYield => exact discreet_pure _
  | pollOneoff | sockAccept | sockRecv | sockSend | sockShutdown => exact discreet_fail _

end Libc

end GuestShell
