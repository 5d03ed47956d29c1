import GuestShell.Run.Runnable
import GuestShell.Proofs.FileTree.Reload
import GuestShell.Proofs.Sandbox.PosixFiles

/-!
# Files carried from run to run

What a run leaves behind is the snapshot of a tree that requests have made of a fresh one, so it is
carried (`Carried`): the next run loads every file of it, and had that run nothing else to do with
files, it would leave the very same list behind.

`observed` is a run that also tells what its guest asked of the host (`forget_observed`).  With it
"this run changed no files" can be said without looking at the files.
-/

namespace GuestShell

open FileTree

namespace Runnable

/-- Executes a module and notes down what its guest asks. -/
def observe {δ : Type} (m : CompiledModule) (table : List Signature) (call : Caller δ)
    (choose : Chooser) (hidden : List String) (p : Process δ) :
    Running (Report × List Engine.Request) :=
  ((m.execute table).within (Task.recording (serve call choose)) (p, [])).bind fun r =>
    return (⟨r.2.1.tree.snapshot hidden, RunError.ofOutcome? r.1⟩, r.2.2)

/-- Runs a program once, and tells what its guest asked on the way. -/
def observed (r : Runnable) (i : Invocation) : Running (Report × List Engine.Request) :=
  .ask .clock fun (now : Moment) =>
    match r.abi with
    | .posix => observe r.module_ Posix.table Posix.call Posix.enter [] (Posix.Guest.start now i)
    | .libc =>
      observe r.module_ Libc.table Libc.call (fun exports _ m => (Libc.enter exports, m))
        Libc.reservedPaths (Libc.Guest.start now r.glue.fullEnvironment i)

lemma forget_observe {δ : Type} (m : CompiledModule) (table : List Signature) (call : Caller δ)
    (choose : Chooser) (hidden : List String) (p : Process δ) :
    ((observe m table call choose hidden p).bind fun o => .done o.1) =
      execute m table call choose hidden p := by
  rw [observe, execute, ← Task.forget_within_recording _ _ p [], Task.bind_assoc, Task.bind_assoc]
  rfl

/-- An observed run is the run. -/
theorem forget_observed (r : Runnable) (i : Invocation) :
    ((r.observed i).bind fun o => .done o.1) = r.run i := by
  rw [observed, run, Task.bind_ask]
  congr 1
  funext now
  cases r.abi <;> exact forget_observe _ _ _ _ _ _

end Runnable

namespace Posix

open GuestShell.System

variable {R : FileTree → Slots Nat → Prop}

/-- Whether a guest asks for a function that can change what is at a place. -/
def IsChange : Engine.Request → Prop
  | .call index _ _ => ∃ c ∈ changers, PosixCall.all[index]? = some c
  | _ => False

instance : DecidablePred IsChange
  | .call index _ _ =>
    inferInstanceAs (Decidable (∃ c ∈ changers, PosixCall.all[index]? = some c))
  | .epoch | .entry .. | .note _ => .isFalse id

/-- Serving a guest keeps what the functions it calls keep. -/
lemma always_serve {q : Engine.Request} {g : Guest}
    (h : ∀ index args m c, q = .call index args m → PosixCall.all[index]? = some c →
      Keeps R (perform c args)) (hg : R g.tree g.descriptors) :
    (Runnable.serve call enter q g).Always fun r => R r.2.tree r.2.descriptors := by
  cases q with
  | epoch => exact fun _ => hg
  | note o => exact fun _ => hg
  | entry exports m => exact hg
  | call index args m =>
    refine Task.always_bind.2 ?_
    exact always_call (g := { g with memory := m }) (fun c => h index args m c rfl) hg

end Posix

/-- Files as a run can find them: the snapshot of a tree that requests lead to. -/
def Carried (files : List SavedFile) : Prop := ∃ t, Posix.Reached t ∧ files = t.snapshot []

namespace Runnable

variable {r : Runnable} {i : Invocation}

/-- Whatever is run, files are left behind that can be carried on. -/
theorem always_carried (hr : r.abi = .posix) :
    (r.run i).Always fun report => Carried report.files := by
  intro now
  simp only [hr]
  refine Task.always_bind.2 ((Task.always_within (I := fun g => Posix.Reached g.tree) ?_ _ ?_).imp
    fun out hout => ⟨_, hout, rfl⟩)
  · intro q g hg
    exact Posix.always_serve (R := fun t _ => Posix.Reached t)
      (fun _ args _ c _ _ => Posix.keeps_reached c args) hg
  · exact ⟨now, [(now, .load i.files)], rfl⟩

/-- A run without changes leaves behind what was loaded. -/
theorem always_unchanged (hr : r.abi = .posix) :
    (r.observed i).Always fun o => (∀ q ∈ o.2, ¬Posix.IsChange q) →
      ∃ now, o.1.files = (load now i.files (fresh now)).snapshot [] := by
  intro now
  simp only [hr]
  -- what is kept: the tree is the one that was loaded, and no descriptor is open
  refine Task.always_bind.2 ((Task.always_within_recording (fun q => ¬Posix.IsChange q)
    (I := fun g => g.tree = load now i.files (fresh now) ∧ g.descriptors = Slots.empty)
    ?_ _ ?_).imp fun out hout hasked => ?_)
  · intro q g hq hg
    refine Posix.always_serve
      (R := fun t d => t = load now i.files (fresh now) ∧ d = Slots.empty) ?_ hg
    rintro index args m c rfl hc
    exact Posix.keeps_untouched args (fun hmem => hq ⟨c, hmem, hc⟩) _
  · exact ⟨rfl, rfl⟩
  · exact ⟨now, congrArg (FileTree.snapshot · []) (hout hasked).1⟩

/-- **Files carried from run to run survive exactly.**  What a run finds is in the order of its paths,
none twice; loading it skips no file, and what was loaded has the same snapshot.  So a run whose guest
changes nothing leaves behind what the run before it did. -/
theorem carried_files :
    (∀ files, Carried files →
      (files.Pairwise fun f g => f.path < g.path) ∧ (files.map SavedFile.path).Nodup ∧
      ∀ born now, (load now files (fresh born)).snapshot [] = files ∧
        ∀ before f rest, files = before ++ f :: rest →
          ∃ t, loadFile now f (load now before (fresh born)) = .ok () t) ∧
    ∀ (r : Runnable) (i : Invocation), r.abi = .posix →
      ((r.observed i).bind fun o => .done o.1) = r.run i ∧
      ((r.run i).Always fun report => Carried report.files) ∧
      (Carried i.files → (r.observed i).Always fun o =>
        (∀ q ∈ o.2, ¬Posix.IsChange q) → o.1.files = i.files) := by
  constructor
  · rintro files ⟨t, ⟨start, calls, rfl⟩, rfl⟩
    have h := (WellFormed.fresh start).run calls
    refine ⟨ascending_snapshot _ _, nodup_of_ascending (ascending_snapshot _ _), ?_⟩
    intro born now
    exact ⟨snapshot_load_snapshot h born now,
      fun before f rest => exists_loadFile_of_snapshot h born now⟩
  · refine fun r i hr => ⟨r.forget_observed i, always_carried hr, fun hfiles => ?_⟩
    obtain ⟨t, ⟨start, calls, rfl⟩, hfiles⟩ := hfiles
    refine (always_unchanged hr).imp fun o ho hasked => ?_
    obtain ⟨now, hnow⟩ := ho hasked
    rw [hnow, hfiles]
    exact snapshot_load_snapshot ((WellFormed.fresh start).run calls) now now

/-- Surroundings in which nothing happens. -/
def stillness : (q : Run.Request) → Id (Run.Answer q)
  | .stdout _ | .stderr _ | .note _ => ()
  | .readLine => none
  | .isInterrupted => false
  | .clock => (7 : Moment)
  | .epoch => (0 : Nat)

/-- A program that only writes four bytes of its memory to standard output. -/
def greeter : Runnable where
  module_ := ⟨{ Program.nothing with
    library := Abi.posixLibrary
    entry := some "_start"
    pages := some 1
    code := [.call "write" [.literal 1, .literal 0, .literal 4] none] }⟩
  abi := .posix
  glue := .empty

theorem carried_files_greeter :
    let f : SavedFile := ⟨"/notes/a.txt", 5, [104, 105]⟩
    let i : Invocation := ⟨"greet", [], [f], none⟩
    let o := (greeter.observed i).interpret stillness
    Carried [f] ∧ greeter.abi = .posix ∧ (∀ q ∈ o.2, ¬Posix.IsChange q) ∧
      (∃ t, loadFile 3 f (fresh 2) = .ok () t) ∧ o.1.files = [f] := by
  intro f i o
  have hf : Carried [f] := ⟨_, ⟨0, [(0, .load [f])], rfl⟩, by decide +kernel⟩
  have hasked : ∀ q ∈ o.2, ¬Posix.IsChange q := by decide +kernel
  obtain ⟨hreload, hrun⟩ := carried_files
  refine ⟨hf, rfl, hasked, ((hreload [f] hf).2.2 2 3).2 [] f [] rfl, ?_⟩
  exact ((hrun greeter i rfl).2.2 hf).interpret stillness hasked

end Runnable

end GuestShell
