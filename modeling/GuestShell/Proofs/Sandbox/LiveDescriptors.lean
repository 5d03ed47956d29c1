import GuestShell.Proofs.Run.CarriedFiles
import GuestShell.Proofs.Run.Course
import GuestShell.Proofs.Sandbox.LibcFiles
import GuestShell.Proofs.Sandbox.Matched
import GuestShell.Proofs.Sandbox.PosixFiles
import GuestShell.Proofs.Sandbox.Runs

/-!
# Descriptors stay in step with handles

All along the course of a run, whatever its interface, descriptors and open handles match
(`Posix.matched_of_course`, `Libc.matched_of_course`).  Most functions leave both alone.  The few that
open or close something are taken apart step by step, because in the middle of each the two are out of
step: a handle is open before there is a descriptor for it, and a descriptor is gone before its handle
is closed.
-/

namespace GuestShell

open GuestShell.System FileTree

/-! ## Opening and closing -/

section Files

variable {ε δ α : Type} [ErrorCode ε] {p q : Process δ} {log : Log}

/-- Opening a file fails and changes nothing, or goes on with a new handle. -/
lemma ran_openPath_bind {path : Path} {mode : OpenMode} {f : Nat → System ε δ α}
    {r : Except (Failure ε) α}
    (h : Ran (onTreeNow (fun now => openPath now path mode) >>= f) p log r q) :
    (∃ e, r = .error e ∧ q = p) ∨ ∃ t file after,
      t.opened = p.tree.opened.insert file ∧
        Ran (f p.tree.opened.next) { p with tree := t } after r q := by
  rcases ran_bind_iff.1 h with ⟨e, rfl, hopen⟩ | ⟨_, _, _, after, -, hopen, hrest⟩
  · obtain ⟨now, -, htree⟩ := ran_onTreeNow_iff.1 hopen
    rcases (ran_onTree_iff.1 htree).2 with ⟨_, _, -, hr, -⟩ | ⟨_, _, herror, -, rfl⟩
    · cases hr
    · obtain rfl := atomic_openPath _ _ _ _ _ herror
      exact .inl ⟨e, rfl, rfl⟩
  · obtain ⟨now, -, htree⟩ := ran_onTreeNow_iff.1 hopen
    rcases (ran_onTree_iff.1 htree).2 with ⟨_, t, hok, hr, rfl⟩ | ⟨_, _, -, hr, -⟩
    · cases hr
      obtain ⟨rfl, file, hfile⟩ := openPath_ok hok
      exact .inr ⟨t, file, after, hfile, hrest⟩
    · cases hr

/-- An open handle can be closed. -/
lemma ran_closeHandle {handle : Nat} {r : Except (Failure ε) Unit}
    (h : Ran (onTree (FileTree.close handle) : System ε δ Unit) p log r q)
    (hopen : (p.tree.opened.get? handle).isSome) :
    r = .ok () ∧ ∃ t, q = { p with tree := t } ∧ t.opened = p.tree.opened.remove handle := by
  obtain ⟨f, hf⟩ := Option.isSome_iff_exists.1 hopen
  rcases (ran_onTree_iff.1 h).2 with ⟨_, t, hok, rfl, rfl⟩ | ⟨_, _, herror, -, -⟩
  · rw [close_ok hf] at hok
    cases hok
    exact ⟨rfl, _, rfl, rfl⟩
  · rw [close_ok hf] at herror
    cases herror

end Files

/-! ## The smaller interface -/

namespace Posix

variable {g q : Guest} {log : Log}

/-- What a guest of this interface can come to be in a run. -/
abbrev Course (now : Moment) (i : Invocation) : Guest → Prop :=
  Runnable.Course call enter (Guest.start now i)

/-- What a function does to the descriptors. -/
def Turns (c : PosixCall) (args : List Value) (r : Except (Failure PosixError) Int)
    (g q : Guest) : Prop :=
  match c, r with
  | .open_, .ok n => ∃ k : Nat, n = k + firstFile ∧ Opened some k g q
  | .close, .ok _ =>
    let fd := (argument args 0).narrow.toInt
    0 ≤ fd ∧ fd < firstFile ∧ q.descriptors = g.descriptors ∨
      ∃ k : Nat, fd = k + firstFile ∧ Closed some k g q
  | _, _ => q.descriptors = g.descriptors

lemma turnsHandles_of_asks {c : PosixCall} {op : Operation} (hopen : c ≠ .open_)
    (hclose : c ≠ .close) (h : Asks c op) : op.turnsHandles = false := by
  cases op <;> first | rfl | cases c <;> simp_all [Asks]

lemma looks_path (address size : Nat) : Looks (path address size) :=
  looks_bind (looks_reading _) fun _ => looks_pure _

/-- Either there is no such descriptor, or what follows works on its handle. -/
lemma ran_handle_bind {fd : Int} {f : Nat → Sys Int} {r : Except (Failure PosixError) Int}
    (h : Ran (handle fd >>= f) g log r q) :
    (∃ e, r = .error e ∧ log = [] ∧ q = g) ∨
      ∃ k i : Nat, fd = k + firstFile ∧ g.descriptors.get? k = some i ∧ Ran (f i) g log r q := by
  rw [Ran, bind_apply] at h
  rcases handle_cases fd g with ⟨e, hrun⟩ | ⟨i, hfd, hget, hrun⟩
  · rw [hrun] at h
    obtain ⟨hlog, hr, hq⟩ := Task.runs_done_pair_iff.1 h
    exact .inl ⟨e, hr, hlog, hq⟩
  · rw [hrun] at h
    exact .inr ⟨(fd - firstFile).toNat, i, by omega, hget, h⟩

variable (hm : Matched some g.tree g.descriptors)

include hm

lemma turns_open {p : Path} {flags : Nat} {r : Except (Failure PosixError) Int}
    (h : Ran (open_ p flags) g log r q) (args : List Value) :
    Matched some q.tree q.descriptors ∧ Turns .open_ args r g q := by
  rcases ran_openPath_bind h with ⟨e, rfl, rfl⟩ | ⟨t, file, after, hfile, hrest⟩
  · exact ⟨hm, rfl⟩
  · rw [ran_addDescriptor_bind_iff] at hrest
    obtain ⟨-, rfl, rfl⟩ := ran_pure_iff.1 hrest
    exact ⟨hm.insert hfile rfl, _, rfl, hm.opened_next rfl (.inr ⟨file, hfile⟩)⟩

/-- Closing frees a descriptor together with its handle.  The descriptor goes first, but its handle is
open, so closing that cannot fail. -/
lemma ran_close {fd : Int} {r : Except (Failure PosixError) Int} (h : Ran (close fd) g log r q) :
    (∃ e, r = .error e ∧ log = [] ∧ q = g) ∨ (0 ≤ fd ∧ fd < firstFile ∧ r = .ok 0 ∧ q = g) ∨
      ∃ k i : Nat, fd = k + firstFile ∧ handleAt some g.descriptors k = some i ∧ r = .ok 0 ∧
        q.descriptors = g.descriptors.remove k ∧ q.tree.opened = g.tree.opened.remove i := by
  rw [close] at h
  split_ifs at h with hstd
  · obtain ⟨-, hr, hq⟩ := ran_pure_iff.1 h
    exact .inr (.inl ⟨hstd.1, hstd.2, hr, hq⟩)
  rcases ran_handle_bind h with ⟨e, hr, hlog, hq⟩ | ⟨k, i, hfd, hk, hrest⟩
  · exact .inl ⟨e, hr, hlog, hq⟩
  have hat : handleAt some g.descriptors k = some i := by rw [handleAt, hk]; rfl
  have hkey : (fd - firstFile).toNat = k := by omega
  rw [ran_dropDescriptor_bind_iff, hkey] at hrest
  rcases ran_bind_iff.1 hrest with ⟨e, rfl, hclose⟩ | ⟨_, u, _, _, -, hclose, hend⟩
  · obtain ⟨hr, -⟩ := ran_closeHandle hclose (hm.live k i hat)
    cases hr
  · obtain ⟨-, t, rfl, ht⟩ := ran_closeHandle hclose (hm.live k i hat)
    obtain ⟨-, hr, rfl⟩ := ran_pure_iff.1 hend
    exact .inr (.inr ⟨k, i, hfd, hat, hr, rfl, ht⟩)

lemma turns_close {args : List Value} {r : Except (Failure PosixError) Int}
    (h : Ran (close (argument args 0).narrow.toInt) g log r q) :
    Matched some q.tree q.descriptors ∧ Turns .close args r g q := by
  rcases ran_close hm h with ⟨e, rfl, -, rfl⟩ | ⟨hfd, hstd, rfl, rfl⟩ |
    ⟨k, i, hfd, hat, rfl, hdescriptors, htree⟩
  · exact ⟨hm, rfl⟩
  · exact ⟨hm, .inl ⟨hfd, hstd, rfl⟩⟩
  · obtain ⟨hq, hclosed⟩ := hm.closed_file hat hdescriptors htree
    exact ⟨hq, .inr ⟨k, hfd, hclosed⟩⟩

/-- **No function of the smaller interface puts descriptors and handles out of step.** -/
theorem turns_perform {c : PosixCall} {args : List Value} {r : Except (Failure PosixError) Int}
    (h : Ran (perform c args) g log r q) :
    Matched some q.tree q.descriptors ∧ Turns c args r g q := by
  by_cases hopen : c = .open_
  · subst hopen
    rcases (looks_path _ _).ran_bind h with ⟨e, rfl, -, rfl⟩ | ⟨p, -, hrest⟩
    · exact ⟨hm, rfl⟩
    · exact turns_open hm hrest args
  by_cases hclose : c = .close
  · subst hclose
    exact turns_close hm h
  have hkeeps : Keeps (fun t d => Matched some t d ∧ d = g.descriptors) (perform c args) := by
    refine keeps_perform args (fun _ op hop now t d ht => ?_) (absurd · hopen) (absurd · hclose)
    have hturns := turnsHandles_of_asks hopen hclose hop
    exact ⟨ht.1.of_sameHandles (sameHandles_apply now op hturns t), ht.2⟩
  obtain ⟨hq, hsame⟩ := hkeeps.ran ⟨hm, rfl⟩ h
  refine ⟨hq, ?_⟩
  rw [Turns]
  · exact hsame
  · exact fun _ h _ => hopen h
  · exact fun _ h _ => hclose h

omit hm in
theorem matched_of_course {now : Moment} {i : Invocation} (h : Course now i g) :
    Matched some g.tree g.descriptors := by
  refine h.keeps (fun index args p hp => ?_) ?_
  · refine always_call (R := Matched some) (fun c _ p hp => ?_) hp
    exact Task.always_iff_runs.2 fun log r hrun => (turns_perform hp hrun).1
  · exact .empty (opened_load i.files)

end Posix

/-! ## The larger interface -/

namespace Libc

variable {g q : Guest} {log : Log}

/-- What a guest of this interface can come to be in a run. -/
abbrev Course (now : Moment) (environment : List (String × String)) (i : Invocation) :
    Guest → Prop :=
  Runnable.Course call (fun exports _ m => (enter exports, m)) (Guest.start now environment i)

/-- The handle that a descriptor holds; devices and directories have none. -/
def handle? : Descriptor → Option Nat
  | .file h _ => some h
  | _ => none

/-- What a function does to the descriptors.  Opening can fail after the descriptor was made: when
there is no memory to put its number into. -/
def Turns (c : LibcCall) (args : List Value) (r : Except (Failure LibcError) Unit)
    (g q : Guest) : Prop :=
  match c, r with
  | .pathOpen, .ok () => ∃ k, Opened handle? k g q ∧
      g.memory.writeWord32 (args.getD 8 (.i32 0)).address k = .ok q.memory
  | .pathOpen, .error _ => q.descriptors = g.descriptors ∨ ∃ k, Opened handle? k g q
  | .fdClose, .ok () => ∃ k : Nat, (args.getD 0 (.i32 0)).narrow.toInt = k ∧ Closed handle? k g q
  | _, _ => q.descriptors = g.descriptors

lemma turnsHandles_of_asks {c : LibcCall} {op : Operation} (hopen : c ≠ .pathOpen)
    (hclose : c ≠ .fdClose) (h : Asks c op) : op.turnsHandles = false := by
  cases op <;> first | rfl | cases c <;> simp_all [Asks]

/-- Either there is no such descriptor, or what follows works on it. -/
lemma ran_descriptor_bind {α : Type} {fd : Int} {f : Descriptor → Sys α}
    {r : Except (Failure LibcError) α} (h : Ran (descriptor fd >>= f) g log r q) :
    (∃ e, r = .error e ∧ q = g) ∨
      ∃ (k : Nat) (d : Descriptor), fd = k ∧ g.descriptors.get? k = some d ∧
        Ran (f d) g log r q := by
  rw [Ran, bind_apply] at h
  rcases descriptor_cases fd g with ⟨e, hrun⟩ | ⟨d, hfd, hget, hrun⟩
  · rw [hrun] at h
    obtain ⟨-, hr, hq⟩ := Task.runs_done_pair_iff.1 h
    exact .inl ⟨e, hr, hq⟩
  · rw [hrun] at h
    exact .inr ⟨fd.toNat, d, by omega, hget, h⟩

lemma looks_descriptor (fd : Int) : Looks (descriptor fd) :=
  looks_of_done fun g => (descriptor_cases fd g).elim (fun ⟨_, h⟩ => ⟨_, h⟩)
    fun ⟨_, _, _, h⟩ => ⟨_, h⟩

lemma looks_directory (fd : Int) : Looks (directory fd) := by
  refine looks_bind (looks_descriptor fd) fun d => ?_
  cases d with
  | directory p name => exact looks_pure _
  | device d => exact looks_fail _
  | file h append => exact looks_fail _

lemma looks_path (fd : Int) (address size : Nat) : Looks (path fd address size) :=
  looks_bind (looks_directory fd) fun _ => looks_bind (looks_reading _) fun _ => looks_pure _

/-- A place that a guest names has a canonical text. -/
lemma adrift_of_path {fd : Int} {address size : Nat}
    (h : Ran (path fd address size) g log (.ok p) q) : p.adrift = false := by
  rcases ran_bind_iff.1 h with ⟨_, he, -⟩ | ⟨base, _, _, _, -, -, h⟩
  · cases he
  rcases ran_bind_iff.1 h with ⟨_, he, -⟩ | ⟨s, _, _, _, -, -, h⟩
  · cases he
  obtain ⟨-, hp, -⟩ := ran_pure_iff.1 h
  obtain rfl : p = base.resolve s := Except.ok.inj hp
  rw [resolve_eq_ofText]
  exact Path.adrift_ofText _

lemma looks_deviceAt (p : Path) : Looks (deviceAt? p) :=
  looks_bind looks_process fun _ => looks_pure _

lemma looks_isDirectory (p : Path) : Looks (isDirectory p) := by
  refine looks_bind looks_process fun g => ?_
  split <;> exact looks_pure _

/-- Opening a place fails and changes nothing, or gives something that needs no handle, or opens a
file. -/
lemma ran_openPlace {p : Path} {f : OpenFlags} {r : Except (Failure LibcError) Descriptor}
    (h : Ran (openPlace p f) g log r q) :
    (q = g ∧ ∀ d, r = .ok d → handle? d = none) ∨
      ∃ t file, r = .ok (.file g.tree.opened.next f.append) ∧ q = { g with tree := t } ∧
        t.opened = g.tree.opened.insert file := by
  have failed {e : Failure LibcError} : ∀ d, Except.error e = .ok d → handle? d = none := by simp
  have refused {e : LibcError} (h : Ran (fail e : Sys Descriptor) g log r q) :
      q = g ∧ ∀ d, r = .ok d → handle? d = none := by
    obtain ⟨-, rfl, rfl⟩ := ran_throw_iff.1 h
    exact ⟨rfl, failed⟩
  have given {d : Descriptor} (hd : handle? d = none) (h : Ran (pure d : Sys Descriptor) g log r q) :
      q = g ∧ ∀ d, r = .ok d → handle? d = none := by
    obtain ⟨-, rfl, rfl⟩ := ran_pure_iff.1 h
    exact ⟨rfl, fun d' hd' => Except.ok.inj hd' ▸ hd⟩
  rcases (looks_deviceAt p).ran_bind h with ⟨e, rfl, -, rfl⟩ | ⟨_ | d, -, hrest⟩
  · exact .inl ⟨rfl, failed⟩
  · rcases (looks_isDirectory p).ran_bind hrest with ⟨e, rfl, -, rfl⟩ | ⟨b, -, hrest⟩
    · exact .inl ⟨rfl, failed⟩
    cases b with
    | true =>
      simp only [if_true] at hrest
      split_ifs at hrest
      · exact .inl (refused hrest)
      · exact .inl (refused hrest)
      · exact .inl (given rfl hrest)
    | false =>
      simp only [Bool.false_eq_true, if_false] at hrest
      split_ifs at hrest
      · rw [ran_process_bind_iff] at hrest
        split_ifs at hrest
        · exact .inl (refused hrest)
        · exact .inl (refused hrest)
      · rcases ran_openPath_bind hrest with ⟨e, rfl, rfl⟩ | ⟨t, file, after, hfile, hend⟩
        · exact .inl ⟨rfl, failed⟩
        · obtain ⟨-, rfl, rfl⟩ := ran_pure_iff.1 hend
          exact .inr ⟨t, file, rfl, rfl, hfile⟩
  · exact .inl (given rfl hrest)

section

variable (hm : Matched handle? g.tree g.descriptors)

include hm

/-- What is opened gets a descriptor, even if its number cannot be told. -/
lemma turns_pathOpen {p : Path} {f : OpenFlags} {args : List Value}
    {r : Except (Failure LibcError) Unit}
    (h : Ran (pathOpen p f (args.getD 8 (.i32 0)).address) g log r q) :
    Matched handle? q.tree q.descriptors ∧ Turns .pathOpen args r g q := by
  rcases ran_bind_iff.1 h with ⟨e, rfl, hopen⟩ | ⟨d, u, _, _, -, hopen, hrest⟩
  · rcases ran_openPlace hopen with ⟨rfl, -⟩ | ⟨_, _, hr, -⟩
    · exact ⟨hm, .inl rfl⟩
    · cases hr
  rw [ran_addDescriptor_bind_iff] at hrest
  -- with the descriptor in the table, the two are in step again, whatever becomes of the number
  have hadded : Matched handle? u.tree (g.descriptors.insert d) ∧ u.descriptors = g.descriptors ∧
      u.memory = g.memory ∧
      (u.tree.opened = g.tree.opened ∨ ∃ file, u.tree.opened = g.tree.opened.insert file) := by
    rcases ran_openPlace hopen with ⟨rfl, hd⟩ | ⟨t, file, hr, rfl, hfile⟩
    · exact ⟨hm.insert_none (hd d rfl), rfl, rfl, .inl rfl⟩
    · cases hr
      exact ⟨hm.insert hfile rfl, rfl, rfl, .inr ⟨file, hfile⟩⟩
  obtain ⟨hmatched, hdescriptors, hmemory, htree⟩ := hadded
  obtain ⟨-, ⟨m, hwrite, rfl, rfl⟩ | ⟨_, -, rfl, rfl⟩⟩ := ran_writing_iff.1 hrest
  · rw [hdescriptors] at hwrite ⊢
    rw [hmemory] at hwrite
    exact ⟨hmatched, g.descriptors.next, hm.opened_next rfl htree, hwrite⟩
  · rw [hdescriptors]
    exact ⟨hmatched, .inr ⟨g.descriptors.next, hm.opened_next rfl htree⟩⟩

lemma turns_fdClose {args : List Value} {r : Except (Failure LibcError) Unit}
    (h : Ran (fdClose (args.getD 0 (.i32 0)).narrow.toInt) g log r q) :
    Matched handle? q.tree q.descriptors ∧ Turns .fdClose args r g q := by
  rcases ran_descriptor_bind h with ⟨e, rfl, rfl⟩ | ⟨k, d, hfd, hk, hrest⟩
  · exact ⟨hm, rfl⟩
  have hkey : (args.getD 0 (.i32 0)).narrow.toInt.toNat = k := by omega
  rw [ran_dropDescriptor_bind_iff, hkey] at hrest
  have hlive : (g.descriptors.get? k).isSome := by simp [hk]
  have hat : handleAt handle? g.descriptors k = handle? d := by rw [handleAt, hk]; rfl
  have unheld (hd : handle? d = none) (h : Ran (pure () : Sys Unit)
      { g with descriptors := g.descriptors.remove k } log r q) :
      Matched handle? q.tree q.descriptors ∧ Turns .fdClose args r g q := by
    obtain ⟨-, rfl, rfl⟩ := ran_pure_iff.1 h
    exact ⟨hm.remove_none (hat.trans hd), k, hfd, hm.closed_remove hlive rfl fun _ _ => rfl⟩
  cases d with
  | device d => exact unheld rfl hrest
  | directory p name => exact unheld rfl hrest
  | file i append =>
    obtain ⟨rfl, t, rfl, ht⟩ := ran_closeHandle hrest (hm.live k i hat)
    have hq := hm.closed_file
      (q := { g with descriptors := g.descriptors.remove k, tree := t }) hat rfl ht
    exact ⟨hq.1, k, hfd, hq.2⟩

/-- **No function of the larger interface puts descriptors and handles out of step.** -/
theorem turns_perform {c : LibcCall} {args : List Value} {r : Except (Failure LibcError) Unit}
    (h : Ran (perform c args) g log r q) :
    Matched handle? q.tree q.descriptors ∧ Turns c args r g q := by
  by_cases hopen : c = .pathOpen
  · subst hopen
    rcases (looks_path _ _ _).ran_bind h with ⟨e, rfl, -, rfl⟩ | ⟨p, -, hrest⟩
    · exact ⟨hm, .inl rfl⟩
    · exact turns_pathOpen hm hrest
  by_cases hclose : c = .fdClose
  · subst hclose
    exact turns_fdClose hm h
  have hkeeps : Keeps (fun t d => Matched handle? t d ∧ d = g.descriptors) (perform c args) := by
    refine keeps_perform args (fun op hop now t d ht => ?_) (absurd · hopen) (absurd · hclose)
    have hturns := turnsHandles_of_asks hopen hclose hop
    exact ⟨ht.1.of_sameHandles (sameHandles_apply now op hturns t), ht.2⟩
  obtain ⟨hq, hsame⟩ := hkeeps.ran ⟨hm, rfl⟩ h
  refine ⟨hq, ?_⟩
  rw [Turns]
  · exact hsame
  · exact fun h _ => hopen h
  · exact fun _ h _ => hopen h
  · exact fun h _ => hclose h

end

/-- Devices are mounted without a handle. -/
lemma opened_withDevices (now : Moment) (ds : List (String × Device)) (t : FileTree) :
    (ds.foldl (withDevice now) t).opened = t.opened := by
  induction ds generalizing t with
  | nil => rfl
  | cons d ds ih => exact (ih _).trans (opened_mount _ d.2)

lemma matched_of_course {now : Moment} {environment : List (String × String)} {i : Invocation}
    (h : Course now environment i g) : Matched handle? g.tree g.descriptors := by
  refine h.keeps (fun index args p hp => ?_) ?_
  · refine always_call (R := Matched handle?) (fun c _ p hp => ?_) hp
    exact Task.always_iff_runs.2 fun log r hrun => (turns_perform hp hrun).1
  · have hopened : (Guest.start now environment i).tree.opened = Slots.empty := by
      rw [Guest.start, opened_withDevices, opened_load]
      rfl
    -- none of the five descriptors of the beginning holds a handle
    exact (((((Matched.empty hopened).insert_none rfl).insert_none rfl).insert_none
      rfl).insert_none rfl).insert_none rfl

end Libc

/-! ## Both interfaces -/

/-- However the handle of a live descriptor is used, and also when it is closed after that, the tree
never says that it is none. -/
lemma Matched.never_badHandle {δ : Type} {handle? : δ → Option Nat} {t u : FileTree} {d : Slots δ}
    {k h : Nat} (hm : Matched handle? t d) (hk : handleAt handle? d k = some h)
    (uses : List (Moment × Access)) :
    (∀ now (x : Access), x.run now h (Access.runAll h uses t) ≠ .error .badHandle u) ∧
      FileTree.close h (Access.runAll h uses t) ≠ .error .badHandle u := by
  have hopen : ((Access.runAll h uses t).opened.get? h).isSome := by
    rw [(Access.sameHandles_runAll uses).isSome]
    exact hm.live k h hk
  refine ⟨fun now x => x.run_ne_badHandle hopen, ?_⟩
  obtain ⟨f, hf⟩ := Option.isSome_iff_exists.1 hopen
  rw [close_ok hf]
  nofun

/-- What holds of descriptors and handles between two calls. -/
structure InStep {δ : Type} (handle? : δ → Option Nat) (p : Process δ) : Prop where
  matched : Matched handle? p.tree p.descriptors
  /-- The number that the next descriptor gets is nobody's. -/
  next_vacant : p.descriptors.get? p.descriptors.next = none
  /-- Of a handle under a descriptor the tree never says that it is none. -/
  never_badHandle : ∀ k h, handleAt handle? p.descriptors k = some h →
    ∀ (uses : List (Moment × Access)) (u : FileTree),
      (∀ now (x : Access), x.run now h (Access.runAll h uses p.tree) ≠ .error .badHandle u) ∧
        FileTree.close h (Access.runAll h uses p.tree) ≠ .error .badHandle u

lemma Matched.inStep {δ : Type} {handle? : δ → Option Nat} {p : Process δ}
    (hm : Matched handle? p.tree p.descriptors) : InStep handle? p :=
  ⟨hm, hm.table.get?_next, fun _ _ hk uses _ => hm.never_badHandle hk uses⟩

/-- **Descriptors and handles are in bijection wherever a run can come**, under both interfaces.  Every
call turns at most one descriptor, opening one that was vacant or closing one that was live, and leaves
the others with what they denote. -/
theorem descriptors_in_step (now : Moment) (i : Invocation) :
    (∀ g, Posix.Course now i g → InStep some g ∧
      ∀ c args m log r q, Ran (Posix.perform c args) { g with memory := m } log r q →
        InStep some q ∧ Posix.Turns c args r { g with memory := m } q) ∧
    (∀ environment g, Libc.Course now environment i g → InStep Libc.handle? g ∧
      ∀ c args m log r q, Ran (Libc.perform c args) { g with memory := m } log r q →
        InStep Libc.handle? q ∧ Libc.Turns c args r { g with memory := m } q) := by
  constructor
  · intro g hg
    have hm := Posix.matched_of_course hg
    refine ⟨hm.inStep, fun c args m log r q hrun => ?_⟩
    obtain ⟨hq, hturns⟩ := Posix.turns_perform (g := { g with memory := m }) hm hrun
    exact ⟨hq.inStep, hturns⟩
  · intro environment g hg
    have hm := Libc.matched_of_course hg
    refine ⟨hm.inStep, fun c args m log r q hrun => ?_⟩
    obtain ⟨hq, hturns⟩ := Libc.turns_perform (g := { g with memory := m }) hm hrun
    exact ⟨hq.inStep, hturns⟩

/-- A run that is given one file. -/
def oneFile : Invocation := ⟨"cat", [], [⟨"/a", 5, [104, 105]⟩], none⟩

/-- What serving a request makes of a process when nothing happens around it. -/
def afterServing {δ : Type} (call : Runnable.Caller δ) (choose : Runnable.Chooser) (r : Engine.Request)
    (p : Process δ) : Process δ :=
  ((Runnable.serve call choose r p).trace fun _ => Runnable.stillness).2.2

lemma Runnable.Course.next {δ : Type} {call : Runnable.Caller δ} {choose : Runnable.Chooser}
    {start p : Process δ} (h : Runnable.Course call choose start p) (r : Engine.Request) :
    Runnable.Course call choose start (afterServing call choose r p) :=
  h.served r (Task.runs_trace _ _)

/-- A process with the file open. -/
def reader : Posix.Guest :=
  afterServing Posix.call Posix.enter (.call 2 [.i32 0, .i32 1, .i32 0] (.ofList [97]))
    (Posix.Guest.start 7 oneFile)

/-- The arguments that open the file under the larger interface; there is no memory where the number
is to go. -/
def unheardOpen : List Value :=
  [.i32 3, .i32 0, .i32 0, .i32 1, .i32 0, .i64 2, .i64 0, .i32 0, .i32 99]

theorem descriptors_in_step_one_file :
    (Posix.Course 7 oneFile reader ∧ handleAt some reader.descriptors 0 = some 0 ∧
      InStep some reader ∧ ∃ log r q,
        Ran (Posix.perform .close [.i32 3]) { reader with memory := .empty } log r q ∧
        InStep some q ∧ Posix.Turns .close [.i32 3] r { reader with memory := .empty } q) ∧
    ∃ g, Libc.Course 7 [] oneFile g ∧ InStep Libc.handle? g ∧ ∃ log r q,
        Ran (Libc.perform .pathOpen unheardOpen) { g with memory := .ofList [97] } log r q ∧
        handleAt Libc.handle? q.descriptors 5 = some 0 ∧ InStep Libc.handle? q ∧
        Libc.Turns .pathOpen unheardOpen r { g with memory := .ofList [97] } q := by
  obtain ⟨hposix, hlibc⟩ := descriptors_in_step 7 oneFile
  constructor
  · have hcourse : Posix.Course 7 oneFile reader := Runnable.Course.start.next _
    have hrun := ran_trace (fun _ => Runnable.stillness) (Posix.perform .close [.i32 3])
      { reader with memory := .empty }
    exact ⟨hcourse, by decide +kernel, (hposix _ hcourse).1, _, _, _, hrun,
      (hposix _ hcourse).2 _ _ _ _ _ _ hrun⟩
  · have hcourse : Libc.Course 7 [] oneFile (Libc.Guest.start 7 [] oneFile) := .start
    have hrun := ran_trace (fun _ => Runnable.stillness) (Libc.perform .pathOpen unheardOpen)
      { Libc.Guest.start 7 [] oneFile with memory := .ofList [97] }
    exact ⟨_, hcourse, (hlibc _ _ hcourse).1, _, _, _, hrun, by decide +kernel,
      (hlibc _ _ hcourse).2 _ _ _ _ _ _ hrun⟩

end GuestShell
