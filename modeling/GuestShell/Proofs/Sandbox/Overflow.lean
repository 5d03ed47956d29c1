import GuestShell.Proofs.Sandbox.Checked
import GuestShell.Proofs.Sandbox.Reserved

/-!
# What overflows in a run

No file of a run is longer than `maxLength` and no open file stands further out, whatever is called
in whatever order (`withinLimits_of_course`).  So the calls of a run are made with the numbers of a
machine just as with all numbers, and a call that needs contents that are too long is the only one
that breaks the host down (`numbers_fit`).

This is not what a host should do.  A call that cannot be carried out should be answered with an
error code, as are those with bad addresses, and `host_breaks_down` has three runs in which it is
not.
-/

namespace GuestShell

open GuestShell.System FileTree

/-! ## Within the limits -/

/-- No call of a guest loads files. -/
lemma Posix.ne_load_of_asks {c : PosixCall} {op : Operation} (h : Asks c op)
    (files : List SavedFile) : op ≠ .load files := by
  rintro rfl
  cases c <;> exact h

lemma Libc.ne_load_of_asks {c : LibcCall} {op : Operation} (h : Asks c op)
    (files : List SavedFile) : op ≠ .load files := by
  rintro rfl
  cases c <;> exact h

lemma Libc.withinLimits_withDevices {now : Moment} (ds : List (String × Device)) {t : FileTree}
    (h : t.WithinLimits) : (ds.foldl (withDevice now) t).WithinLimits := by
  induction ds generalizing t with
  | nil => exact h
  | cons d ds ih => exact ih (h.mount d.2)

section Courses

variable {now : Moment} {i : Invocation} (hfiles : ∀ f ∈ i.files, f.bytes.length ≤ maxLength)

include hfiles

theorem Posix.withinLimits_of_course {g : Posix.Guest} (h : Posix.Course now i g) :
    g.tree.WithinLimits := by
  have hcall (c : PosixCall) (args : List Value) : Keeps Within (perform c args) :=
    keeps_perform args (fun _ op hop => tolerates_within (ne_load_of_asks hop))
      (fun _ _ _ _ ht => ht) fun _ _ _ _ ht => ht
  refine h.keeps (R := Within) (fun index args p hp => always_call (fun c _ => hcall c args) hp) ?_
  exact (WithinLimits.fresh now).load hfiles

theorem Libc.withinLimits_of_course {environment : List (String × String)} {g : Libc.Guest}
    (h : Libc.Course now environment i g) : g.tree.WithinLimits := by
  have hcall (c : LibcCall) (args : List Value) : Keeps Within (perform c args) :=
    keeps_perform args (fun op hop => tolerates_within (ne_load_of_asks hop))
      (fun _ _ _ _ ht => ht) fun _ _ _ _ ht => ht
  refine h.keeps (R := Within) (fun index args p hp => always_call (fun c _ => hcall c args) hp) ?_
  rw [Within, tree_start]
  exact withinLimits_withDevices devices ((WithinLimits.fresh now).load hfiles)

end Courses

/-! ## In every state of a run -/

/-- **What the calls of a run compute fits into the numbers of a machine, unless they are to make a
file too long.**  In every state of a run that was given files of possible lengths, and over every
memory, a call of the smaller interface is the same with the numbers of a machine, and so is a call
of the larger interface that does not lay out texts up to the end of all addresses.  A call breaks
the host down exactly if it is to make a file longer than any file can be. -/
theorem numbers_fit (now : Moment) (i : Invocation)
    (hfiles : ∀ f ∈ i.files, f.bytes.length ≤ maxLength) :
    (∀ g, Posix.Course now i g → Representable g → ∀ c args m,
      let g' := { g with memory := m }
      Posix.Checked.perform c args g' = Posix.perform c args g' ∧
        BreaksIff (Posix.TooLong c args g') (Posix.perform c args) g') ∧
    ∀ environment g, Libc.Course now environment i g → Representable g → ∀ c args m,
      let g' := { g with memory := m }
      (¬Libc.Overruns c args g' → Libc.Checked.perform c args g' = Libc.perform c args g') ∧
        BreaksIff (Libc.TooLong c args g') (Libc.perform c args) g' := by
  constructor
  · intro g hcourse hg c args m g'
    have hlimits := Posix.withinLimits_of_course hfiles hcourse
    exact ⟨Posix.Checked.perform_eq (g := g') hlimits (hg.withMemory m) c args,
      Posix.breaks_perform c args⟩
  · intro environment g hcourse hg c args m g'
    have hlimits := Libc.withinLimits_of_course hfiles hcourse
    exact ⟨Libc.Checked.perform_eq (g := g') hlimits (hg.withMemory m), Libc.breaks_perform c args⟩

lemma representable_reader : Representable reader := by
  constructor <;> decide +kernel

lemma Libc.representable_writer : Representable writer := by
  constructor <;> decide +kernel

/-- The file that is read is read with the numbers of a machine, and the file that is written can be
cut. -/
theorem numbers_fit_open_file :
    (Posix.Course 7 oneFile reader ∧
      let g := { reader with memory := .ofList [1, 2, 3] }
      Posix.Checked.perform .read [.i32 3, .i32 1, .i32 2] g =
        Posix.perform .read [.i32 3, .i32 1, .i32 2] g) ∧
    Libc.Course 7 [] Libc.fileAndInput Libc.writer ∧
      (∀ f ∈ Libc.fileAndInput.files, f.bytes.length ≤ maxLength) ∧
      ∃ log q, Ran (Libc.perform .fdFilestatSetSize [.i32 5, .i64 1])
        { Libc.writer with memory := .empty } log (.ok ()) q ∧
      ¬Libc.TooLong .fdFilestatSetSize [.i32 5, .i64 1] { Libc.writer with memory := .empty } := by
  have hreader : Posix.Course 7 oneFile reader := Runnable.Course.start.next _
  have hone : ∀ f ∈ oneFile.files, f.bytes.length ≤ maxLength := by decide +kernel
  have hboth : ∀ f ∈ Libc.fileAndInput.files, f.bytes.length ≤ maxLength := by decide +kernel
  obtain ⟨hposix, -⟩ := numbers_fit 7 oneFile hone
  obtain ⟨-, hlibc⟩ := numbers_fit 7 Libc.fileAndInput hboth
  have hrun : Ran (Libc.perform .fdFilestatSetSize [.i32 5, .i64 1])
      { Libc.writer with memory := .empty } _ (.ok ()) _ :=
    ran_trace (fun _ => Runnable.stillness) _ _
  refine ⟨⟨hreader, (hposix _ hreader representable_reader _ _ _).1⟩, Libc.course_writer, hboth,
    _, _, hrun, fun hlong => ?_⟩
  cases ((hlibc [] _ Libc.course_writer Libc.representable_writer _ _ _).2 _ _ _ hrun).2 hlong

/-! ## What breaks the host down -/

/-- A process that has opened a file to write, and stands as far out as a file can be long. -/
def farOut : Posix.Guest :=
  afterServing Posix.call Posix.enter (.call 4 [.i32 3, .i64 9223372036854775807, .i32 0] .empty)
    (afterServing Posix.call Posix.enter (.call 2 [.i32 0, .i32 1, .i32 1] (.ofList [97]))
      (Posix.Guest.start 7 oneFile))

lemma course_farOut : Posix.Course 7 oneFile farOut := (Runnable.Course.start.next _).next _

/-- A run with two arguments. -/
def twoArguments : Invocation := ⟨"cat", ["x"], [], none⟩

/-- A process of this run whose memory has all addresses. -/
def lastAddress : Libc.Guest :=
  { Libc.Guest.start 7 [] twoArguments with memory := .zeros Memory.maxPages }

/-- **A guest can break its host down**, in three ways: with one byte at the farthest position, with
a length that no file can have, and with the address of a text at the end of all addresses.  In the
third run the sum of the addresses is cut, and the address of the second text gets to the beginning
of the memory. -/
theorem host_breaks_down :
    (Posix.Course 7 oneFile farOut ∧ ∃ log q,
      Ran (Posix.perform .write [.i32 3, .i32 0, .i32 1]) { farOut with memory := .ofList [120] }
        log (.error (.stop .breakdown)) q) ∧
    (Libc.Course 7 [] Libc.fileAndInput Libc.writer ∧ ∃ log q,
      Ran (Libc.perform .fdFilestatSetSize [.i32 5, .i64 (-1)])
        { Libc.writer with memory := .empty } log (.error (.stop .breakdown)) q) ∧
    (∃ log q, Ran (Libc.perform .argsGet [.i32 (-4), .i32 8]) lastAddress log (.ok ()) q ∧
      q.memory.area 0 4 = [12, 0, 0, 0]) ∧
    ∃ log q, Ran (Libc.Checked.perform .argsGet [.i32 (-4), .i32 8]) lastAddress log
      (.error (.stop .breakdown)) q := by
  have hfar : Ran (Posix.perform .write [.i32 3, .i32 0, .i32 1])
      { farOut with memory := .ofList [120] } _ (.error (.stop .breakdown)) _ :=
    ran_trace (fun _ => Runnable.stillness) _ _
  have hlong : Ran (Libc.perform .fdFilestatSetSize [.i32 5, .i64 (-1)])
      { Libc.writer with memory := .empty } _ (.error (.stop .breakdown)) _ :=
    ran_trace (fun _ => Runnable.stillness) _ _
  have hlast : Ran (Libc.perform .argsGet [.i32 (-4), .i32 8]) lastAddress _ (.ok ()) _ :=
    ran_trace (fun _ => Runnable.stillness) _ _
  have hchecked : Ran (Libc.Checked.perform .argsGet [.i32 (-4), .i32 8]) lastAddress _
      (.error (.stop .breakdown)) _ := ran_trace (fun _ => Runnable.stillness) _ _
  exact ⟨⟨course_farOut, _, _, hfar⟩, ⟨Libc.course_writer, _, _, hlong⟩,
    ⟨_, _, hlast, by decide +kernel⟩, _, _, hchecked⟩

end GuestShell
