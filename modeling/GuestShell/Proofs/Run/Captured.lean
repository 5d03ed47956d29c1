import GuestShell.Run.Capture
import GuestShell.Proofs.Task.Runs
import GuestShell.Proofs.Text.Utf8

/-!
# What a captured run keeps

A captured run is a run like any other: it is answered in its own way, and what is kept of its output is
told by what it asked (`runs_captured`).  Every chunk of output is decoded by itself (`stdout_addAll`).
If each chunk is a text, that makes the whole text (`join_decodeLossy`); of a character that is split
between two chunks nothing is left.
-/

namespace GuestShell

/-! ## Chunks -/

namespace Run

/-- What passes between a run and its surroundings. -/
abbrev Log : Type := Task.Log Request Answer

/-- What was written to standard output, one chunk for each write. -/
def stdoutChunks (log : Log) : List Bytes :=
  log.filterMap fun e =>
    match e.1 with
    | .stdout chunk => some chunk
    | _ => none

lemma stdoutChunks_stdout (chunk : Bytes) (a : Unit) (log : Log) :
    stdoutChunks (⟨.stdout chunk, a⟩ :: log) = chunk :: stdoutChunks log :=
  rfl

end Run

namespace Text

lemma encode_append (s t : String) : encode (s ++ t) = encode s ++ encode t := by
  rw [encode, String.toList_append, List.flatMap_append]
  rfl

lemma encode_injective {s t : String} (h : encode s = encode t) : s = t := by
  rw [← decodeLossy_encode s, h, decodeLossy_encode]

lemma encode_join_decodeLossy {chunks : List Bytes} (h : ∀ chunk ∈ chunks, ∃ s, chunk = encode s) :
    encode (String.join (chunks.map decodeLossy)) = chunks.flatten := by
  induction chunks with
  | nil => rfl
  | cons chunk chunks ih =>
    obtain ⟨⟨s, rfl⟩, hrest⟩ := List.forall_mem_cons.1 h
    rw [List.map_cons, String.join_cons, encode_append, decodeLossy_encode, ih hrest,
      List.flatten_cons]

/-- **Where every chunk is a text, the whole text is read.** -/
theorem join_decodeLossy {chunks : List Bytes} {text : String}
    (h : ∀ chunk ∈ chunks, ∃ s, chunk = encode s) (hall : chunks.flatten = encode text) :
    String.join (chunks.map decodeLossy) = text :=
  encode_injective ((encode_join_decodeLossy h).trans hall)

end Text

/-! ## Captures -/

namespace Capture

/-- What is kept of a request. -/
def add (c : Capture) : Run.Request → Capture
  | .stdout chunk => c.addStdout chunk
  | .stderr chunk => c.addStderr chunk
  | _ => c

/-- What is kept of all requests of a run. -/
def addAll (c : Capture) (log : Run.Log) : Capture := log.foldl (fun c e => c.add e.1) c

lemma stdout_addAll (c : Capture) (log : Run.Log) : (c.addAll log).stdout =
    c.stdout ++ String.join ((Run.stdoutChunks log).map Text.decodeLossy) := by
  induction log generalizing c with
  | nil => exact (String.append_empty).symm
  | cons e log ih =>
    obtain ⟨q, a⟩ := e
    refine (ih (c.add q)).trans ?_
    cases q with
    | stdout chunk =>
      rw [Run.stdoutChunks_stdout, List.map_cons, String.join_cons, ← String.append_assoc]
      rfl
    | _ => rfl

lemma runs_serve {q : Run.Request} {c : Capture} {log : Run.Log} {p : Run.Answer q × Capture}
    (h : Task.Runs (serve q c) log p) : p.2 = c.add q := by
  cases q with
  | stdout | stderr | readLine | isInterrupted =>
    obtain ⟨-, rfl⟩ := Task.runs_done_iff.1 h
    rfl
  | clock | epoch | note =>
    obtain ⟨_, _, rfl, hrest⟩ := Task.runs_ask_iff.1 h
    obtain ⟨-, rfl⟩ := Task.runs_done_iff.1 hrest
    rfl

lemma runs_within_serve {α : Type} {r : Running α} {c : Capture} {log : Run.Log} {p : α × Capture}
    (h : Task.Runs (r.within serve c) log p) :
    ∃ inner, Task.Runs r inner p.1 ∧ p.2 = c.addAll inner := by
  induction r generalizing c log with
  | done a =>
    obtain ⟨-, rfl⟩ := Task.runs_done_iff.1 h
    exact ⟨[], .done a, rfl⟩
  | ask q next ih =>
    obtain ⟨⟨a, c'⟩, before, after, rfl, hserve, hrest⟩ := Task.runs_bind_iff.1 h
    obtain rfl : c' = c.add q := runs_serve hserve
    obtain ⟨inner, hinner, hp⟩ := ih a hrest
    exact ⟨⟨q, a⟩ :: inner, .ask a hinner, hp⟩

end Capture

/-- **A captured run is a run, and what it keeps is what the run asked to be shown.** -/
theorem runs_captured {r : Running Report} {log : Run.Log} {run : CapturedRun}
    (h : Task.Runs (captured r) log run) :
    ∃ inner, Task.Runs r inner run.report ∧ run.capture = Capture.empty.addAll inner := by
  obtain ⟨p, before, after, rfl, hwithin, hrest⟩ := Task.runs_bind_iff.1 h
  obtain ⟨-, rfl⟩ := Task.runs_done_iff.1 hrest
  exact Capture.runs_within_serve hwithin

end GuestShell
