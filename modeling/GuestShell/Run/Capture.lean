import GuestShell.Run.Basic

/-!
# Captured runs

A run that nobody watches is captured: its output is kept as text, and it finds the end of input
wherever it asks for a line.  Each chunk of output is decoded by itself.
-/

namespace GuestShell

/-- The output of a run: all of it in the order it came, and each stream by itself. -/
structure Capture where
  output : String
  stdout : String
  stderr : String
  deriving DecidableEq

namespace Capture

/-- Nothing captured yet. -/
def empty : Capture := ⟨"", "", ""⟩

/-- Adds a chunk of standard output. -/
def addStdout (c : Capture) (chunk : Bytes) : Capture :=
  let text := Text.decodeLossy chunk
  { c with output := c.output ++ text, stdout := c.stdout ++ text }

/-- Adds a chunk of error output. -/
def addStderr (c : Capture) (chunk : Bytes) : Capture :=
  let text := Text.decodeLossy chunk
  { c with output := c.output ++ text, stderr := c.stderr ++ text }

/-- Keeps output, ends input, and passes on what is not about either. -/
def serve : (r : Run.Request) → Capture → Running (Run.Answer r × Capture)
  | .stdout chunk, c => return ((), c.addStdout chunk)
  | .stderr chunk, c => return ((), c.addStderr chunk)
  | .readLine, c => return (none, c)
  | .isInterrupted, c => return (false, c)
  | .clock, c => .ask .clock fun (t : Moment) => return (t, c)
  | .epoch, c => .ask .epoch fun (n : Nat) => return (n, c)
  | .note o, c => .ask (.note o) fun _ => return ((), c)

end Capture

/-- Everything a captured run produced. -/
structure CapturedRun where
  capture : Capture
  report : Report

/-- Captures a run. -/
def captured (r : Running Report) : Running CapturedRun :=
  (r.within Capture.serve .empty).bind fun r => return ⟨r.2, r.1⟩

end GuestShell
