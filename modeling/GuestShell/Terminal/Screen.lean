import GuestShell.Session.Context
import GuestShell.Task
import GuestShell.Terminal.LineBuffer
import GuestShell.Text.Blank

/-!
# The screen of one line

What the programs of a line write reaches the terminal line by line, each line feed as a carriage
return and a line feed.  The screen remembers whether the cursor is at the start of a line.

A gate stands between the programs and the terminal.  An interrupt closes it, and then everything
that still arrives is dropped; the next line opens it again.
-/

namespace GuestShell

/-- Whether output goes through. -/
structure Gate where
  isOpen : Bool
  deriving DecidableEq

/-- The open gate. -/
def Gate.opened : Gate := ⟨true⟩

/-- The closed gate. -/
def Gate.closed : Gate := ⟨false⟩

/-- The gate after an interrupt, which closes it if it has hit a run. -/
def Gate.afterInterrupt (hit : Bool) (g : Gate) : Gate := if hit then closed else g

/-- What waits to be shown, and where the cursor is. -/
structure Screen where
  buffer : LineBuffer
  /-- Whether the cursor is at the start of a line. -/
  atLineStart : Bool

namespace Screen

/-- The screen at the beginning of a line. -/
def fresh : Screen := ⟨.empty, true⟩

/-- Clears a terminal. -/
def clearAll : String := "\x1b[2J\x1b[H"

/-- Goes back to the start of the line and erases it. -/
def eraseCaption : String := "\r\x1b[K"

/-- Goes to the next line. -/
def nextLine : String := "\r\n"

/-- What a screen asks the terminal. -/
inductive Request where
  | write (text : String)
  | read (prompt : String)

/-- The answers to the requests. -/
abbrev Answer : Request → Type
  | .write _ => Unit
  | .read _ => Session.Reading

/-- A screen at work.  The gate is shared with those who interrupt. -/
abbrev Drawing (α : Type) := StateT Screen (SharedTask Gate Request Answer) α

/-- Asks a request. -/
def ask (r : Request) : Drawing (Answer r) := StateT.lift (SharedTask.request r)

/-- Whether output goes through now. -/
def goesThrough : Drawing Bool := return (← getThe Gate).isOpen

/-- Shows a text, if it goes through. -/
def put (text : String) : Drawing Unit := do
  if (← goesThrough) && text != "" then
    modify fun s => { s with atLineStart := Text.endsWith text "\n" }
    ask (.write (Text.crlf text))

/-- Takes a chunk of output; what is there when the gate is closed is dropped. -/
def write (chunk : Bytes) : Drawing Unit := do
  if ← goesThrough then
    let (lines, buffer) := (← get).buffer.write chunk
    modify fun s => { s with buffer := buffer }
    lines.forM put
  else modify fun s => { s with buffer := .empty }

/-- Shows a line that is not complete. -/
def flush : Drawing Unit := do
  let (lines, buffer) := (← get).buffer.flush
  modify fun s => { s with buffer := buffer }
  lines.forM put

/-- Shows a text for the time being, as it is. -/
def status (text : String) : Drawing Unit := do
  flush
  if ← goesThrough then ask (.write text)

/-- Reads a line.  The caption is on the screen already, so it is erased for the reader to show it
again; `echoes` says that the reader goes to the next line by itself. -/
def readLine (echoes : Bool) (caption : String) : Drawing Session.Reading := do
  flush
  if caption != "" then ask (.write eraseCaption)
  let r ← ask (.read caption)
  match r with
  | .abandoned => return r
  | _ =>
    if !echoes then ask (.write nextLine)
    modify fun s => { s with atLineStart := true }
    return r

end Screen

end GuestShell
