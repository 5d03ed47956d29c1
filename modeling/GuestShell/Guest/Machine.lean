import GuestShell.Guest.Program

/-!
# The machine

The machine runs the instructions of one function.  What is still to be done is a list of
instructions and a stack of frames: what follows the current body, and whether the body is run
again.  `step` does what the machine can do by itself; everything else is a `Step` that says what
the machine asks for and how it goes on.

An address is the low 32 bits of a number.  An access outside the memory is a trap.
-/

namespace GuestShell

/-- What follows when a body is at its end. -/
inductive Frame where
  | resume (rest : List Instruction)
  /-- Runs the body again while the condition is not 0. -/
  | again (body : List Instruction) (condition : Operand) (rest : List Instruction)

/-- A function at work. -/
structure Control where
  registers : Array Int64
  todo : List Instruction
  frames : List Frame

/-- What a step comes to. -/
inductive Step where
  | next (c : Control) (m : Memory)
  /-- The place where an interrupt takes effect. -/
  | poll (c : Control) (m : Memory)
  | call (name : String) (args : List Int64) (target : Option Nat) (c : Control) (m : Memory)
  | callImport (index : Nat) (c : Control) (m : Memory)
  | note (o : Observation) (c : Control) (m : Memory)
  /-- The function is left with a value. -/
  | leave (v : Int64) (m : Memory)
  | trap

/-- The address that a number stands for. -/
def addressOf (v : Int64) : Nat := v.toInt32.toUInt32.toNat

namespace Operand

/-- The number that an operand stands for; none if it lies outside the memory. -/
def value? (registers : Array Int64) (m : Memory) : Operand → Option Int64
  | literal v => some v
  | register k => some (registers.getD k 0)
  | load a => do
    match m.readWord32 (addressOf (← a.value? registers m)) with
    | .ok w => some (Int32.ofNat w).toInt64
    | .error _ => none

end Operand

namespace Control

/-- The number of registers. -/
def registerCount : Nat := 16

/-- The beginning of a function: argument count and argument pointer stand in the last two
registers. -/
def start (code : List Instruction) (argc argv : Int64) : Control where
  registers := (Array.replicate (registerCount - 2) 0).push argc |>.push argv
  todo := code
  frames := []

/-- Puts a number into a register. -/
def assign (c : Control) (k : Nat) (v : Int64) : Control :=
  { c with registers := c.registers.setIfInBounds k v }

/-- Goes on after writing to memory, or traps. -/
def stored (c : Control) : Except EngineError Memory → Step
  | .ok m => .next c m
  | .error _ => .trap

/-- A note of the bytes of an area; an area outside the memory is not noted. -/
def noteArea (c : Control) (m : Memory) (address size : Nat) (note : Bytes → Observation) : Step :=
  match m.read address size with
  | .ok b => .note (note b) c m
  | .error _ => .next c m

/-- Does one instruction; `c` is what follows it. -/
def perform? (logs : Bool) (c : Control) (m : Memory) (i : Instruction) : Option Step := do
  let value (o : Operand) : Option Int64 := o.value? c.registers m
  match i with
  | .call name args target => return .call name (← args.mapM value) target c m
  | .callImport k => return .callImport k c m
  | .poke a b =>
    -- Bytes are stored one by one, so no bytes are no access at all.
    if b.isEmpty then return .next c m
    else return c.stored (m.write (addressOf (← value a)) b)
  | .store a v =>
    let a ← value a
    return c.stored (m.writeWord32 (addressOf a) (addressOf (← value v)))
  | .set k v => return .next (c.assign k (← value v)) m
  | .add k v => return .next (c.assign k (c.registers.getD k 0 + (← value v))) m
  | .loop body condition =>
    return .poll { c with todo := body, frames := .again body condition c.todo :: c.frames } m
  | .branch condition body =>
    if (← value condition) = 0 then return .next c m
    else return .next { c with todo := body, frames := .resume c.todo :: c.frames } m
  | .leave v => return .leave (← value v) m
  | .trap => none
  | .noteValue v => if logs then return .note (.value (← value v)) c m else return .next c m
  | .noteBytes a n =>
    if logs then
      let a ← value a
      return c.noteArea m (addressOf a) (addressOf (← value n)) .bytes
    else return .next c m
  | .noteTime a u =>
    if logs then
      return c.noteArea m (addressOf (← value a)) 8 fun b => .time (Bytes.ofLittleEndian b) u
    else return .next c m

/-- Goes on where a body is at its end. -/
def endBody? (c : Control) (m : Memory) : Option Step :=
  match c.frames with
  | [] => some (.leave 0 m)
  | .resume rest :: frames => some (.next { c with todo := rest, frames := frames } m)
  | .again body condition rest :: frames => do
    if (← condition.value? c.registers m) = 0 then
      return .next { c with todo := rest, frames := frames } m
    else return .poll { c with todo := body } m

/-- Does one step. -/
def step (logs : Bool) (c : Control) (m : Memory) : Step :=
  let result :=
    match c.todo with
    | [] => c.endBody? m
    | i :: rest => perform? logs { c with todo := rest } m i
  result.getD .trap

end Control

end GuestShell
