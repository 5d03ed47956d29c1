import GuestShell.Engine.Host

/-!
# Guest programs

A guest program is a list of instructions over sixteen registers of 64 bits and a linear memory.  It
computes little by itself; what it is for is to call host functions, one after another, in loops and
under conditions that depend on their results.

A program says what its module looks like from outside: the memory and the names it exports, the
functions it imports.  The functions it calls by name belong to one library; further imports, of
functions without parameters, are called by their place.
-/

namespace GuestShell

/-- Where an instruction takes a number from. -/
inductive Operand where
  | literal (v : Int64)
  | register (k : Nat)
  /-- The 32-bit word at an address, extended by its sign. -/
  | load (address : Operand)
  deriving DecidableEq, Inhabited

/-- One instruction. -/
inductive Instruction where
  /-- Calls a function; its result goes to a register, if one is named. -/
  | call (name : String) (args : List Operand) (target : Option Nat)
  /-- Calls one of the further imports. -/
  | callImport (index : Nat)
  | poke (address : Operand) (bytes : Bytes)
  /-- Stores the low 32 bits of a number. -/
  | store (address value : Operand)
  | set (k : Nat) (value : Operand)
  | add (k : Nat) (value : Operand)
  /-- Runs the body, and again while the condition is not 0. -/
  | loop (body : List Instruction) (condition : Operand)
  | branch (condition : Operand) (body : List Instruction)
  /-- Leaves the function with a value. -/
  | leave (value : Operand)
  | trap
  | noteValue (value : Operand)
  | noteBytes (address size : Operand)
  | noteTime (address : Operand) (unit : TimeUnit)
  deriving Inhabited

/-- A program and the outside of its module. -/
structure Program where
  /-- The library of the functions that are called by name. -/
  library : String
  code : List Instruction
  /-- The name that the code is exported under. -/
  entry : Option String
  params : List ValueKind
  result : Option ValueKind
  /-- What runs when the module is instantiated. -/
  start : Option (List Instruction)
  /-- The size of the memory in pages; none for no memory. -/
  pages : Option Nat
  /-- The name that the memory is exported under. -/
  memoryName : String
  /-- What is in memory from the beginning. -/
  data : List (Nat × Bytes)
  /-- The names of exported globals. -/
  globals : List String
  /-- Further imports, libraries and names. -/
  imports : List (String × String)
  importedMemory : Option (String × String)
  /-- The name of the module. -/
  name : Option String
  /-- Whether notes are kept. -/
  logs : Bool
  deriving Inhabited

namespace Program

/-- The program that does nothing and shows nothing. -/
def nothing : Program where
  library := ""
  code := []
  entry := none
  params := []
  result := none
  start := none
  pages := none
  memoryName := "memory"
  data := []
  globals := []
  imports := []
  importedMemory := none
  name := none
  logs := false

/-! ## The outside -/

/-- The functions that an instruction calls by name, in their order. -/
def callsOf : Instruction → List String
  | .call name _ _ => [name]
  | .loop body _ => callsIn body
  | .branch _ body => callsIn body
  | _ => []
where
  /-- The functions that instructions call. -/
  callsIn : List Instruction → List String
    | [] => []
    | i :: is => callsOf i ++ callsIn is

/-- Each text once, where it comes first. -/
def distinct (names : List String) : List String :=
  (names.foldl (fun seen n => if seen.contains n then seen else n :: seen) []).reverse

/-- The function that writes output in each library; notes go out through it. -/
def noteCalls (p : Program) : List String :=
  if p.logs then
    if p.library = "wasi_snapshot_preview1" then ["fd_write"] else ["write"]
  else []

/-- The functions that are imported to be called by name. -/
def calls (p : Program) : List String :=
  distinct (callsOf.callsIn (p.start.getD []) ++ callsOf.callsIn p.code ++ p.noteCalls)

/-- All imports, in their order. -/
def importList (p : Program) : List Import :=
  p.calls.map (fun n => ⟨p.library, n, .function⟩) ++
    p.imports.map (fun i => ⟨i.1, i.2, .function⟩) ++
    p.importedMemory.toList.map (fun i => ⟨i.1, i.2, .memory⟩)

/-- All exports, in their order: the memory, the globals, the code. -/
def exportList (p : Program) : List Export :=
  (if p.pages.isSome then [⟨p.memoryName, .memory⟩] else []) ++
    p.globals.map (fun n => ⟨n, .global⟩) ++
    p.entry.toList.map (fun n => ⟨n, .function⟩)

/-- What the module imports and exports. -/
def info (p : Program) : ModuleInfo := ⟨p.importList, p.exportList⟩

/-! ## What a module must be -/

/-- Whether an operand is read from memory. -/
def isLoad : Operand → Bool
  | .load _ => true
  | _ => false

/-- Functions without a result, so that none is noted. -/
def silentCalls : List String := ["exit", "proc_exit", "tick"]

/-- Whether an instruction reaches for memory; notes are made there, too. -/
def usesMemory (logs : Bool) : Instruction → Bool
  | .call name args _ => args.any isLoad || (logs && !silentCalls.contains name)
  | .callImport _ | .trap => false
  | .poke _ bytes => !bytes.isEmpty
  | .store .. => true
  | .set _ v | .add _ v | .leave v => isLoad v
  | .loop body condition => anyUses body || isLoad condition
  | .branch condition body => isLoad condition || anyUses body
  | .noteValue _ | .noteBytes .. | .noteTime .. => logs
where
  /-- Whether one of the instructions reaches for memory. -/
  anyUses : List Instruction → Bool
    | [] => false
    | i :: is => usesMemory logs i || anyUses is

/-- Whether the program cannot do without a memory. -/
def needsMemory (p : Program) : Bool :=
  !p.data.isEmpty || usesMemory.anyUses p.logs (p.start.getD []) ||
    usesMemory.anyUses p.logs p.code

/-- Whether a memory is there, and no larger than addresses reach, wherever one is needed. -/
def memoryAgrees (p : Program) : Bool :=
  match p.pages with
  | some n => n ≤ Memory.maxPages
  | none => p.importedMemory.isSome || !p.needsMemory

/-- Whether two exports have one name. -/
def hasNameTwice (p : Program) : Bool :=
  let names := p.exportList.map (·.name)
  distinct names != names

end Program

end GuestShell
