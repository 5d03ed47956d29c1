import GuestShell.Module.Info

/-!
# Why a module cannot be used or a run ends

`EngineError` is what becomes of a module or of its run; `HostStop` is what a host function raises to
end the run it was called from.
-/

namespace GuestShell

/-- Why a module cannot be compiled, started or run to its end. -/
inductive EngineError where
  /-- The bytes are no module file. -/
  | invalidModule (reason : String)
  | compileFailed (reason : String)
  | missingExport (name : String)
  /-- An access of guest memory from `address` on, of `size` bytes. -/
  | outOfBounds (address size memorySize : Nat)
  /-- The imports cannot be satisfied, or the start function failed. -/
  | instantiationFailed (reason : String)
  /-- The guest trapped, or a host function faulted. -/
  | aborted (reason : String)
  /-- The run was stopped from outside. -/
  | interrupted
  deriving DecidableEq, Inhabited

/-- The wording of an engine error. -/
def EngineError.message : EngineError → String
  | invalidModule reason => "invalid WASM module: " ++ reason
  | compileFailed reason => "module compilation failed: " ++ reason
  | missingExport name => "missing required export: '" ++ name ++ "'"
  | outOfBounds address size memorySize =>
    "memory access out of bounds: address " ++ toString address ++ " + size " ++ toString size ++
      " > memory size " ++ toString memorySize
  | instantiationFailed reason => "module instantiation failed: " ++ reason
  | aborted reason => "command aborted: " ++ reason
  | interrupted => "interrupted"

/-- The error that a flaw of a module file stands for. -/
def EngineError.ofFlaw (f : ModuleFlaw) : EngineError := .invalidModule f.message

/-- What ends a run from inside a host function. -/
inductive HostStop where
  /-- The guest asked to exit. -/
  | exit (code : Int32)
  /-- The run was stopped while it waited for input. -/
  | interrupted
  /-- A host function could not go on. -/
  | fault (reason : String)
  /-- A host function was asked for more than any machine can hold, and broke down. -/
  | breakdown
  deriving DecidableEq

/-- The wording of a stop. -/
def HostStop.message : HostStop → String
  | exit code => "exit(" ++ toString code.toInt ++ ")"
  | interrupted => "interrupted"
  | fault reason => "host fault: " ++ reason
  | breakdown => "host breakdown"

end GuestShell
