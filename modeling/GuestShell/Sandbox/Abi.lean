import GuestShell.Module.Info

/-!
# Program interfaces

There are two sets of functions that a guest can be written against.  Which of them a module expects
is seen from its imports; a module that comes with glue expects the larger one in any case.
-/

namespace GuestShell

/-- The interfaces between guests and their sandbox. -/
inductive Abi where
  /-- A small set of file and process functions. -/
  | posix
  /-- The set that a full C library is built on. -/
  | libc
  deriving DecidableEq, Repr

namespace Abi

/-- The library that the functions of the larger interface belong to. -/
def libcLibrary : String := "wasi_snapshot_preview1"

/-- The library that the functions of the smaller interface belong to. -/
def posixLibrary : String := "env"

/-- The written name of an interface. -/
def name : Abi → String
  | posix => "posix"
  | libc => "libc"

/-- The interface that a module expects. -/
def detect (info : ModuleInfo) (hasGlue : Bool) : Abi :=
  if hasGlue || info.importsFrom libcLibrary then libc else posix

end Abi

end GuestShell
