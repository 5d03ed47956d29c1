import GuestShell.Sandbox.Abi
import GuestShell.Sandbox.Process

/-!
# The smaller interface

Fourteen functions for files and for the process itself.  Each gives a number that is not negative,
or an error code, which is negative.

`PosixCall` names the functions, `signature` says what they look like to a guest, and `perform` says
what they do.  A guest is entered at `main`, with its arguments laid out at the end of its memory, or
else at `_start` without any.
-/

namespace GuestShell

/-! ## Error codes -/

/-- The error codes. -/
inductive PosixError where
  | notFound
  | permissionDenied
  | alreadyExists
  | notADirectory
  | isADirectory
  /-- A bad argument, an area outside the memory included. -/
  | invalidArgument
  /-- The result does not fit. -/
  | noSpace
  | io
  | badDescriptor
  | notEmpty
  deriving DecidableEq, Repr

namespace PosixError

/-- The number of an error code. -/
def code : PosixError → Int32
  | notFound => -2
  | permissionDenied => -3
  | alreadyExists => -4
  | notADirectory => -5
  | isADirectory => -6
  | invalidArgument => -7
  | noSpace => -8
  | io => -9
  | badDescriptor => -10
  | notEmpty => -11

/-- The error code for a failure of the file tree. -/
def ofKind : FailureKind → PosixError
  | .notFound => notFound
  | .permissionDenied => permissionDenied
  | .alreadyExists => alreadyExists
  | .notADirectory => notADirectory
  | .isADirectory => isADirectory
  | .invalidInput => invalidArgument
  | .directoryNotEmpty => notEmpty
  | .other => io

instance : ErrorCode PosixError where
  ofKind := ofKind
  badAddress := invalidArgument

end PosixError

/-! ## The functions -/

/-- The functions of the interface. -/
inductive PosixCall where
  | read
  | write
  | open_
  | close
  | seek
  | exit
  | getenv
  | getcwd
  | stat
  | mkdir
  | readdir
  | rmdir
  | unlink
  | rename
  deriving DecidableEq, Repr

namespace PosixCall

/-- All functions, in the order of the table. -/
def all : List PosixCall :=
  [read, write, open_, close, seek, exit, getenv, getcwd, stat, mkdir, readdir, rmdir, unlink, rename]

/-- What a function looks like to a guest. -/
def signature (c : PosixCall) : Signature :=
  let function (name : String) (params : List ValueKind) (result : Option ValueKind) : Signature :=
    ⟨Abi.posixLibrary, name, params, result⟩
  match c with
  | read => function "read" [.i32, .i32, .i32] (some .i32)
  | write => function "write" [.i32, .i32, .i32] (some .i32)
  | open_ => function "open" [.i32, .i32, .i32] (some .i32)
  | close => function "close" [.i32] (some .i32)
  | seek => function "seek" [.i32, .i64, .i32] (some .i64)
  | exit => function "exit" [.i32] none
  | getenv => function "getenv" [.i32, .i32, .i32, .i32] (some .i32)
  | getcwd => function "getcwd" [.i32, .i32] (some .i32)
  | stat => function "stat" [.i32, .i32, .i32] (some .i32)
  | mkdir => function "mkdir" [.i32, .i32] (some .i32)
  | readdir => function "readdir" [.i32, .i32, .i32, .i32] (some .i32)
  | rmdir => function "rmdir" [.i32, .i32] (some .i32)
  | unlink => function "unlink" [.i32, .i32] (some .i32)
  | rename => function "rename" [.i32, .i32, .i32, .i32] (some .i32)

end PosixCall

namespace Posix

/-- The table that a module is linked against. -/
def table : List Signature := PosixCall.all.map PosixCall.signature

/-- A guest of this interface; its descriptors stand for open files. -/
abbrev Guest := Process Nat

/-- What the host does for such a guest. -/
abbrev Sys (α : Type) := System PosixError Nat α

/-! ### Descriptors and paths -/

/-- The first number given to an opened file; the ones below are the standard streams. -/
def firstFile : Nat := 3

/-- The directory that relative paths are seen from. -/
def workingDirectory : Path := Path.root

/-- The open file that a descriptor stands for. -/
def handle (fd : Int) : Sys Nat := do
  if fd < firstFile then System.fail .badDescriptor
  match (← System.process).descriptors.get? (fd - firstFile).toNat with
  | some h => return h
  | none => System.fail .badDescriptor

/-- The path that an area of memory names. -/
def path (address size : Nat) : Sys Path := do
  let text ← System.reading (·.readText address size)
  return workingDirectory.resolve text

/-! ### Streams and files -/

/-- Reads from a descriptor into memory. -/
def read (fd : Int) (address size : Nat) : Sys Int := do
  System.reading (·.check address size)
  let data ←
    if fd = 0 then System.readInput size
    else if fd = 1 ∨ fd = 2 then System.fail .invalidArgument
    else do
      let h ← handle fd
      System.onTree (FileTree.read h size)
  System.write address data
  return data.length

/-- Writes memory to a descriptor. -/
def write (fd : Int) (address size : Nat) : Sys Int := do
  let data ← System.reading (·.read address size)
  if fd = 1 then System.ask (.stdout data)
  else if fd = 2 then System.ask (.stderr data)
  else if fd = 0 then System.fail .invalidArgument
  else do
    let h ← handle fd
    let _ ← System.onTreeNow fun now => FileTree.write now h data
  return data.length

/-- Whether a flag word has a bit. -/
def hasBit (flags bit : Nat) : Bool := flags.testBit bit

/-- How a flag word says that a file is to be opened: bit 0 to write, bit 1 to read and write, bit 2
to create, bit 3 to truncate, bit 4 to append. -/
def openMode (flags : Nat) : OpenMode :=
  let both := hasBit flags 1
  let writes := both || hasBit flags 0
  { read := both || !writes
    write := writes
    create := hasBit flags 2
    truncate := hasBit flags 3
    append := hasBit flags 4 }

/-- Opens a file. -/
def open_ (p : Path) (flags : Nat) : Sys Int := do
  let h ← System.onTreeNow fun now => FileTree.openPath now p (openMode flags)
  let key ← System.addDescriptor h
  return key + firstFile

/-- Closes a descriptor; closing a standard stream does nothing. -/
def close (fd : Int) : Sys Int := do
  if 0 ≤ fd ∧ fd < firstFile then return 0
  let h ← handle fd
  System.dropDescriptor (fd - firstFile).toNat
  System.onTree (FileTree.close h)
  return 0

/-- What a position is counted from. -/
def origin (whence offset : Int) : Sys Origin :=
  if whence = 0 ∧ 0 ≤ offset then return .start offset.toNat
  else if whence = 1 then return .current offset
  else if whence = 2 then return .ending offset
  else System.fail .invalidArgument

/-- Moves the position of a file. -/
def seek (fd offset whence : Int) : Sys Int := do
  let h ← handle fd
  let o ← origin whence offset
  let position ← System.onTree (FileTree.seek h o)
  return position

/-! ### The process -/

/-- Puts a text into memory, as far as there is room for it. -/
def copyOut (address room : Nat) (bytes : Bytes) : Sys Int := do
  let part := bytes.take room
  System.write address part
  return part.length

/-- Looks up a name in the environment. -/
def getenv (name : String) (address room : Nat) : Sys Int := do
  match (← System.process).environment.find? fun e => e.1 == name with
  | some (_, value) => copyOut address room (Text.encode value)
  | none => return 0

/-- The working directory. -/
def getcwd (address room : Nat) : Sys Int := do
  let bytes := Text.encode workingDirectory.text
  if room < bytes.length then System.fail .noSpace
  copyOut address room bytes

/-! ### Places -/

/-- The record of a place: its size, whether it is a directory, and twice the second of its last
change. -/
def statRecord (m : Metadata) : Bytes :=
  let seconds := m.modified.toNat / 1000
  Bytes.word32 (min m.size (UInt32.size - 1)) ++ Bytes.word32 (if m.isDirectory then 1 else 0) ++
    Bytes.word64 seconds ++ Bytes.word64 seconds ++ Bytes.word64 0

/-- Describes a place. -/
def stat (p : Path) (address : Nat) : Sys Int := do
  let m ← System.onTree (FileTree.metadata p)
  System.write address (statRecord m)
  return 0

/-- The names that fit, each followed by a zero byte. -/
def listing (room : Nat) : List ListedName → Bytes
  | [] => []
  | e :: es =>
    let entry := Text.encode e.name ++ [0]
    if entry.length ≤ room then entry ++ listing (room - entry.length) es else []

/-- Lists a directory. -/
def readdir (p : Path) (address room : Nat) : Sys Int := do
  let names ← System.onTree (FileTree.list p)
  let bytes := listing room names
  System.write address bytes
  return bytes.length

/-- An action on the tree that gives nothing. -/
def change (a : Moment → FileTree.Action Unit) : Sys Int := do
  System.onTreeNow a
  return 0

/-! ### All together -/

/-- The argument at a place; a missing one is 0. -/
def argument (args : List Value) (k : Nat) : Value := args.getD k (.i32 0)

/-- Does what a function is for. -/
def perform (c : PosixCall) (args : List Value) : Sys Int :=
  let int (k : Nat) : Int := (argument args k).narrow.toInt
  let nat (k : Nat) : Nat := (argument args k).address
  match c with
  | .read => read (int 0) (nat 1) (nat 2)
  | .write => write (int 0) (nat 1) (nat 2)
  | .open_ => do open_ (← path (nat 0) (nat 1)) (nat 2)
  | .close => close (int 0)
  | .seek => seek (int 0) (argument args 1).wide.toInt (int 2)
  | .exit => System.stop (.exit (argument args 0).narrow)
  | .getenv => do
    let name ← System.reading (·.readText (nat 0) (nat 1))
    getenv name (nat 2) (nat 3)
  | .getcwd => getcwd (nat 0) (nat 1)
  | .stat => do stat (← path (nat 0) (nat 1)) (nat 2)
  | .mkdir => do
    let p ← path (nat 0) (nat 1)
    change fun now => FileTree.makeDirectory now p
  | .readdir => do readdir (← path (nat 0) (nat 1)) (nat 2) (nat 3)
  | .rmdir => do
    let p ← path (nat 0) (nat 1)
    change fun _ => FileTree.removeDirectory p
  | .unlink => do
    let p ← path (nat 0) (nat 1)
    change fun _ => FileTree.removeFile p
  | .rename => do
    let source ← path (nat 0) (nat 1)
    let target ← path (nat 2) (nat 3)
    change fun _ => FileTree.rename source target

/-- The word that a number becomes in the width of the function's result. -/
def resultWord (c : PosixCall) (n : Int) : Value :=
  if c.signature.result = some .i64 then .i64 (Int64.ofInt n) else .i32 (Int32.ofInt n)

/-- Calls a function of the table; an error code is a result like any other. -/
def call (index : Nat) (args : List Value) (g : Guest) :
    Running (Except HostStop (Option Value) × Guest) :=
  match PosixCall.all[index]? with
  | none => return (.error (.fault "no such function"), g)
  | some c => ((perform c args).run g).bind fun r =>
    match r.1 with
    | .ok n => return (.ok (some (resultWord c n)), r.2)
    | .error (.code e) => return (.ok (some (resultWord c e.code.toInt)), r.2)
    | .error (.stop s) => return (.error s, r.2)

/-! ## The beginning of a run -/

/-- The bytes that arguments take in memory: each with a zero byte after it, and a pointer to each,
with a null pointer after them. -/
def argumentsSize (args : List String) : Nat :=
  Text.terminatedLength args + (args.length + 1) * 4

/-- The arguments one after another, each with a zero byte after it. -/
def argumentTexts (args : List String) : Bytes :=
  args.flatMap fun a => Text.encode a ++ [0]

/-- Where each of the arguments lies when the first lies at `base`. -/
def argumentPointers (base : Nat) : List String → List Nat
  | [] => []
  | a :: args => base :: argumentPointers (base + Text.byteLength a + 1) args

/-- The arguments as they lie in memory from `base` on, the pointers behind the texts. -/
def argumentBlock (base : Nat) (args : List String) : Bytes :=
  argumentTexts args ++ (argumentPointers base args ++ [0]).flatMap Bytes.word32

/-- Where the arguments begin in a memory: as far up as they fit, at a multiple of 16. -/
def argumentBase (memorySize total : Nat) : Nat := (memorySize - total) / 16 * 16

/-- Chooses the entry point and lays the arguments out for it. -/
def enter (exports : List String) (argv : List String) (m : Memory) :
    Except EngineError EntryCall × Memory :=
  if !exports.contains "main" then
    if exports.contains "_start" then (.ok ⟨"_start", []⟩, m)
    else (.error (.missingExport "main"), m)
  else
    let total := argumentsSize argv
    if m.size = 0 then (.error (.missingExport "memory"), m)
    else if m.size < total then (.error (m.outside 0 total), m)
    else
      let base := argumentBase m.size total
      match m.write base (argumentBlock base argv) with
      | .error e => (.error e, m)
      | .ok m =>
        let pointers := base + (argumentTexts argv).length
        (.ok ⟨"main", [.i32 (Int32.ofNat argv.length), .i32 (Int32.ofNat pointers)]⟩, m)

/-- A guest with its files, before its memory is known. -/
def Guest.start (now : Moment) (i : Invocation) : Guest where
  memory := .empty
  tree := (FileTree.fresh now).load now i.files
  descriptors := Slots.empty
  stdin := .start .stream i.input
  argv := i.argv
  environment := defaultEnvironment
  random := 1

end Posix

end GuestShell
