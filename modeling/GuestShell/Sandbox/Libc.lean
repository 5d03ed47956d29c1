import GuestShell.Sandbox.LibcTable

/-!
# The larger interface

A guest of this interface sees character devices under the descriptors 0 to 2 and the top of the tree
under 3 and 4, which were open from the beginning.  Every function gives an error code, 0 for
success; results go into memory, where the arguments say.

Four devices are mounted in every tree.  Their places are reserved: no file there is ever reported.
Clocks, random bytes and most of the functions on files work; waiting and sockets are not supported.
-/

namespace GuestShell

/-! ## Guests -/

/-- What a descriptor stands for. -/
inductive Descriptor where
  | device (d : Device)
  /-- A directory; one that was open from the beginning has a name. -/
  | directory (p : Path) (preopen : Option String)
  | file (handle : Nat) (append : Bool)
  deriving DecidableEq

namespace Libc

/-- A guest of this interface. -/
abbrev Guest := Process Descriptor

/-- What the host does for such a guest. -/
abbrev Sys (α : Type) := System LibcError Descriptor α

/-- The devices of every tree, and where they are mounted. -/
def devices : List (String × Device) :=
  [("/dev/stdin", .stdin), ("/dev/stdout", .stdout), ("/dev/stderr", .stderr), ("/dev/tty", .tty)]

/-- The places of the devices. -/
def reservedPaths : List String := devices.map (·.1)

/-- Mounts a device where that can be done. -/
def withDevice (now : Moment) (t : FileTree) (d : String × Device) : FileTree :=
  FileTree.after (FileTree.mount now (Path.ofText d.1) d.2) t

/-- The descriptors that are open from the beginning. -/
def initialDescriptors : List Descriptor :=
  [.device .stdin, .device .stdout, .device .stderr, .directory Path.root (some "/"),
    .directory Path.root (some ".")]

/-- A guest with its files, before its memory is known. -/
def Guest.start (now : Moment) (environment : List (String × String)) (i : Invocation) : Guest where
  memory := .empty
  tree := devices.foldl (withDevice now) ((FileTree.fresh now).load now i.files)
  descriptors := initialDescriptors.foldl Slots.insert Slots.empty
  stdin := .start .alternate i.input
  argv := i.argv
  environment := environment
  random := UInt64.ofNat (nanoseconds now) ||| 1

/-! ### Descriptors and paths -/

/-- What a descriptor stands for. -/
def descriptor (fd : Int) : Sys Descriptor := do
  if fd < 0 then System.fail .badDescriptor
  match (← System.process).descriptors.get? fd.toNat with
  | some d => return d
  | none => System.fail .badDescriptor

/-- The directory that a descriptor stands for. -/
def directory (fd : Int) : Sys Path := do
  match ← descriptor fd with
  | .directory p _ => return p
  | _ => System.fail .notDirectory

/-- The path that an area of memory names, seen from a directory. -/
def path (fd : Int) (address size : Nat) : Sys Path := do
  let base ← directory fd
  let text ← System.reading (·.readText address size)
  return base.resolve text

/-- The device mounted at a place. -/
def deviceAt? (p : Path) : Sys (Option Device) := do
  return (← System.process).tree.device? p

/-! ### Arguments and environment -/

/-- The sum of two addresses.  Addresses have 32 bits, and what does not fit is lost. -/
def sum (a b : Nat) : Nat := (a + b) % UInt32.size

/-- Puts texts one after another from `target` on, each with a zero byte after it, and a pointer to
each from `pointers` on. -/
def writeTexts (pointers target : Nat) : List String → Sys Unit
  | [] => return
  | s :: rest => do
    let bytes := Text.encode s
    System.writing (·.writeWord32 pointers target)
    System.write target bytes
    System.write (sum target bytes.length) [0]
    writeTexts (sum pointers 4) (sum target (bytes.length + 1)) rest

/-- Puts the number of texts and the bytes they take into memory. -/
def writeSizes (countAt sizeAt : Nat) (texts : List String) : Sys Unit := do
  System.writing (·.writeWord32 countAt texts.length)
  System.writing (·.writeWord32 sizeAt (Text.terminatedLength texts))

/-- The environment as texts. -/
def environmentTexts (environment : List (String × String)) : List String :=
  environment.map fun e => e.1 ++ "=" ++ e.2

/-! ### Streams and files -/

/-- An area that a vector names. -/
structure Area where
  address : Nat
  size : Nat

/-- The areas in a vector of address and size words. -/
def areasOf : Bytes → List Area
  | a :: b :: c :: d :: e :: f :: g :: h :: rest =>
    ⟨Bytes.ofLittleEndian [a, b, c, d], Bytes.ofLittleEndian [e, f, g, h]⟩ :: areasOf rest
  | _ => []

/-- The areas that a vector in memory names. -/
def areas (address count : Nat) : Sys (List Area) := do
  if UInt32.size ≤ count * 8 then System.fail .invalid
  return areasOf (← System.reading (·.read address (count * 8)))

/-- Bytes from what a descriptor stands for. -/
def readFrom (d : Descriptor) (size : Nat) : Sys Bytes :=
  match d with
  | .device .stdin | .device .tty => System.readInput size
  | .device _ => System.fail .badDescriptor
  | .directory _ _ => System.fail .isDirectory
  | .file h _ => System.onTree (FileTree.read h size)

/-- Whether a descriptor stands for a device. -/
def Descriptor.isDevice : Descriptor → Bool
  | .device _ => true
  | _ => false

/-- Reads into one area after another until one is not filled; a device fills one area at most. -/
def readAreas (d : Descriptor) (total : Nat) : List Area → Sys Nat
  | [] => return total
  | a :: rest =>
    if a.size = 0 then readAreas d total rest
    else do
      System.reading (·.check a.address a.size)
      let data ← readFrom d a.size
      System.write a.address data
      let total := total + data.length
      if Descriptor.isDevice d || data.length < a.size then return total
      else readAreas d total rest

/-- Reads into the areas of a vector. -/
def fdRead (fd : Int) (vector count resultAt : Nat) : Sys Unit := do
  let d ← descriptor fd
  let total ← readAreas d 0 (← areas vector count)
  System.writing (·.writeWord32 resultAt total)

/-- The bytes of areas, one after another. -/
def gather : List Area → Sys Bytes
  | [] => return []
  | a :: rest => do
    let bytes ← System.reading (·.read a.address a.size)
    return bytes ++ (← gather rest)

/-- Writes bytes to what a descriptor stands for. -/
def writeTo (d : Descriptor) (data : Bytes) : Sys Unit :=
  match d with
  | .device .stdout | .device .tty => System.ask (.stdout data)
  | .device .stderr => System.ask (.stderr data)
  | .device .stdin => System.fail .badDescriptor
  | .directory _ _ => System.fail .isDirectory
  | .file h _ => do
    let _ ← System.onTreeNow fun now => FileTree.write now h data

/-- Writes the areas of a vector. -/
def fdWrite (fd : Int) (vector count resultAt : Nat) : Sys Unit := do
  let d ← descriptor fd
  let data ← gather (← areas vector count)
  writeTo d data
  System.writing (·.writeWord32 resultAt data.length)

/-- What a position is counted from. -/
def origin (whence : Nat) (offset : Int) : Sys Origin :=
  if whence = 0 ∧ 0 ≤ offset then return .start offset.toNat
  else if whence = 1 then return .current offset
  else if whence = 2 then return .ending offset
  else System.fail .invalid

/-- Moves the position of a file. -/
def fdSeek (fd offset : Int) (whence : Nat) : Sys Nat := do
  match ← descriptor fd with
  | .file h _ => do
    let o ← origin whence offset
    System.onTree (FileTree.seek h o)
  | .device _ => System.fail .seekOnStream
  | .directory _ _ => System.fail .isDirectory

/-- Closes a descriptor. -/
def fdClose (fd : Int) : Sys Unit := do
  let d ← descriptor fd
  System.dropDescriptor fd.toNat
  match d with
  | .file h _ => System.onTree (FileTree.close h)
  | _ => return

/-! ### Records -/

/-- Describes a descriptor. -/
def fdFdstatGet (fd : Int) (address : Nat) : Sys Unit := do
  let record := match ← descriptor fd with
    | .device _ => descriptorRecord .characterDevice false
    | .directory _ _ => descriptorRecord .directory false
    | .file _ append => descriptorRecord .regularFile append
  System.write address record

/-- Describes what a descriptor stands for. -/
def fdFilestatGet (fd : Int) (address : Nat) : Sys Unit := do
  let record ← match ← descriptor fd with
    | .device _ => pure deviceRecord
    | .directory p _ => fileRecordOf .directory <$> System.onTree (FileTree.metadata p)
    | .file h _ => fileRecordOf .regularFile <$> System.onTree (FileTree.handleMetadata h)
  System.write address record

/-- Cuts or extends a file. -/
def fdFilestatSetSize (fd : Int) (size : Nat) : Sys Unit := do
  match ← descriptor fd with
  | .file h _ => System.onTreeNow fun now => FileTree.setLength now h size
  | _ => System.fail .badDescriptor

/-- The name of a directory that was open from the beginning. -/
def preopenName (fd : Int) : Sys String := do
  match ← descriptor fd with
  | .directory _ (some name) => return name
  | _ => System.fail .badDescriptor

/-- Describes a place. -/
def pathFilestatGet (p : Path) (address : Nat) : Sys Unit := do
  let record ← match ← deviceAt? p with
    | some _ => pure deviceRecord
    | none => do
      let m ← System.onTree (FileTree.metadata p)
      pure (fileRecordOf (if m.isDirectory then .directory else .regularFile) m)
  System.write address record

/-! ### Places -/

/-- The kind of one line of a listing. -/
def listedType (t : FileTree) (p : Path) (e : ListedName) : FileType :=
  if e.isDirectory then .directory
  else if (t.device? (p.resolve e.name)).isSome then .characterDevice
  else .regularFile

/-- All names of a directory with their kinds, itself and its parent first. -/
def listed (p : Path) : Sys (List (String × FileType)) := do
  let names ← System.onTree (FileTree.list p)
  let t := (← System.process).tree
  return [(".", .directory), ("..", .directory)] ++ names.map fun e => (e.name, listedType t p e)

/-- Lines of a listing, numbered from `serial` on, until there is no room left. -/
def entryBytes (room serial : Nat) : List (String × FileType) → Bytes
  | [] => []
  | e :: es =>
    if room = 0 then []
    else
      let name := Text.encode e.1
      let entry := entryRecord (serial + 1) name.length e.2 ++ name
      entry ++ entryBytes (room - entry.length) (serial + 1) es

/-- Lists a directory from a line on.  The last line may be cut; a full area tells the guest to come
back. -/
def fdReaddir (fd : Int) (address room cookie usedAt : Nat) : Sys Unit := do
  let p ← directory fd
  let entries ← listed p
  let bytes := (entryBytes room cookie (entries.drop cookie)).take room
  System.write address bytes
  System.writing (·.writeWord32 usedAt bytes.length)

/-- How a place is to be opened. -/
structure OpenFlags where
  create : Bool
  directory : Bool
  exclusive : Bool
  truncate : Bool
  read : Bool
  write : Bool
  append : Bool

/-- The flags in three words: bits 0 to 3 of the first say create, directory, exclusive and truncate,
bits 1 and 6 of the rights say read and write, and bit 0 of the last says append. -/
def OpenFlags.ofWords (flags rights descriptorFlags : Nat) : OpenFlags where
  create := flags.testBit 0
  directory := flags.testBit 1
  exclusive := flags.testBit 2
  truncate := flags.testBit 3
  read := rights.testBit 1
  write := rights.testBit 6
  append := descriptorFlags.testBit 0

/-- Whether a directory is at a place. -/
def isDirectory (p : Path) : Sys Bool := do
  match (← System.process).tree.node? p with
  | some (.directory _) => return true
  | _ => return false

/-- Opens a place for a new descriptor. -/
def openPlace (p : Path) (f : OpenFlags) : Sys Descriptor := do
  match ← deviceAt? p with
  | some d => return .device d
  | none =>
    if ← isDirectory p then
      if f.create && f.exclusive then System.fail .exists_
      else if f.truncate then System.fail .isDirectory
      else return .directory p none
    else if f.directory then
      if (← System.process).tree.hasPlace p then System.fail .notDirectory
      else System.fail .noEntry
    else do
      let mode : OpenMode :=
        { read := f.read
          write := f.write || f.append
          create := f.create
          exclusive := f.exclusive
          truncate := f.truncate
          append := f.append }
      let h ← System.onTreeNow fun now => FileTree.openPath now p mode
      return .file h f.append

/-- Opens a place and puts the number of its descriptor into memory. -/
def pathOpen (p : Path) (f : OpenFlags) (resultAt : Nat) : Sys Unit := do
  let d ← openPlace p f
  let fd ← System.addDescriptor d
  System.writing (·.writeWord32 resultAt fd)

/-- Removes a file; devices stay. -/
def pathUnlinkFile (p : Path) : Sys Unit := do
  match ← deviceAt? p with
  | some _ => System.fail .access
  | none => System.onTree (FileTree.removeFile p)

/-! ### Clocks and random bytes -/

/-- Whether a number names a clock. -/
def isClock (k : Nat) : Bool := k ≤ 3

/-- The resolution of every clock, in nanoseconds. -/
def clockResolution : Nat := 1000000

/-- The next state of the source of random bytes, which is also its next value. -/
def nextRandom (x : UInt64) : UInt64 :=
  let x := x ^^^ (x <<< 13)
  let x := x ^^^ (x >>> 7)
  x ^^^ (x <<< 17)

/-- A number of values of the source, lowest byte first, and its state after them. -/
def randomWords (x : UInt64) : Nat → Bytes × UInt64
  | 0 => ([], x)
  | n + 1 =>
    let x := nextRandom x
    let (bytes, last) := randomWords x n
    (Bytes.word64 x.toNat ++ bytes, last)

/-- Puts random bytes into memory. -/
def randomGet (address size : Nat) : Sys Unit := do
  System.reading (·.check address size)
  let (bytes, last) := randomWords (← System.process).random ((size + 7) / 8)
  System.update fun p => { p with random := last }
  System.write address (bytes.take size)

/-! ### All together -/

/-- Does what a function is for. -/
def perform (c : LibcCall) (args : List Value) : Sys Unit :=
  let arg (k : Nat) : Value := args.getD k (.i32 0)
  let int (k : Nat) : Int := (arg k).narrow.toInt
  let nat (k : Nat) : Nat := (arg k).address
  let wide (k : Nat) : Nat := (arg k).wide.toUInt64.toNat
  match c with
  | .argsGet => do writeTexts (nat 0) (nat 1) (← System.process).argv
  | .argsSizesGet => do writeSizes (nat 0) (nat 1) (← System.process).argv
  | .environGet => do
    writeTexts (nat 0) (nat 1) (environmentTexts (← System.process).environment)
  | .environSizesGet => do
    writeSizes (nat 0) (nat 1) (environmentTexts (← System.process).environment)
  | .clockResGet =>
    if isClock (nat 0) then System.writing (·.writeWord64 (nat 1) clockResolution)
    else System.fail .invalid
  | .clockTimeGet =>
    if isClock (nat 0) then do
      let now : Moment ← System.ask .clock
      System.writing (·.writeWord64 (nat 2) (nanoseconds now))
    else System.fail .invalid
  | .fdAdvise | .fdDatasync | .fdSync | .fdFdstatSetFlags => do
    let _ ← descriptor (int 0)
  | .fdClose => fdClose (int 0)
  | .fdFdstatGet => fdFdstatGet (int 0) (nat 1)
  | .fdFilestatGet => fdFilestatGet (int 0) (nat 1)
  | .fdFilestatSetSize => fdFilestatSetSize (int 0) (wide 1)
  | .fdPrestatGet => do
    let name ← preopenName (int 0)
    System.write (nat 1) (preopenRecord (Text.byteLength name))
  | .fdPrestatDirName => do
    let name ← preopenName (int 0)
    System.write (nat 1) ((Text.encode name).take (nat 2))
  | .fdRead => fdRead (int 0) (nat 1) (nat 2) (nat 3)
  | .fdReaddir => fdReaddir (int 0) (nat 1) (nat 2) (wide 3) (nat 4)
  | .fdSeek => do
    let position ← fdSeek (int 0) (arg 1).wide.toInt (nat 2 % 256)
    System.writing (·.writeWord64 (nat 3) position)
  | .fdTell => do
    let position ← fdSeek (int 0) 0 1
    System.writing (·.writeWord64 (nat 1) position)
  | .fdWrite => fdWrite (int 0) (nat 1) (nat 2) (nat 3)
  | .pathCreateDirectory => do
    let p ← path (int 0) (nat 1) (nat 2)
    System.onTreeNow fun now => FileTree.makeDirectory now p
  | .pathFilestatGet => do pathFilestatGet (← path (int 0) (nat 2) (nat 3)) (nat 4)
  | .pathOpen => do
    let p ← path (int 0) (nat 2) (nat 3)
    pathOpen p (.ofWords (nat 4) (wide 5) (nat 7)) (nat 8)
  | .pathRemoveDirectory => do
    let p ← path (int 0) (nat 1) (nat 2)
    System.onTree (FileTree.removeDirectory p)
  | .pathRename => do
    let source ← path (int 0) (nat 1) (nat 2)
    let target ← path (int 3) (nat 4) (nat 5)
    System.onTree (FileTree.rename source target)
  | .pathUnlinkFile => do pathUnlinkFile (← path (int 0) (nat 1) (nat 2))
  | .procExit => System.stop (.exit (arg 0).narrow)
  | .randomGet => randomGet (nat 0) (nat 1)
  | .schedYield => return
  | .pollOneoff | .sockAccept | .sockRecv | .sockSend | .sockShutdown => System.fail .notSupported

/-- Calls a function of the table; its result is its error code. -/
def call (index : Nat) (args : List Value) (g : Guest) :
    Running (Except HostStop (Option Value) × Guest) :=
  match LibcCall.all[index]? with
  | none => return (.error (.fault "no such function"), g)
  | some c => ((perform c args).run g).bind fun r =>
    match r.1 with
    | .ok () => return (.ok (some (.i32 0)), r.2)
    | .error (.code e) => return (.ok (some (.i32 e.code)), r.2)
    | .error (.stop s) => return (.error s, r.2)

/-- Chooses the entry point. -/
def enter (exports : List String) : Except EngineError EntryCall :=
  if exports.contains "_start" then .ok ⟨"_start", []⟩ else .error (.missingExport "_start")

end Libc

end GuestShell
