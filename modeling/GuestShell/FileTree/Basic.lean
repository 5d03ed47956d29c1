import GuestShell.FileTree.Error
import GuestShell.Slots
import GuestShell.Text.Utf8

/-!
# File trees

The file system of one run.  A tree maps places to nodes, and its open files are kept under handles
in a slot table.  An open file remembers its place, not its node, so every access looks the node up
again; a file that moves takes its handles along.

Operations are actions: they change the tree and may fail, and a failure does not undo what was done
before it.  Which operations change nothing when they fail is a fact about the order of their checks
and not about the type.  Operations that change a file take the time of the change.
-/

namespace GuestShell

/-- A moment, in milliseconds since the epoch. -/
abbrev Moment := UInt64

/-- The character devices that can be mounted. -/
inductive Device where
  | stdin
  | stdout
  | stderr
  /-- Reads from standard input and writes to standard output. -/
  | tty
  deriving DecidableEq, Repr

/-- What can be at a place. -/
inductive Node where
  | file (data : Bytes) (modified : Moment)
  | directory (modified : Moment)
  | device (d : Device)
  deriving DecidableEq

/-- A file that was opened: where it is, where the next access begins, and what is allowed. -/
structure OpenFile where
  path : Path
  position : Nat
  readable : Bool
  writable : Bool
  append : Bool
  deriving DecidableEq

/-- Nodes at places, and the open files under their handles. -/
structure FileTree where
  nodes : Dict Path Node
  opened : Slots OpenFile

/-- How a file is to be opened. -/
structure OpenMode where
  read : Bool := true
  write : Bool := false
  create : Bool := false
  truncate : Bool := false
  append : Bool := false
  /-- Together with `create`: fail if something is there. -/
  exclusive : Bool := false

/-- What is known about a place without reading it. -/
structure Metadata where
  size : Nat
  isDirectory : Bool
  isFile : Bool
  modified : Moment

/-- One line of a directory listing. -/
structure ListedName where
  name : String
  isDirectory : Bool

/-- What a new position is counted from. -/
inductive Origin where
  /-- The start; the offset is a 64-bit word. -/
  | start (offset : Nat)
  | current (offset : Int)
  | ending (offset : Int)

namespace FileTree

/-- Operations that change a tree and may fail. -/
abbrev Action (α : Type) := EStateM FileError FileTree α

/-- A tree with nothing but its root. -/
def fresh (now : Moment) : FileTree where
  nodes := Dict.empty.insert Path.root (.directory now)
  opened := Slots.empty

/-! ## Looking -/

/-- The node at a place. -/
def node? (t : FileTree) (p : Path) : Option Node := t.nodes.find? p

/-- Whether something is at a place. -/
def hasPlace (t : FileTree) (p : Path) : Bool := (t.node? p).isSome

/-- The device mounted at a place. -/
def device? (t : FileTree) (p : Path) : Option Device :=
  match t.node? p with
  | some (.device d) => some d
  | _ => none

/-- Whether anything lies below a place. -/
def hasBelow (t : FileTree) (p : Path) : Bool :=
  t.nodes.keys.any p.isAbove

/-- Puts a node at a place. -/
def withNode (t : FileTree) (p : Path) (n : Node) : FileTree :=
  { t with nodes := t.nodes.insert p n }

/-- Leaves nothing at a place. -/
def withoutNode (t : FileTree) (p : Path) : FileTree :=
  { t with nodes := t.nodes.erase p }

/-- The open file under a handle. -/
def openFile (handle : Nat) : Action OpenFile := do
  match (← get).opened.get? handle with
  | some f => return f
  | none => throw .badHandle

/-- The contents at a place and the time of their last change. -/
def fileAt (p : Path) : Action (Bytes × Moment) := do
  match (← get).node? p with
  | some (.file data modified) => return (data, modified)
  | _ => throw (.noFile p)

/-- Fails unless a directory holds the place. -/
def requireParent (p : Path) : Action Unit := do
  match p.parent? with
  | none => return
  | some parent =>
    match (← get).node? parent with
    | some (.directory _) => return
    | some _ => throw .parentIsNoDirectory
    | none => throw (.noParent parent)

/-- The place of an open file. -/
def handlePath (handle : Nat) : Action Path := do
  return (← openFile handle).path

/-- What is known about a place. -/
def metadata (p : Path) : Action Metadata := do
  match (← get).node? p with
  | some (.file data modified) => return ⟨data.length, false, true, modified⟩
  | some (.directory modified) => return ⟨0, true, false, modified⟩
  | some (.device _) => return ⟨0, false, false, 0⟩
  | none => throw (.noPlace p)

/-- What is known about an open file.  The look-up goes by the text of its place, so a place that is
adrift is taken for the anchored one. -/
def handleMetadata (handle : Nat) : Action Metadata := do
  metadata (← handlePath handle).anchored

/-- The names in a directory, in ascending order. -/
def list (p : Path) : Action (List ListedName) := do
  let t ← get
  match t.node? p with
  | some (.directory _) =>
    return t.nodes.entries.filterMap fun (q, n) =>
      if p.isParentOf q then
        q.name?.map fun name =>
          ⟨name, match n with
            | .directory _ => true
            | _ => false⟩
      else none
  | some _ => throw .listsNonDirectory
  | none => throw (.noDirectory p)

/-! ## Open files -/

/-- Opens a file and gives its handle. -/
def openPath (now : Moment) (p : Path) (mode : OpenMode) : Action Nat := do
  match (← get).node? p with
  | none =>
    if !mode.create then throw (.noFile p)
    requireParent p
    modify (·.withNode p (.file [] now))
  | some n =>
    if mode.create && mode.exclusive then throw (.fileExists p)
    match n with
    | .directory _ => throw .opensDirectory
    | .device _ => throw .opensDevice
    | .file _ _ => if mode.truncate then modify (·.withNode p (.file [] now))
  let t ← get
  set { t with
    opened := t.opened.insert
      ⟨p, 0, mode.read, mode.write || mode.append, mode.append⟩ }
  return t.opened.next

/-- Closes a handle. -/
def close (handle : Nat) : Action Unit := do
  let _ ← openFile handle
  modify fun t => { t with opened := t.opened.remove handle }

/-- Moves the position of an open file. -/
def setPosition (handle position : Nat) : Action Unit :=
  modify fun t => { t with opened := t.opened.modify handle fun f => { f with position := position } }

/-- Reads at most `len` bytes from the position on. -/
def read (handle len : Nat) : Action Bytes := do
  let f ← openFile handle
  if !f.readable then throw .notReadable
  let (data, _) ← fileAt f.path
  let chunk := (data.drop f.position).take len
  setPosition handle (f.position + chunk.length)
  return chunk

/-- The longest a file can be. -/
def maxLength : Nat := 1 <<< 63 - 1

/-- Contents cut, or filled up with zeros, to a length. -/
def resized (data : Bytes) (size : Nat) : Bytes :=
  data.take size ++ List.replicate (size - data.length) 0

/-- Contents after `chunk` was written at `position`; what lies between the end of the contents and
the position is zero. -/
def overwritten (data : Bytes) (position : Nat) (chunk : Bytes) : Bytes :=
  let data := if data.length < position + chunk.length then
    resized data (position + chunk.length) else data
  data.take position ++ chunk ++ data.drop (position + chunk.length)

/-- Writes at the position, or at the end for a file opened to append. -/
def write (now : Moment) (handle : Nat) (chunk : Bytes) : Action Nat := do
  let f ← openFile handle
  if !f.writable then throw .notWritable
  let (data, _) ← fileAt f.path
  let position := if f.append then data.length else f.position
  if maxLength < position + chunk.length then throw .tooLong
  modify (·.withNode f.path (.file (overwritten data position chunk) now))
  setPosition handle (position + chunk.length)
  return chunk.length

/-- A 64-bit word read as a signed number. -/
def signed64 (n : Nat) : Int := Int.bmod n UInt64.size

/-- The position an origin stands for, if it is one. -/
def Origin.position? (size current : Nat) (o : Origin) : Option Nat :=
  let p : Int :=
    match o with
    | .start n => signed64 n
    | .ending n => signed64 size + n
    | .current n => signed64 current + n
  if 0 ≤ p ∧ p ≤ maxLength then some p.toNat else none

/-- Moves the position of an open file and gives the new one. -/
def seek (handle : Nat) (origin : Origin) : Action Nat := do
  let f ← openFile handle
  let (data, _) ← fileAt f.path
  match Origin.position? data.length f.position origin with
  | some p =>
    setPosition handle p
    return p
  | none => throw .negativePosition

/-- Cuts or extends an open file. -/
def setLength (now : Moment) (handle size : Nat) : Action Unit := do
  let p ← handlePath handle
  let (data, _) ← fileAt p
  if maxLength < size then throw .tooLong
  modify (·.withNode p (.file (resized data size) now))

/-! ## Places -/

/-- Makes a directory. -/
def makeDirectory (now : Moment) (p : Path) : Action Unit := do
  if (← get).hasPlace p then throw .placeExists
  requireParent p
  modify (·.withNode p (.directory now))

/-- Makes each of the given directories that is missing. -/
def makeMissing (now : Moment) : List Path → Action Unit
  | [] => return
  | p :: ps => do
    match (← get).node? p with
    | some (.directory _) => pure ()
    | some _ => throw .partIsNoDirectory
    | none => modify (·.withNode p (.directory now))
    makeMissing now ps

/-- Makes a directory and every missing directory on the way to it. -/
def makeDirectories (now : Moment) (p : Path) : Action Unit :=
  makeMissing now p.way

/-- Mounts a device, making the directories on the way to it; whatever was at its place is gone. -/
def mount (now : Moment) (p : Path) (d : Device) : Action Unit := do
  match p.parent? with
  | none => pure ()
  | some parent => makeDirectories now parent
  modify (·.withNode p (.device d))

/-- Removes a file. -/
def removeFile (p : Path) : Action Unit := do
  match (← get).node? p with
  | some (.file _ _) => modify (·.withoutNode p)
  | some (.directory _) => throw .unlinksDirectory
  | some (.device _) => throw .unlinksDevice
  | none => throw (.noFile p)

/-- Removes an empty directory. -/
def removeDirectory (p : Path) : Action Unit := do
  if p = Path.root then throw .removesRoot
  let t ← get
  match t.node? p with
  | some (.directory _) =>
    if t.hasBelow p then throw .directoryNotEmpty
    set (t.withoutNode p)
  | some _ => throw .removesNonDirectory
  | none => throw (.noDirectory p)

/-- Moves one node. -/
def moveNode (source target : Path) (nodes : Dict Path Node) (p : Path) : Dict Path Node :=
  match nodes.find? p with
  | some n => (nodes.erase p).insert (Path.moved source target p) n
  | none => nodes

/-- Whether a place is at `p` or below it. -/
def covers (p q : Path) : Bool := p == q || p.isAbove q

/-- The tree after everything at and below `source` moved to `target`, open files included. -/
def transplanted (t : FileTree) (source target : Path) : FileTree where
  nodes := (t.nodes.keys.filter (covers source)).foldl (moveNode source target) t.nodes
  opened := t.opened.map fun f =>
    if covers source f.path then { f with path := Path.moved source target f.path } else f

/-- Moves a file, a device or a whole directory.  A file or an empty directory at the target is
replaced. -/
def rename (source target : Path) : Action Unit := do
  if source = target then return
  if !(← get).hasPlace source then throw (.noPlace source)
  if source.isAbove target then throw .movesIntoItself
  requireParent target
  let t ← get
  match t.node? target with
  | some (.directory _) => if t.hasBelow target then throw .targetNotEmpty
  | _ => pure ()
  set (t.transplanted source target)

/-! ## Whole files -/

/-- Runs an action and then closes a handle; a failure of closing hides one of the action. -/
def closing {α : Type} (handle : Nat) (a : Action α) : Action α := do
  let result ← tryCatch (Except.ok <$> a) fun e => return Except.error e
  close handle
  match result with
  | .ok v => return v
  | .error e => throw e

/-- All bytes of a file. -/
def readWhole (now : Moment) (p : Path) : Action Bytes := do
  let m ← metadata p
  let handle ← openPath now p {}
  closing handle (read handle m.size)

/-- Replaces all bytes of a file, creating it if it is missing. -/
def writeWhole (now : Moment) (p : Path) (data : Bytes) : Action Unit := do
  let mode : OpenMode := ⟨true, true, true, true, false, false⟩
  let handle ← openPath now p mode
  let _ ← closing handle (write now handle data)

end FileTree

end GuestShell
