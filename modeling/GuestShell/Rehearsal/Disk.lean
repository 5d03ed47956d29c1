import GuestShell.Disk.Error
import GuestShell.FileTree.Snapshot

/-!
# A disk for rehearsals

A disk is a tree of files with a directory in which the terminal was started.  A path is followed
piece by piece, and every piece but the last must lead to a directory, also one that is empty or goes
up again.
-/

namespace GuestShell.Rehearsal

/-- The files of a machine, and the directory that paths start from. -/
structure Disk where
  tree : FileTree
  here : Path

namespace Disk

/-- The directory in which the terminal is started. -/
def home : Path := .ofText "/home/guest"

/-- A disk with nothing on it. -/
def empty : Disk := ⟨FileTree.after (FileTree.makeDirectories 0 home) (.fresh 0), home⟩

/-- Adds a file, or a directory if there are no contents. -/
def add (d : Disk) (path : String) (contents : Option Bytes) : Disk :=
  let p := d.here.resolve path
  let put : FileTree.Action Unit :=
    match contents with
    | some bytes => FileTree.loadFile 0 ⟨p.text, 0, bytes⟩
    | none => FileTree.makeDirectories 0 p
  { d with tree := FileTree.after put d.tree }

/-- The longest a name can be, in bytes. -/
def maxName : Nat := 255

/-- The longest a path can be, in bytes. -/
def maxPath : Nat := 4095

/-- Follows one piece of a path. -/
def follow (t : FileTree) (p : Path) (piece : List Char) : Except DiskError Path :=
  match t.node? p with
  | some (.directory _) =>
    let q := p.walk piece
    if maxName < Text.byteLength (String.ofList piece) then .error .nameTooLong
    else if t.hasPlace q then .ok q
    else .error .noEntry
  | some _ => .error .notADirectory
  | none => .error .noEntry

/-- The place that a path leads to. -/
def place (d : Disk) (path : String) : Except DiskError Path :=
  if path = "" then .error .noEntry
  else if path.toList.contains '\x00' then .error .holdsNul
  else if maxPath < Text.byteLength path then .error .nameTooLong
  else (Text.splitOn Path.isSlash path.toList).foldlM (follow d.tree)
    (if Text.startsWith path "/" then Path.root else d.here)

/-- The contents of a file. -/
def read (d : Disk) (path : String) : Except DiskError Bytes := do
  match d.tree.node? (← d.place path) with
  | some (.file data _) => return data
  | some (.directory _) => throw .isADirectory
  | _ => throw .noEntry

end Disk

end GuestShell.Rehearsal
