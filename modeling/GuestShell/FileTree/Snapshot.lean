import GuestShell.FileTree.Basic

/-!
# Snapshots

Files survive a run only as a snapshot: the list of all files of the tree with their bytes and the
times of their last change, in the order of their paths.  The next run loads a snapshot into a fresh
tree, making the directories it needs.  Devices and directories are in no snapshot.
-/

namespace GuestShell

/-- A file as it is carried from run to run. -/
structure SavedFile where
  path : String
  timestamp : Moment
  bytes : Bytes
  deriving DecidableEq, Inhabited

/-- The contents as text. -/
def SavedFile.text (f : SavedFile) : String := Text.decodeLossy f.bytes

namespace FileTree

/-- Puts a saved file into the tree with the time it was saved with. -/
def loadFile (now : Moment) (f : SavedFile) : Action Unit := do
  let p := Path.ofText f.path
  match p.parent? with
  | none => pure ()
  | some parent => makeDirectories now parent
  match (← get).node? p with
  | some (.directory _) | some (.device _) => throw .parentIsNoDirectory
  | _ => modify (·.withNode p (.file f.bytes f.timestamp))

/-- The tree after an action, whether it failed or not. -/
def after {α : Type} (a : Action α) (t : FileTree) : FileTree :=
  match a t with
  | .ok _ t | .error _ t => t

/-- Loads saved files one after another; one that cannot be put into the tree is skipped. -/
def load (now : Moment) (files : List SavedFile) (t : FileTree) : FileTree :=
  files.foldl (fun t f => after (loadFile now f) t) t

/-- All files but those at the given places, in the order of their paths. -/
def snapshot (t : FileTree) (hidden : List String) : List SavedFile :=
  t.nodes.entries.filterMap fun (p, n) =>
    match n with
    | .file data modified => if hidden.contains p.text then none else some ⟨p.text, modified, data⟩
    | _ => none

end FileTree

end GuestShell
