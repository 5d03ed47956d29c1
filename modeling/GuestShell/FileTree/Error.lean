import GuestShell.FileTree.Path

/-!
# Why an operation on a tree fails

One constructor for each cause; `kind` sorts them into the classes that callers act on, and
`message` gives the wording.
-/

namespace GuestShell

/-- The classes of failures. -/
inductive FailureKind where
  | notFound
  | invalidInput
  | alreadyExists
  | isADirectory
  | notADirectory
  | directoryNotEmpty
  | permissionDenied
  | other
  deriving DecidableEq, Repr

/-- The causes of failures. -/
inductive FileError where
  | noFile (p : Path)
  | noPlace (p : Path)
  | noDirectory (p : Path)
  | noParent (p : Path)
  | parentIsNoDirectory
  | partIsNoDirectory
  | badHandle
  | opensDevice
  | opensDirectory
  | listsNonDirectory
  | negativePosition
  | movesIntoItself
  | fileExists (p : Path)
  | placeExists
  | unlinksDirectory
  | unlinksDevice
  | removesRoot
  | removesNonDirectory
  | directoryNotEmpty
  | targetNotEmpty
  | notReadable
  | notWritable
  /-- The contents would pass the length that any file can have. -/
  | tooLong
  deriving DecidableEq

namespace FileError

/-- The class of a failure. -/
def kind : FileError → FailureKind
  | noFile _ | noPlace _ | noDirectory _ | noParent _ => .notFound
  | parentIsNoDirectory | partIsNoDirectory | badHandle | opensDevice | listsNonDirectory
  | negativePosition | movesIntoItself => .invalidInput
  | fileExists _ | placeExists => .alreadyExists
  | opensDirectory | unlinksDirectory => .isADirectory
  | removesNonDirectory => .notADirectory
  | directoryNotEmpty | targetNotEmpty => .directoryNotEmpty
  | unlinksDevice | removesRoot | notReadable | notWritable => .permissionDenied
  | tooLong => .other

/-- The wording of a failure. -/
def message : FileError → String
  | noFile p => "File not found: " ++ p.text
  | noPlace p => "Path not found: " ++ p.text
  | noDirectory p => "Directory not found: " ++ p.text
  | noParent p => "parent directory not found: " ++ p.text
  | parentIsNoDirectory => "parent is not a directory"
  | partIsNoDirectory => "path component is not a directory"
  | badHandle => "Invalid file handle"
  | opensDevice => "Cannot open device as file"
  | opensDirectory => "Cannot open directory as file"
  | listsNonDirectory => "Not a directory"
  | negativePosition => "Seek to a negative position"
  | movesIntoItself => "Cannot move a directory into itself"
  | fileExists p => "File exists: " ++ p.text
  | placeExists => "Path already exists"
  | unlinksDirectory => "Cannot remove directory with remove_file"
  | unlinksDevice => "Cannot remove device"
  | removesRoot => "Cannot remove root directory"
  | removesNonDirectory => "Not a directory"
  | directoryNotEmpty => "Directory not empty"
  | targetNotEmpty => "Target directory not empty"
  | notReadable => "File not opened for reading"
  | notWritable => "File not opened for writing"
  | tooLong => "capacity overflow"

end FileError

end GuestShell
