/-!
# Why a file of the machine cannot be read

The files of the machine are those that the terminal itself reads: its configuration, and modules
that are kept in a directory.  They have nothing to do with the file trees of programs.
-/

namespace GuestShell

/-- Why a file cannot be read.  Most reasons are errors of the system, with a number. -/
inductive DiskError where
  | noEntry
  | permissionDenied
  /-- Something on the way is no directory. -/
  | notADirectory
  | isADirectory
  | nameTooLong
  /-- No path holds the character NUL. -/
  | holdsNul
  /-- The contents were to be text. -/
  | notText
  | other (reason : String)
  deriving DecidableEq

namespace DiskError

/-- The wording of an error of the system. -/
def numbered (text : String) (code : Nat) : String :=
  text ++ " (os error " ++ toString code ++ ")"

/-- The wording of a disk error. -/
def message : DiskError → String
  | noEntry => numbered "No such file or directory" 2
  | permissionDenied => numbered "Permission denied" 13
  | notADirectory => numbered "Not a directory" 20
  | isADirectory => numbered "Is a directory" 21
  | nameTooLong => numbered "File name too long" 36
  | holdsNul => "file name contained an unexpected NUL byte"
  | notText => "stream did not contain valid UTF-8"
  | other reason => reason

end DiskError

end GuestShell
