import GuestShell.Sandbox.Abi
import GuestShell.Sandbox.Process

/-!
# The larger interface: names and numbers

The functions of the interface that a full C library is built on, its error codes, and the records
that its functions put into memory.  All numbers here are fixed by the interface.
-/

namespace GuestShell

/-! ## Error codes -/

/-- The error codes that are in use. -/
inductive LibcError where
  | access
  | badDescriptor
  | exists_
  | fault
  | invalid
  | io
  | isDirectory
  | noEntry
  | notSupported
  | notDirectory
  | notEmpty
  | seekOnStream
  deriving DecidableEq, Repr

namespace LibcError

/-- The number of an error code; 0 is success. -/
def code : LibcError → Int32
  | access => 2
  | badDescriptor => 8
  | exists_ => 20
  | fault => 21
  | invalid => 28
  | io => 29
  | isDirectory => 31
  | noEntry => 44
  | notSupported => 52
  | notDirectory => 54
  | notEmpty => 55
  | seekOnStream => 70

/-- The error code for a failure of the file tree. -/
def ofKind : FailureKind → LibcError
  | .notFound => noEntry
  | .alreadyExists => exists_
  | .permissionDenied => access
  | .isADirectory => isDirectory
  | .notADirectory => notDirectory
  | .directoryNotEmpty => notEmpty
  | .invalidInput => invalid
  | .other => io

instance : ErrorCode LibcError where
  ofKind := ofKind
  badAddress := fault

end LibcError

/-! ## The functions -/

/-- The functions of the interface. -/
inductive LibcCall where
  | argsGet
  | argsSizesGet
  | environGet
  | environSizesGet
  | clockResGet
  | clockTimeGet
  | fdAdvise
  | fdClose
  | fdDatasync
  | fdFdstatGet
  | fdFdstatSetFlags
  | fdFilestatGet
  | fdFilestatSetSize
  | fdPrestatGet
  | fdPrestatDirName
  | fdRead
  | fdReaddir
  | fdSeek
  | fdSync
  | fdTell
  | fdWrite
  | pathCreateDirectory
  | pathFilestatGet
  | pathOpen
  | pathRemoveDirectory
  | pathRename
  | pathUnlinkFile
  | pollOneoff
  | procExit
  | randomGet
  | schedYield
  | sockAccept
  | sockRecv
  | sockSend
  | sockShutdown
  deriving DecidableEq, Repr

namespace LibcCall

/-- All functions, in the order of the table. -/
def all : List LibcCall :=
  [argsGet, argsSizesGet, environGet, environSizesGet, clockResGet, clockTimeGet, fdAdvise, fdClose,
    fdDatasync, fdFdstatGet, fdFdstatSetFlags, fdFilestatGet, fdFilestatSetSize, fdPrestatGet,
    fdPrestatDirName, fdRead, fdReaddir, fdSeek, fdSync, fdTell, fdWrite, pathCreateDirectory,
    pathFilestatGet, pathOpen, pathRemoveDirectory, pathRename, pathUnlinkFile, pollOneoff, procExit,
    randomGet, schedYield, sockAccept, sockRecv, sockSend, sockShutdown]

/-- The name of a function, and the widths of its parameters. -/
def shape : LibcCall → String × List ValueKind
  | argsGet => ("args_get", [.i32, .i32])
  | argsSizesGet => ("args_sizes_get", [.i32, .i32])
  | environGet => ("environ_get", [.i32, .i32])
  | environSizesGet => ("environ_sizes_get", [.i32, .i32])
  | clockResGet => ("clock_res_get", [.i32, .i32])
  | clockTimeGet => ("clock_time_get", [.i32, .i64, .i32])
  | fdAdvise => ("fd_advise", [.i32, .i64, .i64, .i32])
  | fdClose => ("fd_close", [.i32])
  | fdDatasync => ("fd_datasync", [.i32])
  | fdFdstatGet => ("fd_fdstat_get", [.i32, .i32])
  | fdFdstatSetFlags => ("fd_fdstat_set_flags", [.i32, .i32])
  | fdFilestatGet => ("fd_filestat_get", [.i32, .i32])
  | fdFilestatSetSize => ("fd_filestat_set_size", [.i32, .i64])
  | fdPrestatGet => ("fd_prestat_get", [.i32, .i32])
  | fdPrestatDirName => ("fd_prestat_dir_name", [.i32, .i32, .i32])
  | fdRead => ("fd_read", [.i32, .i32, .i32, .i32])
  | fdReaddir => ("fd_readdir", [.i32, .i32, .i32, .i64, .i32])
  | fdSeek => ("fd_seek", [.i32, .i64, .i32, .i32])
  | fdSync => ("fd_sync", [.i32])
  | fdTell => ("fd_tell", [.i32, .i32])
  | fdWrite => ("fd_write", [.i32, .i32, .i32, .i32])
  | pathCreateDirectory => ("path_create_directory", [.i32, .i32, .i32])
  | pathFilestatGet => ("path_filestat_get", [.i32, .i32, .i32, .i32, .i32])
  | pathOpen => ("path_open", [.i32, .i32, .i32, .i32, .i32, .i64, .i64, .i32, .i32])
  | pathRemoveDirectory => ("path_remove_directory", [.i32, .i32, .i32])
  | pathRename => ("path_rename", [.i32, .i32, .i32, .i32, .i32, .i32])
  | pathUnlinkFile => ("path_unlink_file", [.i32, .i32, .i32])
  | pollOneoff => ("poll_oneoff", [.i32, .i32, .i32, .i32])
  | procExit => ("proc_exit", [.i32])
  | randomGet => ("random_get", [.i32, .i32])
  | schedYield => ("sched_yield", [])
  | sockAccept => ("sock_accept", [.i32, .i32, .i32])
  | sockRecv => ("sock_recv", [.i32, .i32, .i32, .i32, .i32, .i32])
  | sockSend => ("sock_send", [.i32, .i32, .i32, .i32, .i32])
  | sockShutdown => ("sock_shutdown", [.i32, .i32])

/-- What a function looks like to a guest; all but the one that exits give an error code. -/
def signature (c : LibcCall) : Signature :=
  ⟨Abi.libcLibrary, c.shape.1, c.shape.2, if c = procExit then none else some .i32⟩

end LibcCall

namespace Libc

/-- The table that a module is linked against. -/
def table : List Signature := LibcCall.all.map LibcCall.signature

/-! ## Records -/

/-- The kinds of files that a record can name. -/
inductive FileType where
  | characterDevice
  | directory
  | regularFile
  deriving DecidableEq, Repr

/-- The number of a kind of files. -/
def FileType.code : FileType → UInt8
  | characterDevice => 2
  | directory => 3
  | regularFile => 4

/-- A number of zero bytes. -/
def padding (n : Nat) : Bytes := List.replicate n 0

/-- All rights that there are. -/
def allRights : Nat := 1 <<< 29 - 1

/-- What is known about a descriptor: its kind, whether it appends, and its rights. -/
def descriptorRecord (t : FileType) (append : Bool) : Bytes :=
  [t.code, 0] ++ Bytes.word16 (if append then 1 else 0) ++ padding 4 ++ Bytes.word64 allRights ++
    Bytes.word64 allRights

/-- What is known about a file: its kind, its size, and three times the moment of its last change, in
nanoseconds. -/
def fileRecord (t : FileType) (size time : Nat) : Bytes :=
  padding 16 ++ [t.code] ++ padding 7 ++ Bytes.word64 1 ++ Bytes.word64 size ++ Bytes.word64 time ++
    Bytes.word64 time ++ Bytes.word64 time

/-- What is known about a device. -/
def deviceRecord : Bytes := fileRecord .characterDevice 0 0

/-- The record for what is known about a place. -/
def fileRecordOf (t : FileType) (m : Metadata) : Bytes :=
  fileRecord t m.size (nanoseconds m.modified)

/-- What is known about a directory that was open from the beginning: the length of its name. -/
def preopenRecord (nameLength : Nat) : Bytes := padding 4 ++ Bytes.word32 nameLength

/-- One line of a directory listing, without its name: where the next line begins, a serial number,
the length of the name and the kind. -/
def entryRecord (serial nameLength : Nat) (t : FileType) : Bytes :=
  Bytes.word64 serial ++ Bytes.word64 serial ++ Bytes.word32 nameLength ++ [t.code] ++ padding 3

end Libc

end GuestShell
