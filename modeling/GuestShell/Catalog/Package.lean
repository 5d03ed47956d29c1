import GuestShell.Archive.Tar
import GuestShell.Catalog.Error

/-!
# Packages

A package is a compressed archive with exactly one module in it: an ordinary file whose name ends in
`.wasm` after at least one other character.
-/

namespace GuestShell.Package

/-- The last name of a path, if it names something: dots that stand for the place itself do not count,
and a path that ends by going up names nothing. -/
def lastName? (path : Bytes) : Option Bytes :=
  let pieces := (Tar.splitBytes 0x2f path).filter fun p => p != [] && p != [0x2e]
  match pieces.getLast? with
  | some [0x2e, 0x2e] => none
  | n => n

/-- What follows the last dot of a name, if something stands before it. -/
def extension? (name : Bytes) : Option Bytes :=
  let ext := (name.reverse.takeWhile (· != 0x2e)).reverse
  if ext.length + 1 < name.length then some ext else none

/-- Whether an entry is a module. -/
def isModule (e : ArchiveEntry) : Bool :=
  e.isFile && (lastName? e.name).bind extension? == some (Text.encode "wasm")

/-- The module of a package. -/
def extract (name : String) (file : Bytes) : Except ResolveError Bytes :=
  match Tar.entries? (Gzip.unpack file) with
  | none => .error (.registry name "bad package archive")
  | some entries =>
    match entries.filter isModule with
    | [] => .error (.noArtifact name)
    | [m] => .ok m.data
    | ms => .error (.multipleArtifacts name ms.length)

/-- A package of files: their paths, their types and their contents. -/
def write (entries : List (String × UInt8 × Bytes)) : Bytes :=
  Gzip.pack (Tar.write (entries.map fun e => (Text.encode e.1, e.2)))

end GuestShell.Package
