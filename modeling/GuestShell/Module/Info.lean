import GuestShell.Module.Leb128

/-!
# What a module file imports and exports

A module file is a header of eight bytes and a list of sections.  `inspect` walks the sections and
reads two of them, the imports and the exports; of the others only the length counts.  It does not
ask whether the module would run: it is there to tell a module from an error page or from a download
that broke off.

Sections are read in their order, each as soon as it is reached, so the first flaw is the one that is
reported.
-/

namespace GuestShell

/-! ## What a file declares -/

/-- The kinds of things that are imported and exported. -/
inductive ExternKind where
  | function
  | table
  | memory
  | global
  | tag
  deriving DecidableEq, Repr

/-- An import: what the module needs, and the library it needs it from. -/
structure Import where
  library : String
  name : String
  kind : ExternKind
  deriving DecidableEq

/-- An export. -/
structure Export where
  name : String
  kind : ExternKind
  deriving DecidableEq

/-- The imports and exports of a module, in their order. -/
structure ModuleInfo where
  imports : List Import
  exports : List Export
  deriving DecidableEq

namespace ModuleInfo

/-- Nothing imported, nothing exported. -/
def empty : ModuleInfo := ⟨[], []⟩

/-- Whether a function is exported under a name. -/
def exportsFunction (i : ModuleInfo) (name : String) : Bool :=
  i.exports.any fun e => e.name == name && e.kind == .function

/-- Whether anything is imported from a library. -/
def importsFrom (i : ModuleInfo) (library : String) : Bool :=
  i.imports.any fun e => e.library == library

end ModuleInfo

/-! ## Flaws -/

/-- Why bytes are no module file. -/
inductive ModuleFlaw where
  | tooSmall
  | notAModule
  | unknownVersion
  /-- The file or a section of it ends inside something. -/
  | ends
  | sectionPastEnd
  | badNumber
  | unknownKind (code : UInt8)
  deriving DecidableEq

/-- The wording of a flaw. -/
def ModuleFlaw.message : ModuleFlaw → String
  | tooSmall => "module too small"
  | notAModule => "invalid magic number"
  | unknownVersion => "unsupported WASM version"
  | ends => "unexpected end of module"
  | sectionPastEnd => "section extends past end of module"
  | badNumber => "invalid LEB128"
  | unknownKind code => "unknown extern kind " ++ toString code.toNat

namespace ModuleFile

/-- A reader takes its part from the front of the bytes and leaves the others. -/
abbrev Reader (α : Type) := StateT Bytes (Except ModuleFlaw) α

/-! ## Parts -/

/-- One byte. -/
def byte : Reader UInt8 := fun bytes =>
  match bytes with
  | [] => .error .ends
  | b :: rest => .ok (b, rest)

/-- One number. -/
def number : Reader Nat := fun bytes =>
  match Leb128.decode bytes with
  | .ok r => .ok r
  | .error .ends => .error .ends
  | .error .tooLong => .error .badNumber

/-- A given number of bytes. -/
def taken (size : Nat) : Reader Bytes := fun bytes =>
  if size ≤ bytes.length then .ok (bytes.take size, bytes.drop size) else .error .ends

/-- A text with its length in front. -/
def name : Reader String := do
  let size ← number
  return Text.decodeLossy (← taken size)

/-- The kind that a code stands for. -/
def kindOfCode (code : UInt8) : Except ModuleFlaw ExternKind :=
  match code.toNat with
  | 0 => .ok .function
  | 1 => .ok .table
  | 2 => .ok .memory
  | 3 => .ok .global
  | 4 => .ok .tag
  | _ => .error (.unknownKind code)

/-- The kind of an import or export. -/
def kind : Reader ExternKind := do
  kindOfCode (← byte)

/-- The bounds of a table or memory, which are not kept. -/
def bounds : Reader Unit := do
  let flags ← byte
  let _ ← number
  if flags &&& 1 != 0 then
    let _ ← number

/-- The type of an import, which is not kept. -/
def importType : ExternKind → Reader Unit
  | .function => do let _ ← number
  | .table => do
    let _ ← byte
    bounds
  | .memory => bounds
  | .global => do
    let _ ← byte
    let _ ← byte
  | .tag => do
    let _ ← byte
    let _ ← number

/-- One import. -/
def importEntry : Reader Import := do
  let library ← name
  let name ← name
  let kind ← kind
  importType kind
  return ⟨library, name, kind⟩

/-- One export; its index is not kept. -/
def exportEntry : Reader Export := do
  let name ← name
  let kind ← kind
  let _ ← number
  return ⟨name, kind⟩

/-- A given number of entries. -/
def entries {α : Type} (entry : Reader α) : Nat → Reader (List α)
  | 0 => return []
  | count + 1 => do
    let e ← entry
    return e :: (← entries entry count)

/-- The entries of a section, their number in front. -/
def counted {α : Type} (entry : Reader α) : Reader (List α) := do
  entries entry (← number)

/-! ## Sections -/

/-- A section: what it holds, by number, and its bytes. -/
structure Section where
  id : UInt8
  body : Bytes
  deriving DecidableEq

/-- The section number of the imports. -/
def importSection : UInt8 := 2

/-- The section number of the exports. -/
def exportSection : UInt8 := 7

/-- One section. -/
def nextSection : Reader Section := fun bytes =>
  match bytes with
  | [] => .error .ends
  | id :: rest =>
    match number rest with
    | .error e => .error e
    | .ok (size, rest) =>
      if size ≤ rest.length then .ok (⟨id, rest.take size⟩, rest.drop size)
      else .error .sectionPastEnd

/-- What is left after a section is shorter than what was given. -/
theorem nextSection_shortens {bytes rest : Bytes} {s : Section}
    (h : nextSection bytes = .ok (s, rest)) : rest.length < bytes.length := by
  match bytes with
  | [] => simp [nextSection] at h
  | id :: tail =>
    simp only [nextSection, number] at h
    split at h
    · cases h
    · rename_i size left hn
      split at hn
      · rename_i r hd
        cases hn
        have := Leb128.decode_shortens hd
        split at h
        · cases h
          simp only [List.length_drop, List.length_cons]
          omega
        · cases h
      · cases hn
      · cases hn

/-- What a section adds to what is known; a later section of a kind takes the place of an earlier
one. -/
def learn (info : ModuleInfo) (s : Section) : Except ModuleFlaw ModuleInfo :=
  if s.id = importSection then
    (counted importEntry s.body).map fun r => { info with imports := r.1 }
  else if s.id = exportSection then
    (counted exportEntry s.body).map fun r => { info with exports := r.1 }
  else .ok info

/-- Walks the sections one after another. -/
def walk (info : ModuleInfo) (bytes : Bytes) : Except ModuleFlaw ModuleInfo :=
  if bytes = [] then .ok info
  else
    match h : nextSection bytes with
    | .error e => .error e
    | .ok (s, rest) =>
      have : rest.length < bytes.length := nextSection_shortens h
      match learn info s with
      | .error e => .error e
      | .ok info => walk info rest
termination_by bytes.length

/-! ## Files -/

/-- The four bytes that begin every module file. -/
def magic : Bytes := [0x00, 0x61, 0x73, 0x6d]

/-- The four bytes after them, which give the version of the format. -/
def version : Bytes := [0x01, 0x00, 0x00, 0x00]

/-- The eight bytes before the first section. -/
def header : Bytes := magic ++ version

/-- Checks the header; gives the bytes after it. -/
def afterHeader (bytes : Bytes) : Except ModuleFlaw Bytes :=
  if bytes.length < header.length then .error .tooSmall
  else if bytes.take 4 ≠ magic then .error .notAModule
  else if (bytes.drop 4).take 4 ≠ version then .error .unknownVersion
  else .ok (bytes.drop header.length)

/-- The imports and exports of a module file. -/
def inspect (bytes : Bytes) : Except ModuleFlaw ModuleInfo := do
  walk .empty (← afterHeader bytes)

/-! ## Writing -/

/-- A text with its length in front. -/
def writeName (s : String) : Bytes :=
  Leb128.encode (Text.byteLength s) ++ Text.encode s

/-- The code of a kind. -/
def kindCode : ExternKind → UInt8
  | .function => 0
  | .table => 1
  | .memory => 2
  | .global => 3
  | .tag => 4

/-- A section with its length. -/
def writeSection (s : Section) : Bytes :=
  s.id :: Leb128.encode s.body.length ++ s.body

/-- A section of entries, their number in front. -/
def writeEntries (id : UInt8) (entries : List Bytes) : Bytes :=
  writeSection ⟨id, Leb128.encode entries.length ++ entries.flatten⟩

/-- An export and its index among the exports of its kind. -/
def writeExport (e : Export) (index : Nat) : Bytes :=
  writeName e.name ++ [kindCode e.kind] ++ Leb128.encode index

/-- An import and the form of its type. -/
def writeImport (i : Import) (type : Bytes) : Bytes :=
  writeName i.library ++ writeName i.name ++ [kindCode i.kind] ++ type

end ModuleFile

end GuestShell
