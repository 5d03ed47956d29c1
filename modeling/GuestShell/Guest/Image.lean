import GuestShell.Guest.ProgramText
import GuestShell.Json.Parser
import GuestShell.Json.Printer

/-!
# Programs as module files

The module file of a program declares its imports and exports in the sections made for them and
holds the program itself in a section of its own.  `compile` takes such a file, or a file with
nothing but a header, which is the program that does nothing; it refuses every other.  It also
refuses a program that exports two things under one name, or uses memory and has none, as a module
must not.
-/

namespace GuestShell

/-- A module that is ready to run. -/
structure CompiledModule where
  program : Program

namespace CompiledModule

/-- The name of the module, if it has one. -/
def name (m : CompiledModule) : Option String := m.program.name

end CompiledModule

namespace Image

/-- The section number of what a module carries along for itself. -/
def customSection : UInt8 := 0

/-- The name of the section that holds the program. -/
def sectionName : String := "guest"

/-- The form of an import's type: functions have a type index, memories their bounds. -/
def importType : ExternKind → Bytes
  | .memory => [0x00, 0x01]
  | _ => [0x00]

/-- The module file of a program. -/
def ofProgram (p : Program) : Bytes :=
  ModuleFile.header ++
    ModuleFile.writeEntries ModuleFile.importSection
      (p.importList.map fun i => ModuleFile.writeImport i (importType i.kind)) ++
    ModuleFile.writeEntries ModuleFile.exportSection
      (p.exportList.map fun e => ModuleFile.writeExport e 0) ++
    ModuleFile.writeSection
      ⟨customSection, ModuleFile.writeName sectionName ++ Text.encode p.toJson.print⟩

/-- The section with the program, among the sections of a file. -/
def programSection? : Nat → Bytes → Option Bytes
  | 0, _ => none
  | fuel + 1, bytes =>
    match ModuleFile.nextSection bytes with
    | .error _ => none
    | .ok (s, rest) => if s.id = customSection then some s.body else programSection? fuel rest

/-- The program that a section holds. -/
def programOf? (body : Bytes) : Option Program :=
  match ModuleFile.name body with
  | .ok (n, text) => if n = sectionName then Json.ofBytes? text >>= Program.ofJson? else none
  | .error _ => none

/-- The program of a module file. -/
def program? (bytes : Bytes) : Option Program :=
  if bytes = ModuleFile.header then some .nothing
  else if bytes.take 8 = ModuleFile.header then
    (programSection? bytes.length (bytes.drop 8)).bind programOf?
  else none

end Image

/-- Makes a module ready to run. -/
def CompiledModule.ofBytes (bytes : Bytes) : Except EngineError CompiledModule :=
  match Image.program? bytes with
  | none => .error (.compileFailed "not a guest program")
  | some p =>
    if p.hasNameTwice then .error (.compileFailed "duplicate export name")
    else if !p.memoryAgrees then .error (.compileFailed "unknown or too large memory")
    else .ok ⟨p⟩

end GuestShell
