import GuestShell.Bytes
import GuestShell.Guest.Program
import GuestShell.Json.Access
import GuestShell.Json.Record

/-!
# Programs in JSON

The written form of a program is an object.  What a field leaves out has a default, which depends on
the library that the program calls: an entry point `main` takes two words and gives one, any other
takes and gives nothing.

An instruction is an object that is told by one of its members.  `ofJson?` reads what `toJson` writes.
-/

namespace GuestShell.Program

/-! ## Reading -/

/-- A number as a 64-bit word. -/
def word? : Json → Option Int64
  | .int n => some (Int64.ofInt n)
  | _ => none

/-- A natural number. -/
def natural? : Json → Option Nat
  | .int n => if 0 ≤ n then some n.toNat else none
  | _ => none

/-- A byte string in hexadecimal digits. -/
def hexBytes? (j : Json) : Option Bytes :=
  Json.text? j >>= Bytes.ofHex?

/-- An operand, of at most the given nesting. -/
def operand? : Nat → Json → Option Operand
  | _, .int n => some (.literal (Int64.ofInt n))
  | 0, _ => none
  | depth + 1, j =>
    match j.member? "v" with
    | some k => (natural? k).map .register
    | none => (j.member? "m" >>= operand? depth).map .load

/-- The names of the units. -/
def units : List (String × TimeUnit) := [("s", .seconds), ("ns", .nanoseconds)]

/-- Two items. -/
def pair? : Json → Option (Json × Json)
  | .arr [a, b] => some (a, b)
  | _ => none

/-- An instruction without others inside it. -/
def plain? (operand : Json → Option Operand) (j : Json) : Option Instruction :=
  match j with
  | .obj members =>
    members.findSome? fun (name, v) =>
      match name with
      | "call" => do
        let args ← match j.member? "args" with
          | none => some []
          | some a => Json.listOf? operand a
        return .call (← Json.text? v) args ((j.member? "to").bind natural?)
      | "call_import" => (natural? v).map .callImport
      | "poke" => do
        let (a, b) ← pair? v
        return .poke (← operand a) (← hexBytes? b)
      | "store" => do
        let (a, b) ← pair? v
        return .store (← operand a) (← operand b)
      | "set" => do
        let (k, a) ← pair? v
        return .set (← natural? k) (← operand a)
      | "add" => do
        let (k, a) ← pair? v
        return .add (← natural? k) (← operand a)
      | "return" => (operand v).map .leave
      | "trap" => some .trap
      | "log" => (operand v).map .noteValue
      | "dump" => do
        let (a, b) ← pair? v
        return .noteBytes (← operand a) (← operand b)
      | "time" => do
        let (a, u) ← pair? v
        return .noteTime (← operand a) (← Json.wordIn? units u)
      | _ => none
  | _ => none

/-- An instruction, of at most the given nesting. -/
def instruction? : Nat → Json → Option Instruction
  | 0, _ => none
  | depth + 1, j =>
    match j.member? "loop" with
    | some body => do
      return .loop (← Json.listOf? (instruction? depth) body)
        (← operand? depth ((j.member? "while").getD (.int 0)))
    | none =>
      match j.member? "if" with
      | some condition => do
        return .branch (← operand? depth condition)
          (← Json.listOf? (instruction? depth) ((j.member? "then").getD (.arr [])))
      | none => plain? (operand? depth) j

/-- A list of instructions. -/
def instructions? (j : Json) : Option (List Instruction) :=
  Json.listOf? (instruction? (j.depth + 1)) j

/-- The widths that the letters of a signature stand for. -/
def kinds? (cs : List Char) : Option (List ValueKind) :=
  cs.mapM fun c =>
    if c = 'i' then some .i32 else if c = 'I' then some .i64 else none

/-- Parameters and result: letters before and after an angle bracket. -/
def shape? (s : String) : Option (List ValueKind × Option ValueKind) := do
  let cs := s.toList
  let params ← kinds? (cs.takeWhile (· != '>'))
  let results ← kinds? ((cs.dropWhile (· != '>')).drop 1)
  return (params, results.head?)

/-- The libraries, under the names of the interfaces they belong to. -/
def libraries : List (String × String) :=
  [("posix", "env"), ("libc", "wasi_snapshot_preview1"), ("host", "host")]

/-- The name of the entry point of a program that gives none. -/
def defaultEntry (interface : String) : String :=
  if interface = "posix" then "main" else "_start"

/-- A field that has a default where it is missing. -/
def fieldOr {α : Type} (j : Json) (name : String) (default : α) (read : Json → Option α) :
    Option α :=
  match j.member? name with
  | none | some .null => some default
  | some v => read v

/-- A pair of texts. -/
def textPair? (j : Json) : Option (String × String) := do
  let (a, b) ← pair? j
  return (← Json.text? a, ← Json.text? b)

/-- Bytes and the address they are put at. -/
def datum? (j : Json) : Option (Nat × Bytes) := do
  let (a, b) ← pair? j
  return ((← word? a).toInt32.toUInt32.toNat, ← hexBytes? b)

/-- The program that a JSON value spells. -/
def ofJson? (j : Json) : Option Program := do
  let interface ← j.member? "abi" >>= Json.text?
  let entry ← match j.member? "entry" with
    | some (.bool false) => some none
    | some (.str s) => some (some s)
    | none | some .null => some (some (defaultEntry interface))
    | some _ => none
  let (params, result) ← fieldOr j "sig"
    (if entry = some "main" then ([.i32, .i32], some .i32) else ([], none))
    fun v => Json.text? v >>= shape?
  return {
    library := (libraries.find? fun l => l.1 == interface).map (·.2) |>.getD interface
    code := ← fieldOr j "code" [] instructions?
    entry := entry
    params := params
    result := result
    start := ← fieldOr j "start" none fun v => (instructions? v).map some
    pages := ← match j.member? "pages" with
      | none => some (some 1)
      | some v => Json.orNull? natural? v
    memoryName := ← fieldOr j "memory" "memory" Json.text?
    data := ← fieldOr j "data" [] (Json.listOf? datum?)
    globals := ← fieldOr j "globals" [] (Json.listOf? Json.text?)
    imports := ← fieldOr j "imports" [] (Json.listOf? textPair?)
    importedMemory := ← fieldOr j "import_memory" none fun v => (textPair? v).map some
    name := ← fieldOr j "name" none fun v => (Json.text? v).map some
    logs := ← fieldOr j "log" false Json.bool? }

/-! ## Writing -/

/-- The written form of a byte string. -/
def ofHexBytes (b : Bytes) : Json := .str (Bytes.hex b)

/-- The written form of an operand. -/
def ofOperand : Operand → Json
  | .literal v => .int v.toInt
  | .register k => .obj [("v", .int k)]
  | .load a => .obj [("m", ofOperand a)]

/-- The name of a unit. -/
def ofUnit : TimeUnit → Json
  | .seconds => .str "s"
  | .nanoseconds => .str "ns"

/-- The written form of an instruction. -/
def ofInstruction : Instruction → Json
  | .call name args target =>
    .obj ([("call", .str name), ("args", .arr (args.map ofOperand))] ++
      target.toList.map fun k => ("to", .int k))
  | .callImport k => .obj [("call_import", .int k)]
  | .poke a b => .obj [("poke", .arr [ofOperand a, ofHexBytes b])]
  | .store a v => .obj [("store", .arr [ofOperand a, ofOperand v])]
  | .set k v => .obj [("set", .arr [.int k, ofOperand v])]
  | .add k v => .obj [("add", .arr [.int k, ofOperand v])]
  | .loop body c => .obj [("loop", .arr (ofInstructions body)), ("while", ofOperand c)]
  | .branch c body => .obj [("if", ofOperand c), ("then", .arr (ofInstructions body))]
  | .leave v => .obj [("return", ofOperand v)]
  | .trap => .obj [("trap", .int 1)]
  | .noteValue v => .obj [("log", ofOperand v)]
  | .noteBytes a n => .obj [("dump", .arr [ofOperand a, ofOperand n])]
  | .noteTime a u => .obj [("time", .arr [ofOperand a, ofUnit u])]
where
  /-- The written forms of instructions. -/
  ofInstructions : List Instruction → List Json
    | [] => []
    | i :: is => ofInstruction i :: ofInstructions is

/-- The letter of a width. -/
def kindLetter : ValueKind → Char
  | .i32 => 'i'
  | .i64 => 'I'

/-- The written form of parameters and result. -/
def ofShape (params : List ValueKind) (result : Option ValueKind) : Json :=
  .str (String.ofList (params.map kindLetter ++ ['>'] ++ result.toList.map kindLetter))

/-- The name of the interface that a library belongs to. -/
def interfaceOf (library : String) : String :=
  (libraries.find? fun l => l.2 == library).map (·.1) |>.getD library

/-- The written form of a pair of texts. -/
def ofTextPair (p : String × String) : Json := .arr [.str p.1, .str p.2]

/-- The written form of a program. -/
def toJson (p : Program) : Json :=
  .obj ([("abi", .str (interfaceOf p.library)),
      ("code", .arr (ofInstruction.ofInstructions p.code)),
      ("entry", match p.entry with
        | some s => .str s
        | none => .bool false),
      ("sig", ofShape p.params p.result)] ++
    p.start.toList.map (fun s => ("start", .arr (ofInstruction.ofInstructions s))) ++
    [("pages", match p.pages with
        | some n => .int n
        | none => .null),
      ("memory", .str p.memoryName),
      ("data", .arr (p.data.map fun d => .arr [.int d.1, ofHexBytes d.2])),
      ("globals", .arr (p.globals.map .str)),
      ("imports", .arr (p.imports.map ofTextPair))] ++
    p.importedMemory.toList.map (fun i => ("import_memory", ofTextPair i)) ++
    p.name.toList.map (fun n => ("name", .str n)) ++
    [("log", .bool p.logs)])

end GuestShell.Program
