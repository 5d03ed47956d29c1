import GuestShell.Text.Utf8

/-!
# Deflated data

A deflated stream is a list of blocks.  A block holds its bytes as they are, or as symbols of two
prefix codes: literal bytes, and copies of what was written before.  The codes are fixed, or stand at
the start of the block as lists of code lengths.

Reading goes on to the end of the last block, to the end of the bytes, or to the first thing that
makes no sense; what was read up to there is kept (`inflate`).
-/

namespace GuestShell.Inflate

/-! ## Bits -/

/-- Bits still to be read: bytes, and how many bits of the first one are gone. -/
structure Bits where
  bytes : Bytes
  gone : Nat

/-- Why reading cannot go on. -/
inductive Flaw where
  | truncated
  | corrupt
  deriving DecidableEq, Repr

/-- A reader of bits. -/
abbrev Reader (α : Type) := StateT Bits (Except Flaw) α

/-- One bit, the lowest of a byte first. -/
def bit : Reader Nat := fun s =>
  match s.bytes with
  | [] => .error .truncated
  | b :: rest =>
    .ok (b.toNat >>> s.gone % 2, if s.gone = 7 then ⟨rest, 0⟩ else ⟨s.bytes, s.gone + 1⟩)

/-- A number of the given number of bits, the lowest first. -/
def number : Nat → Reader Nat
  | 0 => return 0
  | n + 1 => do
    let low ← bit
    return low + 2 * (← number n)

/-- Skips the rest of a byte that was begun. -/
def align (s : Bits) : Bits := if s.gone = 0 then s else ⟨s.bytes.tail, 0⟩

/-- Nothing that makes sense. -/
def corrupt {α : Type} : Reader α := fun _ => .error .corrupt

/-! ## Prefix codes -/

/-- The longest code word. -/
def maxLength : Nat := 15

/-- A prefix code: how many code words there are of each length from 1 to the longest that occurs, and
the symbols in the order of their code words. -/
structure Code where
  counts : List Nat
  symbols : Array Nat

namespace Code

/-- The code in which each symbol has a code word of the given length, 0 for none.  A code without
symbols is one of a single bit. -/
def ofLengths (lengths : List Nat) : Code :=
  let longest := max 1 (lengths.foldl max 0)
  let ls := (List.range longest).map (· + 1)
  { counts := ls.map fun l => lengths.count l
    symbols := (ls.flatMap fun l =>
      (lengths.zipIdx.filter fun s => s.1 == l).map (·.2)).toArray }

/-- How much of the code space is used, in code words of the greatest length. -/
def used : Nat → List Nat → Nat
  | _, [] => 0
  | share, count :: counts => share * count + used (share / 2) counts

/-- Whether every bit string begins with a code word, and none with two. -/
def isComplete (c : Code) : Bool :=
  used (1 <<< (maxLength - 1)) c.counts == 1 <<< maxLength

/-- Whether the code has no symbol, or one, whose code word is a single bit. -/
def isTrivial (c : Code) : Bool := c.symbols.size ≤ 1 && c.counts.length == 1

/-- Reads one symbol: `first` is the first code word of the present length, `index` the number of
shorter code words.  Bits with which no code word begins are noticed at once: only a code of a single
bit has such bits. -/
def walk (symbols : Array Nat) : List Nat → Nat → Nat → Nat → Reader Nat
  | [], _, _, _ => corrupt
  | count :: counts, code, first, index => do
    let code := code + (← bit)
    if code < first + count then
      match symbols[index + (code - first)]? with
      | some s => return s
      | none => corrupt
    else walk symbols counts (2 * code) (2 * (first + count)) (index + count)

/-- Reads one symbol. -/
def symbol (c : Code) : Reader Nat := walk c.symbols c.counts 0 0 0

end Code

/-! ## The codes of a block -/

/-- The codes of a block: one for literals and lengths, one for distances. -/
structure Codes where
  literals : Code
  distances : Code

/-- The codes that are fixed. -/
def fixedCodes : Codes where
  literals := .ofLengths
    (List.replicate 144 8 ++ List.replicate 112 9 ++ List.replicate 24 7 ++ List.replicate 8 8)
  distances := .ofLengths (List.replicate 32 5)

/-- The order in which the lengths of the length code are given. -/
def lengthOrder : List Nat := [16, 17, 18, 0, 8, 7, 9, 6, 10, 5, 11, 4, 12, 3, 13, 2, 14, 1, 15]

/-- A number of code lengths, read with the length code.  The symbols 16 to 18 repeat the last length
or zero. -/
def codeLengths (c : Code) (total : Nat) : Nat → List Nat → Reader (List Nat)
  | 0, _ => corrupt
  | fuel + 1, soFar =>
    if soFar.length = total then return soFar.reverse
    else if total < soFar.length then corrupt
    else do
      let s ← c.symbol
      if s < 16 then codeLengths c total fuel (s :: soFar)
      else if s = 16 then
        match soFar with
        | [] => corrupt
        | last :: _ => do
          let n ← number 2
          codeLengths c total fuel (List.replicate (n + 3) last ++ soFar)
      else if s = 17 then do
        let n ← number 3
        codeLengths c total fuel (List.replicate (n + 3) 0 ++ soFar)
      else do
        let n ← number 7
        codeLengths c total fuel (List.replicate (n + 11) 0 ++ soFar)

/-- A code that a block may use. -/
def usable (c : Code) : Reader Code :=
  if c.isComplete || c.isTrivial then return c else corrupt

/-- A list of numbers of three bits. -/
def numbers : Nat → Reader (List Nat)
  | 0 => return []
  | n + 1 => do
    let k ← number 3
    return k :: (← numbers n)

/-- The codes at the start of a block. -/
def ownCodes : Reader Codes := do
  let literalCount := (← number 5) + 257
  let distanceCount := (← number 5) + 1
  let orderCount := (← number 4) + 4
  if 286 < literalCount ∨ 30 < distanceCount then corrupt
  let given ← numbers orderCount
  let lengthCode := Code.ofLengths ((List.range 19).map fun s =>
    ((lengthOrder.zip given).find? fun p => p.1 == s).map (·.2) |>.getD 0)
  if !lengthCode.isComplete then corrupt
  let total := literalCount + distanceCount
  let lengths ← codeLengths lengthCode total (total + 1) []
  return {
    literals := ← usable (.ofLengths (lengths.take literalCount))
    distances := ← usable (.ofLengths (lengths.drop literalCount)) }

/-! ## Blocks -/

/-- A base and the number of bits to add to it. -/
structure Extra where
  base : Nat
  bits : Nat

/-- The lengths that the symbols from 257 on stand for. -/
def lengthExtras : List Extra :=
  [⟨3, 0⟩, ⟨4, 0⟩, ⟨5, 0⟩, ⟨6, 0⟩, ⟨7, 0⟩, ⟨8, 0⟩, ⟨9, 0⟩, ⟨10, 0⟩, ⟨11, 1⟩, ⟨13, 1⟩, ⟨15, 1⟩,
    ⟨17, 1⟩, ⟨19, 2⟩, ⟨23, 2⟩, ⟨27, 2⟩, ⟨31, 2⟩, ⟨35, 3⟩, ⟨43, 3⟩, ⟨51, 3⟩, ⟨59, 3⟩, ⟨67, 4⟩,
    ⟨83, 4⟩, ⟨99, 4⟩, ⟨115, 4⟩, ⟨131, 5⟩, ⟨163, 5⟩, ⟨195, 5⟩, ⟨227, 5⟩, ⟨258, 0⟩]

/-- The distances that the symbols stand for. -/
def distanceExtras : List Extra :=
  [⟨1, 0⟩, ⟨2, 0⟩, ⟨3, 0⟩, ⟨4, 0⟩, ⟨5, 1⟩, ⟨7, 1⟩, ⟨9, 2⟩, ⟨13, 2⟩, ⟨17, 3⟩, ⟨25, 3⟩, ⟨33, 4⟩,
    ⟨49, 4⟩, ⟨65, 5⟩, ⟨97, 5⟩, ⟨129, 6⟩, ⟨193, 6⟩, ⟨257, 7⟩, ⟨385, 7⟩, ⟨513, 8⟩, ⟨769, 8⟩,
    ⟨1025, 9⟩, ⟨1537, 9⟩, ⟨2049, 10⟩, ⟨3073, 10⟩, ⟨4097, 11⟩, ⟨6145, 11⟩, ⟨8193, 12⟩,
    ⟨12289, 12⟩, ⟨16385, 13⟩, ⟨24577, 13⟩]

/-- The number that a symbol and the bits after it stand for. -/
def withExtra (table : List Extra) (k : Nat) : Reader Nat :=
  match table[k]? with
  | none => corrupt
  | some e => do return e.base + (← number e.bits)

/-- What a symbol stands for. -/
inductive Piece where
  | literal (b : UInt8)
  | copy (length distance : Nat)
  | last

/-- One piece of a block. -/
def piece (c : Codes) : Reader Piece := do
  let s ← c.literals.symbol
  if s < 256 then return .literal (UInt8.ofNat s)
  else if s = 256 then return .last
  else
    let length ← withExtra lengthExtras (s - 257)
    let distance ← withExtra distanceExtras (← c.distances.symbol)
    return .copy length distance

/-- The byte a distance back; before the beginning there are zeros. -/
def back (out : Array UInt8) (distance : Nat) : UInt8 :=
  if distance ≤ out.size then out.getD (out.size - distance) 0 else 0

/-- Copies bytes one after another, so a copy may run into what it writes. -/
def copied (out : Array UInt8) (distance : Nat) : Nat → Array UInt8
  | 0 => out
  | n + 1 => copied (out.push (back out distance)) distance n

/-- How far reading came: what was written, and what is left, or why it could not go on. -/
structure Progress where
  out : Array UInt8
  left : Except Flaw Bits

/-- The pieces of a block. -/
def pieces (c : Codes) : Nat → Array UInt8 → Bits → Progress
  | 0, out, _ => ⟨out, .error .corrupt⟩
  | fuel + 1, out, s =>
    match piece c s with
    | .error e => ⟨out, .error e⟩
    | .ok (.last, s) => ⟨out, .ok s⟩
    | .ok (.literal b, s) => pieces c fuel (out.push b) s
    | .ok (.copy length distance, s) => pieces c fuel (copied out distance length) s

/-- The length of a block that holds its bytes as they are; it is given twice, once inverted. -/
def storedLength : Reader Nat := do
  let n ← number 16
  let inverted ← number 16
  if n + inverted ≠ 65535 then corrupt
  return n

/-- Bytes as they are. -/
def stored (out : Array UInt8) (s : Bits) : Progress :=
  match storedLength (align s) with
  | .error e => ⟨out, .error e⟩
  | .ok (n, s) =>
    let out := out ++ (s.bytes.take n).toArray
    if n ≤ s.bytes.length then ⟨out, .ok ⟨s.bytes.drop n, 0⟩⟩ else ⟨out, .error .truncated⟩

/-- The rest of a block of the given kind. -/
def block (fuel : Nat) (out : Array UInt8) (kind : Nat) (s : Bits) : Progress :=
  if kind = 0 then stored out s
  else if kind = 1 then pieces fixedCodes fuel out s
  else if kind = 2 then
    match ownCodes s with
    | .error e => ⟨out, .error e⟩
    | .ok (c, s) => pieces c fuel out s
  else ⟨out, .error .corrupt⟩

/-- The header of a block: whether it is the last one, and its kind. -/
def blockHeader : Reader (Bool × Nat) := do
  let last ← bit
  return (last = 1, ← number 2)

/-- The blocks of a stream. -/
def blocks : Nat → Array UInt8 → Bits → Progress
  | 0, out, _ => ⟨out, .error .corrupt⟩
  | fuel + 1, out, s =>
    match blockHeader s with
    | .error e => ⟨out, .error e⟩
    | .ok ((isLast, kind), s) =>
      match block (8 * s.bytes.length + 1) out kind s with
      | ⟨out, .error e⟩ => ⟨out, .error e⟩
      | ⟨out, .ok s⟩ => if isLast then ⟨out, .ok s⟩ else blocks fuel out s

/-- Reads a deflated stream; gives what it held, and the bytes after it or why reading ended. -/
def inflate (bytes : Bytes) : Bytes × Except Flaw Bytes :=
  let p := blocks (8 * bytes.length + 1) #[] ⟨bytes, 0⟩
  (p.out.toList, p.left.map fun s => (align s).bytes)

end GuestShell.Inflate
