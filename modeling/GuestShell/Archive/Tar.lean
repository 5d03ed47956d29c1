import GuestShell.Archive.Gzip
import GuestShell.Text.Blank

/-!
# Archives of files

An archive is a list of blocks of 512 bytes.  An entry is a header block and the blocks of its
contents, the last one filled up.  A block of zeros ends the archive; so does its end.

Some entries are about the entry after them: a long name, a long link target, or a list of extended
attributes, of which the name and the size count here.  Two of a kind for one entry, or one for no
entry, are flaws.
-/

namespace GuestShell

/-- An entry of an archive: the name it goes by, whether it is an ordinary file, and its contents. -/
structure ArchiveEntry where
  name : Bytes
  isFile : Bool
  data : Bytes
  deriving DecidableEq

namespace Tar

/-- The size of a block. -/
def blockSize : Nat := 512

/-- A size rounded up to whole blocks. -/
def blocksFor (size : Nat) : Nat := (size + (blockSize - 1)) / blockSize * blockSize

/-! ## Fields -/

/-- A part of a block. -/
def field (block : Bytes) (start size : Nat) : Bytes := (block.drop start).take size

/-- The bytes before the first zero byte. -/
def untilZero (bytes : Bytes) : Bytes := bytes.takeWhile (· != 0)

/-- The number that digits of a base spell, if 64 bits hold it; a plus sign in front is allowed. -/
def natOfDigits? (base : Nat) (cs : List Char) : Option Nat :=
  let digits := match cs with
    | '+' :: rest => rest
    | _ => cs
  if digits.isEmpty || !digits.all (fun c => '0' ≤ c && c.toNat - 0x30 < base) then none
  else
    let n := digits.foldl (fun n c => n * base + (c.toNat - 0x30)) 0
    if n < UInt64.size then some n else none

/-- A number in octal digits, up to the first zero byte, blanks around it allowed. -/
def octal? (bytes : Bytes) : Option Nat := do
  let s ← Text.decode? (untilZero bytes)
  natOfDigits? 8 (Text.trimChars s.toList)

/-- A number in octal digits, or its last eight bytes, highest first, where the first bit is set. -/
def number? (bytes : Bytes) : Option Nat :=
  match bytes with
  | b :: _ =>
    if b < 0x80 then octal? bytes
    else some (Bytes.ofLittleEndian (bytes.reverse.take 8))
  | [] => none

/-! ## Headers -/

/-- The marks of the two newer kinds of headers. -/
inductive HeaderKind where
  | old
  | ustar
  | gnu
  deriving DecidableEq, Repr

/-- The kind of a header. -/
def headerKind (h : Bytes) : HeaderKind :=
  let mark := field h 257 8
  if mark = Text.encode "ustar\x0000" then .ustar
  else if mark = Text.encode "ustar  \x00" then .gnu
  else .old

/-- The type of an entry. -/
def typeFlag (h : Bytes) : UInt8 := h.getD 156 0

/-- The sum of all bytes of a header, its checksum field taken as blanks. -/
def headerSum (h : Bytes) : Nat :=
  let sum (bytes : Bytes) := bytes.foldl (fun n b => n + b.toNat) 0
  sum (h.take 148) + sum (h.drop 156) + 8 * 32

/-- Whether the checksum field is right. -/
def isSound (h : Bytes) : Bool :=
  match octal? (field h 148 8) with
  | some n => n % UInt32.size == headerSum h
  | none => false

/-- The name in a header. -/
def headerName (h : Bytes) : Bytes :=
  let name := field h 0 100
  let start := field h 345 155
  if headerKind h = .ustar && !(start.headD 0 == 0 && !name.contains 0x5c) then
    let start := untilZero start
    (if start.isEmpty then [] else start ++ [0x2f]) ++ untilZero name
  else untilZero name

/-! ## Extended attributes -/

/-- The pieces of bytes between separators. -/
def splitBytes (separator : UInt8) : Bytes → List Bytes
  | [] => [[]]
  | b :: bs =>
    if b = separator then [] :: splitBytes separator bs
    else
      match splitBytes separator bs with
      | [] => [[b]]
      | piece :: pieces => (b :: piece) :: pieces

/-- The name and value of an attribute line, which begins with its own length. -/
def attribute? (line : Bytes) : Option (Bytes × Bytes) := do
  let digits := line.takeWhile (· != 0x20)
  if digits.length = line.length then none
  let n ← natOfDigits? 10 (← Text.decode? digits).toList
  let rest := line.drop (digits.length + 1)
  let name := rest.takeWhile (· != 0x3d)
  if n = line.length + 1 ∧ name.length < rest.length then
    some (name, rest.drop (name.length + 1))
  else none

/-- The attribute lines, up to the first empty one. -/
def attributeLines (bytes : Bytes) : List (Option (Bytes × Bytes)) :=
  ((splitBytes 0x0a bytes).takeWhile fun l => !l.isEmpty).map attribute?

/-- The name among the attributes; lines that make no sense are skipped. -/
def attributeName? (bytes : Bytes) : Option Bytes :=
  ((attributeLines bytes).filterMap id).find? (fun a => a.1 == Text.encode "path") |>.map (·.2)

/-- The size among attributes, unless a line before it makes no sense. -/
def sizeIn? : List (Option (Bytes × Bytes)) → Option Nat
  | [] | none :: _ => none
  | some (name, value) :: rest =>
    if name = Text.encode "size" then do natOfDigits? 10 (← Text.decode? value).toList
    else sizeIn? rest

/-! ## Sparse files -/

/-- A sparse file as its pieces are listed: where the last one ends, how much of the contents they
have taken, and the size of the contents. -/
structure Sparse where
  reached : Nat
  taken : Nat
  size : Nat

/-- Adds one piece, if it is in order. -/
def Sparse.add? (s : Sparse) (piece : Bytes) : Option Sparse := do
  let offset := field piece 0 12
  let length := field piece 12 12
  if offset.headD 0 = 0 ∨ length.headD 0 = 0 then return s
  let offset ← number? offset
  let length ← number? length
  if (length ≠ 0 ∧ s.taken % blockSize ≠ 0) ∨ offset < s.reached ∨ UInt64.size ≤ offset + length ∨
      s.size < s.taken + length then none
  return { s with reached := offset + length, taken := s.taken + length }

/-- Adds a number of pieces. -/
def Sparse.addAll? (s : Sparse) (bytes : Bytes) : Nat → Option Sparse
  | 0 => some s
  | n + 1 => do (← s.add? bytes).addAll? (bytes.drop 24) n

/-- Adds the pieces of further blocks, each of which says whether another follows; gives the bytes
after them. -/
def Sparse.extend? : Nat → Sparse → Bool → Bytes → Option (Sparse × Bytes)
  | 0, _, _, _ => none
  | fuel + 1, s, more, bytes =>
    if !more then some (s, bytes)
    else if bytes.length < blockSize then none
    else do
      let s ← s.addAll? bytes 21
      extend? fuel s (bytes.getD 504 0 = 1) (bytes.drop blockSize)

/-- Checks a sparse file; gives the bytes after the blocks that list its pieces. -/
def afterSparse? (h : Bytes) (size : Nat) (bytes : Bytes) : Option Bytes := do
  if headerKind h ≠ .gnu then none
  let s ← Sparse.addAll? ⟨0, 0, size⟩ (h.drop 386) 4
  let (s, rest) ← s.extend? (bytes.length + 1) (h.getD 482 0 = 1) bytes
  if s.reached = (← number? (field h 483 12)) ∧ s.taken = size then return rest else none

/-! ## Entries -/

/-- What is known about the next entry. -/
structure Ahead where
  longName : Option Bytes := none
  longLink : Option Bytes := none
  attributes : Option Bytes := none

/-- Whether nothing is known. -/
def Ahead.isEmpty (a : Ahead) : Bool :=
  a.longName.isNone && a.longLink.isNone && a.attributes.isNone

/-- The name of an entry. -/
def entryName (a : Ahead) (h : Bytes) : Bytes :=
  match a.longName with
  | some name => if name.getLast? = some 0 then name.dropLast else name
  | none => (a.attributes.bind attributeName?).getD (headerName h)

/-- The types of entries that are about other entries. -/
def aboutOthers : List Char := ['L', 'K', 'x', 'g']

/-- The size of an entry's contents.  A size among attributes is that of the entry they are for, and
not of one between, about the same entry; there the type alone counts. -/
def entrySize? (a : Ahead) (h : Bytes) : Option Nat := do
  let size ← number? (field h 124 12)
  if aboutOthers.contains (Char.ofNat (typeFlag h).toNat) then return size
  return (a.attributes.bind fun b => sizeIn? (attributeLines b)).getD size

/-- What an entry is for. -/
inductive Role where
  | longName
  | longLink
  | attributes
  | sparse
  | file
  | other
  deriving DecidableEq, Repr

/-- The role of an entry; only the newer headers know entries about other entries. -/
def role (h : Bytes) : Role :=
  let c := Char.ofNat (typeFlag h).toNat
  let newer := headerKind h ≠ .old
  if c = 'L' ∧ newer then .longName
  else if c = 'K' ∧ newer then .longLink
  else if c = 'x' ∧ newer then .attributes
  else if c = 'S' then .sparse
  else if c = '0' ∨ c = '\x00' then .file
  else .other

/-- Keeps something for the next entry, unless it was given already. -/
def Ahead.learn? (a : Ahead) (data : Bytes) : Role → Option Ahead
  | .longName => if a.longName.isSome then none else some { a with longName := some data }
  | .longLink => if a.longLink.isSome then none else some { a with longLink := some data }
  | .attributes => if a.attributes.isSome then none else some { a with attributes := some data }
  | _ => none

/-- The entries of an archive; none if it has a flaw before its end. -/
def entriesFrom? (sound : Bool) : Nat → Ahead → Bytes → Option (List ArchiveEntry)
  | 0, _, _ => none
  | fuel + 1, a, bytes =>
    if bytes.isEmpty then if sound && a.isEmpty then some [] else none
    else if bytes.length < blockSize then none
    else
      let h := bytes.take blockSize
      if h.all (· == 0) then if a.isEmpty then some [] else none
      else if !isSound h then none
      else do
        let size ← entrySize? a h
        let r := role h
        let body ← if r = .sparse then afterSparse? h size (bytes.drop blockSize)
          else some (bytes.drop blockSize)
        if body.length < blocksFor size then none
        let data := body.take size
        let rest := body.drop (blocksFor size)
        match r with
        | .longName | .longLink | .attributes => entriesFrom? sound fuel (← a.learn? data r) rest
        | _ => return ⟨entryName a h, r = .file, data⟩ :: (← entriesFrom? sound fuel {} rest)

/-- The entries of an unpacked archive. -/
def entries? (u : Unpacked) : Option (List ArchiveEntry) :=
  entriesFrom? u.sound (u.bytes.length / blockSize + 2) {} u.bytes

/-! ## Writing -/

/-- Bytes filled up with zeros. -/
def padded (size : Nat) (bytes : Bytes) : Bytes :=
  bytes.take size ++ List.replicate (size - bytes.length) 0

/-- A number in the given count of octal digits. -/
def octalDigits : Nat → Nat → Bytes
  | 0, _ => []
  | digits + 1, n => octalDigits digits (n / 8) ++ [UInt8.ofNat (0x30 + n % 8)]

/-- A header with a given checksum field. -/
def headerWith (name : Bytes) (flag : UInt8) (size : Nat) (sum : Bytes) : Bytes :=
  padded 100 name ++ octalDigits 7 0o644 ++ [0] ++ octalDigits 7 0 ++ [0] ++ octalDigits 7 0 ++ [0] ++
    octalDigits 11 size ++ [0] ++ octalDigits 11 0 ++ [0] ++ sum ++ [flag] ++ padded 100 [] ++
    Text.encode "ustar  \x00" ++ padded 247 []

/-- A header. -/
def header (name : Bytes) (flag : UInt8) (size : Nat) : Bytes :=
  let blank := headerWith name flag size (List.replicate 8 0x20)
  headerWith name flag size (octalDigits 6 (headerSum blank) ++ [0, 0x20])

/-- Contents filled up to whole blocks. -/
def contents (data : Bytes) : Bytes := padded (blocksFor data.length) data

/-- An entry; a name that does not fit a header comes before it as an entry of its own. -/
def writeEntry (name : Bytes) (flag : UInt8) (data : Bytes) : Bytes :=
  let long := name ++ [0]
  (if 100 < name.length then
    header (Text.encode "././@LongLink") 0x4c long.length ++ contents long else []) ++
    header name flag data.length ++ contents data

/-- An archive of entries: their names, their types and their contents. -/
def write (entries : List (Bytes × UInt8 × Bytes)) : Bytes :=
  (entries.flatMap fun e => writeEntry e.1 e.2.1 e.2.2) ++ List.replicate (2 * blockSize) 0

end Tar

end GuestShell
