import GuestShell.Archive.Checksum
import GuestShell.Archive.Inflate
import GuestShell.Bytes

/-!
# Compressed files

A compressed file is a header, a deflated stream, and a footer with the checksum and the length of
what the stream held.  What comes after the footer is ignored.

A reader sees the contents piece by piece and learns only at their end whether the file was sound, so
a reader that has seen enough never learns.  `Unpacked` says what it can see: the contents as far as
they go, and whether their end is an end or a flaw.
-/

namespace GuestShell

/-- The contents of a compressed file, and whether the file is sound up to its footer. -/
structure Unpacked where
  bytes : Bytes
  sound : Bool
  deriving DecidableEq

namespace Gzip

/-! ## The header -/

/-- The longest text that a header may hold. -/
def maxText : Nat := 65535

/-- Skips a text that ends with a zero byte. -/
def skipText : Nat → Bytes → Option Bytes
  | _, [] => none
  | room, b :: rest =>
    if b = 0 then some rest
    else
      match room with
      | 0 => none
      | room + 1 => skipText room rest

/-- Skips a field with its length in front. -/
def skipCounted : Bytes → Option Bytes
  | a :: b :: rest =>
    let n := Bytes.ofLittleEndian [a, b]
    if n ≤ rest.length then some (rest.drop n) else none
  | _ => none

/-- Skips what the header holds under a flag. -/
def skipIf (flags : UInt8) (bit : Nat) (skip : Bytes → Option Bytes) (bytes : Bytes) : Option Bytes :=
  if flags.toNat.testBit bit then skip bytes else some bytes

/-- Checks the header's own checksum, the low half of the checksum of all bytes before it. -/
def checkHeader (all : Bytes) (left : Bytes) : Option Bytes :=
  match left with
  | a :: b :: rest =>
    let header := all.take (all.length - left.length)
    if (Checksum.crc32 header).toNat % 65536 = Bytes.ofLittleEndian [a, b] then some rest else none
  | _ => none

/-- The bytes after the header. -/
def afterHeader? (all : Bytes) : Option Bytes :=
  match all with
  | 0x1f :: 0x8b :: 8 :: flags :: _ :: _ :: _ :: _ :: _ :: _ :: rest =>
    if 0x20 ≤ flags then none
    else do
      let rest ← skipIf flags 2 skipCounted rest
      let rest ← skipIf flags 3 (skipText maxText) rest
      let rest ← skipIf flags 4 (skipText maxText) rest
      skipIf flags 1 (checkHeader all) rest
  | _ => none

/-! ## Files -/

/-- The footer: the checksum of the contents and their length, 32 bits each. -/
def footer (contents : Bytes) : Bytes :=
  Bytes.word32 (Checksum.crc32 contents).toNat ++ Bytes.word32 contents.length

/-- How much of the contents is decompressed at once, and how much of the file is read at once. -/
def windowSize : Nat := 32768

/-- How many bytes of the contents are out before the window with the last of them is begun. -/
def beforeLastWindow (size : Nat) : Nat := (size - 1) / windowSize * windowSize

/-- What was out before the part of the file with a flaw in it was read: the parts are tried in
turn, `n` times at most. -/
def beforeFlaw (file stream : Bytes) : Nat → Nat → Bytes → Bytes
  | 0, _, out => out
  | n + 1, read, out =>
    match Inflate.inflate (stream.take (read - (file.length - stream.length))) with
    | (out, .error .truncated) => beforeFlaw file stream n (read + windowSize) out
    | _ => out

/-- Unpacks a compressed file.  Reading goes part by part and decompressing window by window; what
was decompressed together with a flaw is lost. -/
def unpack (file : Bytes) : Unpacked :=
  match afterHeader? file with
  | none => ⟨[], false⟩
  | some stream =>
    match Inflate.inflate stream with
    | (contents, .ok rest) => ⟨contents, rest.take 8 == footer contents⟩
    | (contents, .error .truncated) => ⟨contents, false⟩
    | (contents, .error .corrupt) =>
      let earlier := beforeFlaw file stream (file.length / windowSize) windowSize []
      ⟨contents.take (max (beforeLastWindow contents.length) earlier.length), false⟩

/-! ## Writing -/

/-- The greatest length of a block that holds its bytes as they are. -/
def maxStored : Nat := 65535

/-- A stream that holds bytes as they are. -/
def storedBlocks : Nat → Bytes → Bytes
  | 0, _ => []
  | fuel + 1, bytes =>
    let part := bytes.take maxStored
    let rest := bytes.drop maxStored
    (if rest.isEmpty then 1 else 0) :: Bytes.word16 part.length ++
      Bytes.word16 (maxStored - part.length) ++ part ++
      (if rest.isEmpty then [] else storedBlocks fuel rest)

/-- A compressed file with the given contents, which it holds as they are. -/
def pack (contents : Bytes) : Bytes :=
  [0x1f, 0x8b, 8, 0, 0, 0, 0, 0, 0, 3] ++ storedBlocks (contents.length + 1) contents ++
    footer contents

end Gzip

end GuestShell
