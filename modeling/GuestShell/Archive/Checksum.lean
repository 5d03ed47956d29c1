import GuestShell.Text.Utf8

/-!
# Checksums

The 32-bit cyclic redundancy check with the reflected polynomial `edb88320`, as compressed files carry
it: the register starts with all bits set, takes in one bit after another, lowest first, and is
inverted at the end.
-/

namespace GuestShell.Checksum

/-- The polynomial, lowest power first. -/
def polynomial : UInt32 := 0xedb88320

/-- Takes a number of bits out of the register. -/
def shift : Nat → UInt32 → UInt32
  | 0, r => r
  | n + 1, r => shift n (if r &&& 1 = 1 then (r >>> 1) ^^^ polynomial else r >>> 1)

/-- Takes in a byte. -/
def add (r : UInt32) (b : UInt8) : UInt32 := shift 8 (r ^^^ b.toUInt32)

/-- The checksum of bytes. -/
def crc32 (bytes : Bytes) : UInt32 := bytes.foldl add 0xffffffff ^^^ 0xffffffff

end GuestShell.Checksum
