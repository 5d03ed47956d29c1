import GuestShell.Bytes
import GuestShell.Engine.Error
import Std.Data.TreeMap

/-!
# Guest memory

The linear memory of a guest.  A host reaches it only through checked accesses: an access from an
address on, of a number of bytes, either lies inside the memory as a whole or fails as a whole.  In
particular a failing write changes nothing, and a write changes no byte outside its area
(`byteAt_write`).

A memory may be large and hardly used, so what is kept of it is its size and the bytes that were
written.
-/

namespace GuestShell

/-- The bytes of a guest's memory. -/
structure Memory where
  /-- The number of bytes. -/
  size : Nat
  /-- The bytes that were written, by address; all others are zero. -/
  written : Std.TreeMap Nat UInt8

namespace Memory

/-- No memory at all. -/
def empty : Memory := ⟨0, ∅⟩

instance : Inhabited Memory := ⟨empty⟩

/-- The size of a page. -/
def pageSize : Nat := 65536

/-- The greatest number of pages: addresses have 32 bits. -/
def maxPages : Nat := 65536

/-- A number of pages of zeros. -/
def zeros (pages : Nat) : Memory := ⟨pages * pageSize, ∅⟩

/-- The byte at an address. -/
def byteAt (m : Memory) (address : Nat) : UInt8 := m.written.getD address 0

/-- The bytes of an area, inside the memory or not. -/
def area (m : Memory) (address size : Nat) : Bytes :=
  (List.range size).map fun k => m.byteAt (address + k)

/-- All bytes. -/
def toList (m : Memory) : Bytes := m.area 0 m.size

/-- The failure of an access; all three numbers are reported with 32 bits. -/
def outside (m : Memory) (address size : Nat) : EngineError :=
  .outOfBounds address (size % UInt32.size) (m.size % UInt32.size)

/-- Fails unless the area lies inside the memory. -/
def check (m : Memory) (address size : Nat) : Except EngineError Unit :=
  if address + size ≤ m.size then .ok () else .error (m.outside address size)

/-! ## Reading -/

/-- The bytes of an area. -/
def read (m : Memory) (address size : Nat) : Except EngineError Bytes :=
  if address + size ≤ m.size then .ok (m.area address size)
  else .error (m.outside address size)

/-- The 32-bit word at an address. -/
def readWord32 (m : Memory) (address : Nat) : Except EngineError Nat :=
  (m.read address 4).map Bytes.ofLittleEndian

/-- The text in an area. -/
def readText (m : Memory) (address size : Nat) : Except EngineError String :=
  (m.read address size).map Text.decodeLossy

/-! ## Writing -/

/-- Puts bytes one after another. -/
def fill (written : Std.TreeMap Nat UInt8) (address : Nat) : Bytes → Std.TreeMap Nat UInt8
  | [] => written
  | b :: bs => fill (written.insert address b) (address + 1) bs

/-- What is at an address after bytes were put. -/
theorem getD_fill (written : Std.TreeMap Nat UInt8) (address i : Nat) (bytes : Bytes) :
    (fill written address bytes).getD i 0 =
      if address ≤ i ∧ i < address + bytes.length then bytes.getD (i - address) 0
      else written.getD i 0 := by
  induction bytes generalizing written address with
  | nil =>
    rw [fill, if_neg]
    simp only [List.length_nil]
    omega
  | cons b bs ih =>
    rw [fill, ih, List.length_cons, Std.TreeMap.getD_insert]
    by_cases h : address = i
    · subst h
      rw [if_neg (by omega), if_pos (by simp), if_pos (by omega), Nat.sub_self]
      rfl
    · have hne : ¬ compare address i = Ordering.eq := by simpa using h
      rw [if_neg hne]
      by_cases hi : address + 1 ≤ i ∧ i < address + 1 + bs.length
      · rw [if_pos hi, if_pos (by omega), show i - address = (i - (address + 1)) + 1 by omega]
        rfl
      · rw [if_neg hi, if_neg (by omega)]

/-- A memory with the given bytes. -/
def ofList (bytes : Bytes) : Memory := ⟨bytes.length, fill ∅ 0 bytes⟩

/-- Puts bytes into an area. -/
def write (m : Memory) (address : Nat) (bytes : Bytes) : Except EngineError Memory :=
  if address + bytes.length ≤ m.size then .ok { m with written := fill m.written address bytes }
  else .error (m.outside address bytes.length)

/-- Puts a 32-bit word. -/
def writeWord32 (m : Memory) (address value : Nat) : Except EngineError Memory :=
  m.write address (Bytes.word32 value)

/-- Puts a 64-bit word. -/
def writeWord64 (m : Memory) (address value : Nat) : Except EngineError Memory :=
  m.write address (Bytes.word64 value)

/-- A write keeps the size. -/
theorem size_write {m m' : Memory} {address : Nat} {bytes : Bytes}
    (h : m.write address bytes = .ok m') : m'.size = m.size := by
  rw [write] at h
  split at h
  · cases h
    rfl
  · cases h

/-- **A write changes exactly its area.** -/
theorem byteAt_write {m m' : Memory} {address : Nat} {bytes : Bytes}
    (h : m.write address bytes = .ok m') (i : Nat) :
    m'.byteAt i = if address ≤ i ∧ i < address + bytes.length then bytes.getD (i - address) 0
      else m.byteAt i := by
  rw [write] at h
  split at h
  · cases h
    exact getD_fill m.written address i bytes
  · cases h

end Memory

end GuestShell
