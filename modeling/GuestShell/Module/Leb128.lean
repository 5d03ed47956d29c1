import GuestShell.Text.Utf8

/-!
# Numbers in module files

A number is written seven bits a byte, lowest first; every byte but the last has its high bit set.
The form may be longer than needed, but at most ten bytes long, and what passes 64 bits is dropped.

`encode` writes the shortest form.  `decode` reads any form and leaves the bytes after it, which are
fewer than it was given (`decode_shortens`).
-/

namespace GuestShell.Leb128

/-- The shortest form of a number. -/
def encode (n : Nat) : Bytes :=
  if n < 128 then [UInt8.ofNat n] else UInt8.ofNat (n % 128 + 128) :: encode (n / 128)
termination_by n
decreasing_by omega

/-- Why a number cannot be read. -/
inductive Fault where
  /-- The bytes end inside the number. -/
  | ends
  /-- The number goes on past its tenth byte. -/
  | tooLong

/-- Reads a number of at most the given number of bytes. -/
def decodeWithin : Nat → Bytes → Except Fault (Nat × Bytes)
  | 0, _ => .error .tooLong
  | _ + 1, [] => .error .ends
  | limit + 1, b :: rest =>
    if b < 0x80 then .ok (b.toNat, rest)
    else
      match decodeWithin limit rest with
      | .ok (n, rest) => .ok (b.toNat - 128 + 128 * n, rest)
      | .error e => .error e

/-- The most bytes that a number can take. -/
def maxBytes : Nat := 10

/-- Reads the number at the start of the bytes, and gives the bytes after it. -/
def decode (bytes : Bytes) : Except Fault (Nat × Bytes) :=
  match decodeWithin maxBytes bytes with
  | .ok (n, rest) => .ok (n % UInt64.size, rest)
  | .error e => .error e

theorem decodeWithin_shortens {limit : Nat} {bytes rest : Bytes} {n : Nat}
    (h : decodeWithin limit bytes = .ok (n, rest)) : rest.length < bytes.length := by
  induction limit generalizing bytes rest n with
  | zero => simp [decodeWithin] at h
  | succ limit ih =>
    match bytes with
    | [] => simp [decodeWithin] at h
    | b :: tail =>
      rw [decodeWithin] at h
      split at h
      · cases h
        simp
      · split at h
        · rename_i m r hr
          cases h
          have := ih hr
          simp only [List.length_cons]
          omega
        · cases h

/-- What is left after a number is shorter than what was given. -/
theorem decode_shortens {bytes rest : Bytes} {n : Nat} (h : decode bytes = .ok (n, rest)) :
    rest.length < bytes.length := by
  rw [decode] at h
  split at h
  · rename_i m r hr
    cases h
    exact decodeWithin_shortens hr
  · cases h

end GuestShell.Leb128
