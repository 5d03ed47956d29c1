import GuestShell.Text.Utf8

/-!
# Numbers and digits as bytes

Words are stored lowest byte first.  `littleEndian n k` is the number `k` in `n` bytes, and
`ofLittleEndian` reads it back (`ofLittleEndian_littleEndian`).  `hex` and `ofHex?` are the written
form of a byte string, two digits a byte.
-/

namespace GuestShell.Bytes

/-! ## Words -/

/-- The `n` low bytes of a number, lowest first. -/
def littleEndian : Nat → Nat → Bytes
  | 0, _ => []
  | n + 1, k => UInt8.ofNat k :: littleEndian n (k / 256)

/-- The number whose bytes are given lowest first. -/
def ofLittleEndian : Bytes → Nat
  | [] => 0
  | b :: bs => b.toNat + 256 * ofLittleEndian bs

@[simp] theorem length_littleEndian (n k : Nat) : (littleEndian n k).length = n := by
  induction n generalizing k with
  | zero => rfl
  | succ n ih => simp [littleEndian, ih]

/-- Reading a word gives the number back, less what did not fit. -/
theorem ofLittleEndian_littleEndian (n k : Nat) :
    ofLittleEndian (littleEndian n k) = k % 1 <<< (8 * n) := by
  induction n generalizing k with
  | zero => simp [littleEndian, ofLittleEndian, Nat.mod_one]
  | succ n ih =>
    have hstep : 1 <<< (8 * (n + 1)) = 256 * 1 <<< (8 * n) := by
      rw [Nat.one_shiftLeft, Nat.one_shiftLeft, Nat.mul_succ, Nat.pow_add, Nat.mul_comm]
    rw [littleEndian, ofLittleEndian, ih, hstep, Nat.mod_mul]
    simp

/-- A 16-bit word. -/
def word16 (k : Nat) : Bytes := littleEndian 2 k

/-- A 32-bit word. -/
def word32 (k : Nat) : Bytes := littleEndian 4 k

@[simp] theorem length_word32 (k : Nat) : (word32 k).length = 4 := length_littleEndian 4 k

/-- A 64-bit word. -/
def word64 (k : Nat) : Bytes := littleEndian 8 k

/-! ## The written form -/

/-- The hexadecimal digit of a number below 16, in lower case. -/
def hexDigit (n : Nat) : Char :=
  if n < 10 then Char.ofNat (0x30 + n) else Char.ofNat (0x57 + n)

/-- The value of a hexadecimal digit, of either case. -/
def hexValue? (c : Char) : Option Nat :=
  if '0' ≤ c ∧ c ≤ '9' then some (c.toNat - 0x30)
  else if 'a' ≤ c ∧ c ≤ 'f' then some (c.toNat - 0x57)
  else if 'A' ≤ c ∧ c ≤ 'F' then some (c.toNat - 0x37)
  else none

/-- Two digits for each byte. -/
def hex (bytes : Bytes) : String :=
  String.ofList (bytes.flatMap fun b => [hexDigit (b.toNat / 16), hexDigit (b.toNat % 16)])

/-- The bytes that pairs of digits stand for. -/
def ofHexDigits? : List Char → Option Bytes
  | [] => some []
  | h :: l :: rest => do
    let hi ← hexValue? h
    let lo ← hexValue? l
    let bytes ← ofHexDigits? rest
    return UInt8.ofNat (hi * 16 + lo) :: bytes
  | [_] => none

/-- The bytes that a written form stands for. -/
def ofHex? (s : String) : Option Bytes :=
  ofHexDigits? s.toList

end GuestShell.Bytes
