/-!
# Text as bytes

`encode` writes text as UTF-8.  Reading goes through one function, `units`: it cuts a byte string
into characters and *flaws*, where a flaw is a longest beginning of some character's encoding that
cannot go on.  The two readers differ only in what they make of a flaw:

* `decodeLossy` puts U+FFFD in its place, one for each flaw;
* `decode?` refuses.
-/

namespace GuestShell

/-- A byte string: the contents of files, modules and messages. -/
abbrev Bytes := List UInt8

namespace Text

/-- The UTF-8 form of a text. -/
def encode (s : String) : Bytes :=
  s.toList.flatMap String.utf8EncodeChar

/-- The number of bytes of the UTF-8 form. -/
def byteLength (s : String) : Nat :=
  (encode s).length

/-- The number of bytes of texts, each with a zero byte after it. -/
def terminatedLength : List String → Nat
  | [] => 0
  | s :: rest => byteLength s + 1 + terminatedLength rest

/-! ## Reading -/

/-- A byte that continues a character: `10xxxxxx`. -/
def isContinuation (b : UInt8) : Bool :=
  0x80 ≤ b && b ≤ 0xbf

/-- Whether `b` may follow the first byte `lead` of a character of three bytes.  The narrower
ranges keep out overlong forms and surrogates. -/
def followsThree (lead b : UInt8) : Bool :=
  if lead == 0xe0 then 0xa0 ≤ b && b ≤ 0xbf
  else if lead == 0xed then 0x80 ≤ b && b ≤ 0x9f
  else isContinuation b

/-- Whether `b` may follow the first byte `lead` of a character of four bytes.  The narrower
ranges keep out overlong forms and code points past U+10FFFF. -/
def followsFour (lead b : UInt8) : Bool :=
  if lead == 0xf0 then 0x90 ≤ b && b ≤ 0xbf
  else if lead == 0xf4 then 0x80 ≤ b && b ≤ 0x8f
  else isContinuation b

/-- The low six bits of a continuation byte. -/
def payload (b : UInt8) : Nat :=
  b.toNat % 64

/-- The character or flaw that begins with the byte `a`, and how many of the bytes after it belong
to it. -/
def readUnit (a : UInt8) (rest : Bytes) : Option Char × Nat :=
  if a < 0x80 then (some (Char.ofNat a.toNat), 0)
  else if 0xc2 ≤ a && a ≤ 0xdf then
    match rest with
    | b :: _ =>
      if isContinuation b then (some (Char.ofNat (a.toNat % 32 * 64 + payload b)), 1)
      else (none, 0)
    | [] => (none, 0)
  else if 0xe0 ≤ a && a ≤ 0xef then
    match rest with
    | b :: rest =>
      if followsThree a b then
        match rest with
        | c :: _ =>
          if isContinuation c then
            (some (Char.ofNat (a.toNat % 16 * 4096 + payload b * 64 + payload c)), 2)
          else (none, 1)
        | [] => (none, 1)
      else (none, 0)
    | [] => (none, 0)
  else if 0xf0 ≤ a && a ≤ 0xf4 then
    match rest with
    | b :: rest =>
      if followsFour a b then
        match rest with
        | c :: rest =>
          if isContinuation c then
            match rest with
            | d :: _ =>
              if isContinuation d then
                (some (Char.ofNat (a.toNat % 8 * 262144 + payload b * 4096 + payload c * 64 +
                  payload d)), 3)
              else (none, 2)
            | [] => (none, 2)
          else (none, 1)
        | [] => (none, 1)
      else (none, 0)
    | [] => (none, 0)
  else (none, 0)

/-- The units that begin after the first `skip` bytes. -/
def unitsAfter : Nat → Bytes → List (Option Char)
  | _, [] => []
  | 0, a :: rest => (readUnit a rest).1 :: unitsAfter (readUnit a rest).2 rest
  | skip + 1, _ :: rest => unitsAfter skip rest

/-- The characters of a byte string, with `none` for each flaw. -/
def units (bytes : Bytes) : List (Option Char) :=
  unitsAfter 0 bytes

/-- The text of a byte string, U+FFFD standing for each flaw. -/
def decodeLossy (bytes : Bytes) : String :=
  String.ofList ((units bytes).map fun u => u.getD '\uFFFD')

/-- The text of a byte string without flaws. -/
def decode? (bytes : Bytes) : Option String :=
  ((units bytes).mapM id).map String.ofList

end Text

end GuestShell
