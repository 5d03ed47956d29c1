import GuestShell.Sandbox.Libc
import Mathlib.Tactic.Lemma
import Mathlib.Tactic.SplitIfs

/-!
# The lines of a directory listing

The host writes a listing into the guest's memory line by line, each a header and a name, and cuts it
where the memory ends.  A guest reads the lines that are there as a whole (`linesOf`).

What it reads of a listing that was cut anywhere are the first lines of the listing (`linesOf_take`):
a line that was cut is told by the length in its header, or by the want of a header, and the cut hits
one line only.  How the host goes about the cut makes no difference (`take_entryBytes`).
-/

namespace GuestShell.Libc

variable {bytes rest : Bytes} {serial : Nat} {es : List (String × FileType)}

/-! ## Writing -/

lemma length_entryRecord (serial nameLength : Nat) (t : FileType) :
    (entryRecord serial nameLength t).length = 24 := by
  simp [entryRecord, padding, Bytes.word64]

/-- The bytes of one line; `serial` lines come before it. -/
def lineBytes (serial : Nat) (e : String × FileType) : Bytes :=
  entryRecord (serial + 1) (Text.byteLength e.1) e.2 ++ Text.encode e.1

/-- The bytes of a whole listing. -/
def listingBytes (serial : Nat) : List (String × FileType) → Bytes
  | [] => []
  | e :: es => lineBytes serial e ++ listingBytes (serial + 1) es

lemma length_lineBytes (serial : Nat) (e : String × FileType) :
    (lineBytes serial e).length = 24 + Text.byteLength e.1 := by
  rw [lineBytes, List.length_append, length_entryRecord, Text.byteLength]

/-- The host stops when there is no room left, which is as good as to go on. -/
lemma take_entryBytes (room : Nat) :
    (entryBytes room serial es).take room = (listingBytes serial es).take room := by
  induction es generalizing room serial with
  | nil => rfl
  | cons e es ih =>
    rw [entryBytes, listingBytes]
    split_ifs with hroom
    · rw [hroom, List.take_zero, List.take_zero]
    · show (lineBytes serial e ++
        entryBytes (room - (lineBytes serial e).length) (serial + 1) es).take room = _
      rw [List.take_append, List.take_append, ih]

/-! ## Reading -/

/-- A line as a guest reads it: where to go on after it, and the length, the name and the number of
the kind of what it lists. -/
structure Line where
  next : Nat
  nameLength : Nat
  name : Bytes
  type : UInt8
  deriving DecidableEq

/-- The first line, if its header and its name are there as a whole, and the bytes after it. -/
def line? (bytes : Bytes) : Option (Line × Bytes) :=
  let nameLength := Bytes.ofLittleEndian ((bytes.drop 16).take 4)
  if bytes.length < 24 then none
  else if bytes.length < 24 + nameLength then none
  else some (⟨Bytes.ofLittleEndian (bytes.take 8), nameLength, (bytes.drop 24).take nameLength,
    bytes.getD 20 0⟩, bytes.drop (24 + nameLength))

lemma length_lt_of_line? {l : Line} (h : line? bytes = some (l, rest)) :
    rest.length < bytes.length := by
  rw [line?] at h
  split_ifs at h
  obtain ⟨-, rfl⟩ := Prod.mk.inj (Option.some.inj h)
  rw [List.length_drop]
  omega

/-- All lines that are there as a whole. -/
def linesOf (bytes : Bytes) : List Line :=
  match _h : line? bytes with
  | none => []
  | some (l, rest) => l :: linesOf rest
termination_by bytes.length
decreasing_by exact length_lt_of_line? _h

lemma linesOf_none (h : line? bytes = none) : linesOf bytes = [] := by
  rw [linesOf]
  split
  · rfl
  · rename_i h'
    cases h.symm.trans h'

lemma linesOf_some {l : Line} (h : line? bytes = some (l, rest)) :
    linesOf bytes = l :: linesOf rest := by
  rw [linesOf]
  split
  · rename_i h'
    cases h.symm.trans h'
  · rename_i h'
    cases h.symm.trans h'
    rfl

/-! ## Reading what was written -/

/-- The line that is to be read; `serial` lines come before it. -/
def lineOf (serial : Nat) (e : String × FileType) : Line :=
  ⟨serial + 1, Text.byteLength e.1, Text.encode e.1, e.2.code⟩

/-- The lines that are to be read of a whole listing. -/
def linesFrom (serial : Nat) : List (String × FileType) → List Line
  | [] => []
  | e :: es => lineOf serial e :: linesFrom (serial + 1) es

/-- The fields of a header, whatever comes after it. -/
lemma fields_entryRecord (serial nameLength : Nat) (t : FileType) (more : Bytes) :
    Bytes.ofLittleEndian ((entryRecord serial nameLength t ++ more).take 8) = serial % UInt64.size ∧
    Bytes.ofLittleEndian (((entryRecord serial nameLength t ++ more).drop 16).take 4) =
      nameLength % UInt32.size ∧
    (entryRecord serial nameLength t ++ more).getD 20 0 = t.code := by
  have hword (k : Nat) : (Bytes.word64 k).length = 8 := Bytes.length_littleEndian 8 k
  refine ⟨?_, ?_, ?_⟩
  · have hsplit : entryRecord serial nameLength t ++ more = Bytes.word64 serial ++
        (Bytes.word64 serial ++ Bytes.word32 nameLength ++ [t.code] ++ padding 3 ++ more) := by
      simp [entryRecord]
    rw [hsplit, List.take_left' (hword serial)]
    exact Bytes.ofLittleEndian_littleEndian 8 serial
  · have hsplit : entryRecord serial nameLength t ++ more =
        (Bytes.word64 serial ++ Bytes.word64 serial) ++
          (Bytes.word32 nameLength ++ ([t.code] ++ padding 3 ++ more)) := by
      simp [entryRecord]
    rw [hsplit, List.drop_left' (by simp [hword]), List.take_left' (Bytes.length_word32 nameLength)]
    exact Bytes.ofLittleEndian_littleEndian 4 nameLength
  · have hsplit : entryRecord serial nameLength t ++ more =
        (Bytes.word64 serial ++ Bytes.word64 serial ++ Bytes.word32 nameLength) ++
          (t.code :: (padding 3 ++ more)) := by
      simp [entryRecord]
    rw [hsplit, List.getD_eq_getElem?_getD, List.getElem?_append_right (by simp [hword])]
    simp [hword]

section

variable {e : String × FileType} (hname : Text.byteLength e.1 < UInt32.size)

include hname

/-- A line that is there as a whole is read. -/
lemma line?_lineBytes (hserial : serial + 1 < UInt64.size) (rest : Bytes) :
    line? (lineBytes serial e ++ rest) = some (lineOf serial e, rest) := by
  have hlength := length_lineBytes serial e
  obtain ⟨hnext, hnameLength, htype⟩ :=
    fields_entryRecord (serial + 1) (Text.byteLength e.1) e.2 (Text.encode e.1 ++ rest)
  rw [← List.append_assoc] at hnext hnameLength htype
  rw [Nat.mod_eq_of_lt hserial] at hnext
  rw [Nat.mod_eq_of_lt hname] at hnameLength
  have hdrop : ((lineBytes serial e ++ rest).drop 24).take (Text.byteLength e.1) =
      Text.encode e.1 := by
    rw [lineBytes, List.append_assoc, List.drop_left' (length_entryRecord _ _ _),
      List.take_left' (show (Text.encode e.1).length = Text.byteLength e.1 from rfl)]
  rw [← lineBytes] at hnext hnameLength htype
  rw [line?, hnameLength, if_neg (by rw [List.length_append]; omega),
    if_neg (by rw [List.length_append]; omega), hnext, htype, hdrop, List.drop_left' hlength]
  rfl

/-- A line that was cut is not read. -/
lemma line?_cut (serial : Nat) {room : Nat} (hroom : room < 24 + Text.byteLength e.1) :
    line? ((lineBytes serial e).take room) = none := by
  have hlength : ((lineBytes serial e).take room).length = room := by
    rw [List.length_take, length_lineBytes]
    omega
  rw [line?, hlength]
  split_ifs with hheader hcut
  · rfl
  · rfl
  · -- the header is there as a whole, so it tells how long the line should be
    obtain ⟨-, hnameLength, -⟩ := fields_entryRecord (serial + 1) (Text.byteLength e.1) e.2
      ((Text.encode e.1).take (room - 24))
    have htake : (lineBytes serial e).take room =
        entryRecord (serial + 1) (Text.byteLength e.1) e.2 ++ (Text.encode e.1).take (room - 24) := by
      rw [lineBytes, List.take_append, length_entryRecord,
        List.take_of_length_le (by rw [length_entryRecord]; omega)]
    rw [htake, hnameLength, Nat.mod_eq_of_lt hname] at hcut
    exact absurd hroom hcut

end

/-- **What is read of a listing that was cut are its first lines**: at least one if there is room for
it, and all if nothing was cut. -/
theorem linesOf_take (es : List (String × FileType)) (serial room : Nat)
    (hserial : serial + es.length < UInt64.size)
    (hnames : ∀ e ∈ es, Text.byteLength e.1 < UInt32.size) :
    ∃ k ≤ es.length, linesOf ((listingBytes serial es).take room) = linesFrom serial (es.take k) ∧
      ((∀ e ∈ es, 24 + Text.byteLength e.1 ≤ room) → es ≠ [] → k ≠ 0) ∧
      ((listingBytes serial es).length ≤ room → k = es.length) := by
  induction es generalizing serial room with
  | nil =>
    exact ⟨0, Nat.le_refl _, linesOf_none (by simp [listingBytes, line?]), fun _ h => absurd rfl h,
      fun _ => rfl⟩
  | cons e es ih =>
    obtain ⟨hname, hnames⟩ := List.forall_mem_cons.1 hnames
    rw [List.length_cons] at hserial
    have hlength := length_lineBytes serial e
    rw [listingBytes, List.take_append, hlength]
    by_cases hroom : 24 + Text.byteLength e.1 ≤ room
    · obtain ⟨k, hk, hlines, -, hall⟩ :=
        ih (serial + 1) (room - (24 + Text.byteLength e.1)) (by omega) hnames
      refine ⟨k + 1, by simpa using hk, ?_, fun _ _ => Nat.succ_ne_zero k, fun hle => ?_⟩
      · rw [List.take_of_length_le (by omega), linesOf_some (line?_lineBytes hname (by omega) _),
          hlines]
        rfl
      · rw [List.length_append, hlength] at hle
        rw [hall (by omega), List.length_cons]
    · have hcut := line?_cut hname serial (Nat.not_le.1 hroom)
      rw [Nat.sub_eq_zero_of_le (by omega), List.take_zero, List.append_nil]
      refine ⟨0, Nat.zero_le _, linesOf_none hcut, fun h => absurd (h e List.mem_cons_self) hroom,
        fun hle => ?_⟩
      rw [List.length_append, hlength] at hle
      omega

lemma linesFrom_append (serial : Nat) (es fs : List (String × FileType)) :
    linesFrom serial (es ++ fs) = linesFrom serial es ++ linesFrom (serial + es.length) fs := by
  induction es generalizing serial with
  | nil => rfl
  | cons e es ih =>
    rw [List.cons_append, linesFrom, linesFrom, ih, List.cons_append, List.length_cons,
      Nat.add_assoc, Nat.add_comm 1]

/-- The last line tells where to go on: after all that were read. -/
lemma next_getLast? (serial : Nat) {es : List (String × FileType)} (hes : es ≠ []) :
    (linesFrom serial es).getLast?.map Line.next = some (serial + es.length) := by
  induction es generalizing serial with
  | nil => exact absurd rfl hes
  | cons e es ih =>
    cases es with
    | nil => rfl
    | cons e' es =>
      have := ih (serial + 1) (List.cons_ne_nil e' es)
      rw [linesFrom, linesFrom, List.getLast?_cons_cons, ← linesFrom, this]
      congr 1
      simp only [List.length_cons]
      omega

end GuestShell.Libc
