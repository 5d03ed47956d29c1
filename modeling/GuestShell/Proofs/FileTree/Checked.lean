import GuestShell.Proofs.FileTree.Limits

/-!
# Files with the numbers of a machine

The numbers of the model have no end.  Those of a machine have 32 or 64 bits, bytes can be taken out
of others only where these have some, and no more than `maxLength` bytes can be held in one
piece.  The functions of `Checked` give nothing where this is not so.

`FileTree.Checked` has the requests that compute with lengths and positions, with a check at each
sum, at each part of the contents and wherever contents grow; where a check fails, the file would be
too long.  As long as a tree is within its limits, they are the requests themselves (`read_eq`,
`write_eq`, `setLength_eq`): a read always fits, and what does not fit in a write are the contents
that it would leave.
-/

namespace GuestShell

/-! ## What a machine can compute -/

namespace Checked

/-- A number below a bound. -/
def below? (bound n : Nat) : Option Nat := if n < bound then some n else none

/-- The bytes from `start` up to `finish`. -/
def part? (bytes : Bytes) (start finish : Nat) : Option Bytes :=
  if start ≤ finish ∧ finish ≤ bytes.length then some ((bytes.drop start).take (finish - start))
  else none

/-- Other bytes from `start` up to `finish`, just as many. -/
def replaced? (bytes : Bytes) (start finish : Nat) (chunk : Bytes) : Option Bytes :=
  if start ≤ finish ∧ finish ≤ bytes.length ∧ chunk.length = finish - start then
    some (bytes.take start ++ chunk ++ bytes.drop finish)
  else none

/-- Bytes cut, or filled up with zeros, to a length. -/
def resized? (bytes : Bytes) (size : Nat) : Option Bytes :=
  if size ≤ FileTree.maxLength then some (FileTree.resized bytes size) else none

/-- Bytes with others behind them. -/
def extended? (bytes more : Bytes) : Option Bytes :=
  if bytes.length + more.length ≤ FileTree.maxLength then some (bytes ++ more) else none

variable {bytes chunk more : Bytes} {bound n start finish size : Nat}

lemma below?_of_lt (h : n < bound) : below? bound n = some n := if_pos h

lemma part?_of_le (hstart : start ≤ finish) (hfinish : finish ≤ bytes.length) :
    part? bytes start finish = some ((bytes.drop start).take (finish - start)) :=
  if_pos ⟨hstart, hfinish⟩

/-- As many of the first bytes as there is room for. -/
lemma part?_take (bytes : Bytes) (room : Nat) :
    part? bytes 0 (min bytes.length room) = some (bytes.take room) := by
  rw [part?_of_le (Nat.zero_le _) (Nat.min_le_left _ _), Nat.sub_zero, List.drop_zero, Nat.min_comm,
    ← List.take_eq_take_min]

lemma replaced?_of_le (hsize : finish = start + chunk.length) (hfinish : finish ≤ bytes.length) :
    replaced? bytes start finish chunk = some (bytes.take start ++ chunk ++ bytes.drop finish) :=
  if_pos ⟨by omega, hfinish, by omega⟩

lemma resized?_of_le (h : size ≤ FileTree.maxLength) :
    resized? bytes size = some (FileTree.resized bytes size) := if_pos h

lemma resized?_of_lt (h : FileTree.maxLength < size) : resized? bytes size = none :=
  if_neg (Nat.not_le.2 h)

lemma extended?_of_le (h : bytes.length + more.length ≤ FileTree.maxLength) :
    extended? bytes more = some (bytes ++ more) := if_pos h

end Checked

/-! ## Requests -/

namespace FileTree

open GuestShell.Checked

lemma maxLength_lt : maxLength < UInt64.size := by decide

/-- What could be computed, or else there is too much of it. -/
def need {α : Type} : Option α → Action α
  | some v => return v
  | none => throw .tooLong

lemma need_some {α : Type} (v : α) : need (some v) = pure v := rfl

namespace Checked

/-- Reads at most `len` bytes from the position on, into a buffer of that length. -/
def read (handle len : Nat) : Action Bytes := do
  let f ← openFile handle
  if !f.readable then throw .notReadable
  let (data, _) ← fileAt f.path
  let start := min f.position data.length
  let count := min len (data.length - start)
  let finish ← need (below? UInt64.size (start + count))
  let chunk ← need (part? data start finish)
  let buffer ← need (replaced? (List.replicate len 0) 0 count chunk)
  let position ← need (below? UInt64.size (f.position + count))
  setPosition handle position
  return buffer.take count

/-- Writes at the position, or at the end for a file opened to append. -/
def write (now : Moment) (handle : Nat) (chunk : Bytes) : Action Nat := do
  let f ← openFile handle
  if !f.writable then throw .notWritable
  let (data, _) ← fileAt f.path
  let start := if f.append then data.length else f.position
  let finish ← need (below? UInt64.size (start + chunk.length))
  let data ← if data.length < finish then need (resized? data finish) else pure data
  let data ← need (replaced? data start finish chunk)
  modify (·.withNode f.path (.file data now))
  setPosition handle finish
  return chunk.length

/-- Cuts or extends an open file. -/
def setLength (now : Moment) (handle size : Nat) : Action Unit := do
  let p ← handlePath handle
  let (data, _) ← fileAt p
  let data ← need (resized? data size)
  modify (·.withNode p (.file data now))

variable {t : FileTree}

/-- The part that is read begins at the end of the contents at the latest. -/
lemma part?_of_read (data : Bytes) (position len : Nat) :
    let start := min position data.length
    let chunk := (data.drop position).take len
    min len (data.length - start) = chunk.length ∧
      part? data start (start + chunk.length) = some chunk := by
  intro start chunk
  have hlength : chunk.length = min len (data.length - position) := by
    rw [List.length_take, List.length_drop]
  refine ⟨by omega, (part?_of_le (Nat.le_add_right _ _) (by omega)).trans (congrArg some ?_)⟩
  rw [Nat.add_sub_cancel_left, hlength]
  by_cases h : position ≤ data.length
  · rw [show start = position from Nat.min_eq_left h, ← List.length_drop, ← List.take_eq_take_min]
  · have hpart : data.drop position = [] := List.drop_eq_nil_of_le (by omega)
    have hstart : data.drop start = [] := List.drop_eq_nil_of_le (by omega)
    rw [hstart, List.take_nil, show chunk = _ from congrArg (List.take len) hpart, List.take_nil]

/-- Two actions that begin alike are the same if they go on alike from what the beginning gives. -/
lemma bind_congr_of_ok {α β : Type} {a : Action α} {f k : α → Action β}
    (h : ∀ v u, a t = .ok v u → f v = k v) : (a >>= f) t = (a >>= k) t := by
  cases hrun : a t with
  | error e u => rw [bind_error hrun, bind_error hrun]
  | ok v u => rw [bind_ok hrun, bind_ok hrun, h v u hrun]

/-- The contents of a file of a tree within its limits are within them. -/
lemma length_le_of_fileAt (h : t.WithinLimits) {p : Path} {data : Bytes} {m : Moment} {u : FileTree}
    (hrun : fileAt p t = .ok (data, m) u) : data.length ≤ maxLength := by
  rcases fileAt_cases p t with herror | ⟨data', m', hn, hok⟩
  · cases herror.symm.trans hrun
  · cases hok.symm.trans hrun
    exact h.contents p data m hn

/-- **Within the limits, reading is reading with the numbers of a machine.** -/
theorem read_eq (h : t.WithinLimits) (handle len : Nat) :
    read handle len t = FileTree.read handle len t := by
  rw [read, FileTree.read]
  rcases openFile_cases handle t with hopen | ⟨f, hf, hopen⟩
  · rw [bind_error hopen, bind_error hopen]
  rw [bind_ok hopen, bind_ok hopen]
  cases f.readable with
  | false => rfl
  | true =>
    refine bind_congr_of_ok fun contents u hfile => ?_
    obtain ⟨data, m⟩ := contents
    have hposition := h.positions handle f hf
    have hdata := length_le_of_fileAt h hfile
    have hmax := maxLength_lt
    obtain ⟨hcount, hpart⟩ := part?_of_read data f.position len
    have hlength : ((data.drop f.position).take len).length =
        min len (data.length - f.position) := by rw [List.length_take, List.length_drop]
    dsimp only
    generalize (data.drop f.position).take len = chunk at hcount hpart hlength ⊢
    have hbuffer : replaced? (List.replicate len 0) 0 chunk.length chunk = _ :=
      replaced?_of_le (Nat.zero_add _).symm (by rw [List.length_replicate]; omega)
    have hfinish : min f.position data.length + chunk.length < UInt64.size := by omega
    have hend : f.position + chunk.length < UInt64.size := by omega
    simp only [hcount, hpart, hbuffer, below?_of_lt hfinish, below?_of_lt hend, need_some,
      pure_bind, List.take_zero, List.nil_append, List.take_left]

/-- **Within the limits, writing is writing with the numbers of a machine**, and what the machine
cannot compute are contents that are too long. -/
theorem write_eq (h : t.WithinLimits) (now : Moment) (handle : Nat) (chunk : Bytes) :
    write now handle chunk t = FileTree.write now handle chunk t := by
  rw [write, FileTree.write]
  rcases openFile_cases handle t with hopen | ⟨f, hf, hopen⟩
  · rw [bind_error hopen, bind_error hopen]
  rw [bind_ok hopen, bind_ok hopen]
  cases f.writable with
  | false => rfl
  | true =>
    refine bind_congr_of_ok fun contents u hfile => ?_
    obtain ⟨data, m⟩ := contents
    have hdata := length_le_of_fileAt h hfile
    have hmax := maxLength_lt
    generalize hstart : (if f.append then data.length else f.position) = start
    by_cases hlong : maxLength < start + chunk.length
    · simp only [hstart, if_pos hlong]
      by_cases hword : start + chunk.length < UInt64.size
      · simp only [below?_of_lt hword, need_some, pure_bind, resized?_of_lt hlong,
          if_pos (Nat.lt_of_le_of_lt hdata hlong)]
        rfl
      · simp only [below?, if_neg hword]
        rfl
    · have hword : start + chunk.length < UInt64.size := by omega
      simp only [hstart, if_neg hlong, below?_of_lt hword, need_some, pure_bind, overwritten]
      by_cases hshort : data.length < start + chunk.length
      · have hroom : start + chunk.length ≤ (FileTree.resized data (start + chunk.length)).length :=
          (length_resized _ _).ge
        simp only [if_pos hshort, resized?_of_le (Nat.not_lt.1 hlong), replaced?_of_le rfl hroom,
          need_some, pure_bind]
      · simp only [if_neg hshort, replaced?_of_le rfl (Nat.not_lt.1 hshort), need_some, pure_bind]

theorem setLength_eq (now : Moment) (handle size : Nat) :
    setLength now handle size = FileTree.setLength now handle size := by
  refine bind_congr fun p => bind_congr fun contents => ?_
  by_cases h : size ≤ maxLength
  · simp only [resized?_of_le h, need_some, pure_bind, if_neg (Nat.not_lt.2 h)]
  · simp only [resized?_of_lt (Nat.not_le.1 h), if_pos (Nat.not_le.1 h)]
    rfl

end Checked

end FileTree

end GuestShell
