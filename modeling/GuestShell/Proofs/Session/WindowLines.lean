import GuestShell.Session.Window
import Mathlib.Data.List.TakeWhile
import Mathlib.Tactic.Lemma
import Mathlib.Tactic.SplitIfs

/-!
# What a window carries

A line is stored word by word, and read back up to the first 0.  Whatever an earlier line has left in
the window comes after that 0, so it does not matter (`decode_encode`).

What is lost on the way is told by the line and by the size alone: a line that has room and no U+0000
comes back as it was (`carried_eq_self`).  A window keeps its size, so all of this is as true of one
that has been in use for long (`last_message_comes_back`).
-/

namespace GuestShell.Window

variable {w w' : Window} {k : Nat} {line : Option String}

/-! ## Words -/

lemma toInt_word (c : Char) : (word c).toInt = c.toNat := by
  have hc : c.toNat < 0x110000 := by
    have := c.valid
    simp only [UInt32.isValidChar, Nat.isValidChar] at this
    show c.val.toNat < 0x110000
    omega
  rw [word, Int32.toInt_ofNat']
  have hsize : Int32.size = 2 ^ 32 := rfl
  exact Int.bmod_eq_of_le (by omega) (by omega)

lemma char?_word (c : Char) : char? (word c) = some c := by
  have hvalid : c.toNat.isValidChar := c.valid
  have h : 0 ≤ (word c).toInt ∧ (word c).toInt.toNat.isValidChar := by
    rw [toInt_word]
    exact ⟨Int.natCast_nonneg _, hvalid⟩
  rw [char?, dif_pos h]
  congr 1
  apply Char.ext
  apply UInt32.toNat_inj.1
  show ((word c).toInt.toNat) = c.toNat
  rw [toInt_word, Int.toNat_natCast]

lemma word_ne_endOfInput (c : Char) : word c ≠ endOfInput := by
  intro h
  have hint := congrArg Int32.toInt h
  have hend : endOfInput.toInt = -1 := rfl
  rw [toInt_word, hend] at hint
  omega

lemma word_eq_zero_iff (c : Char) : word c = 0 ↔ c = '\x00' := by
  constructor
  · intro h
    have hint := congrArg Int32.toInt h
    rw [toInt_word] at hint
    apply Char.ext
    apply UInt32.toNat_inj.1
    show c.toNat = 0
    simpa using hint
  · rintro rfl
    rfl

/-- Reading words back gives the characters. -/
lemma filterMap_char?_word (cs : List Char) : (cs.map word).filterMap char? = cs := by
  have hword : char? ∘ word = some := funext char?_word
  rw [List.filterMap_map, hword, List.filterMap_some]

/-! ## Storing -/

/-- The window after some words were stored. -/
def stores (w : Window) (words : List (Int32 × Nat)) : Window :=
  words.foldl (fun w m => w.store m.2 m.1) w

lemma encode_eq_stores (w : Window) (line : Option String) :
    w.encode line = w.stores (message w.words.length line).zipIdx := rfl

@[simp] lemma length_store (word : Int32) : (w.store k word).words.length = w.words.length := by
  simp [store]

@[simp] lemma length_stores (words : List (Int32 × Nat)) :
    (w.stores words).words.length = w.words.length := by
  induction words generalizing w with
  | nil => rfl
  | cons m words ih => exact ih.trans (length_store m.1)

/-- Words that fit come to stand one after another, and nothing else changes. -/
lemma words_stores (words : List Int32) (hfit : k + words.length ≤ w.words.length) :
    (w.stores (words.zipIdx k)).words =
      w.words.take k ++ words ++ w.words.drop (k + words.length) := by
  induction words generalizing w k with
  | nil => simp [stores]
  | cons x words ih =>
    rw [List.length_cons] at hfit ⊢
    have hlt : k < w.words.length := by omega
    have hstep : (w.stores ((x :: words).zipIdx k)).words =
        ((w.store k x).stores (words.zipIdx (k + 1))).words := rfl
    have htake : (w.words.set k x).take (k + 1) = w.words.take k ++ [x] := by
      rw [List.take_set, List.take_succ_eq_append_getElem hlt,
        List.set_append_right _ _ (List.length_take_le _ _)]
      simp [Nat.min_eq_left (Nat.le_of_lt hlt)]
    have hdrop : (w.words.set k x).drop (k + 1 + words.length) =
        w.words.drop (k + (words.length + 1)) := by
      rw [List.drop_set_of_lt (by omega)]
      congr 1
      omega
    rw [hstep, ih (by simpa using by omega), store, htake, hdrop]
    simp

lemma length_encode (w : Window) (line : Option String) :
    (w.encode line).words.length = w.words.length :=
  length_stores _

/-- Where there is room at all, every message fits. -/
lemma length_message_le {size : Nat} (hsize : 0 < size) (line : Option String) :
    (message size line).length ≤ size := by
  cases line with
  | none => exact hsize
  | some line =>
    simp only [message, room, List.length_append, List.length_map, List.length_take,
      List.length_singleton]
    omega

lemma words_encode (hw : w.words ≠ []) (line : Option String) : ∃ left,
    (w.encode line).words = message w.words.length line ++ left := by
  have hfit := length_message_le (List.length_pos_iff.2 hw) line
  have hwords := words_stores (k := 0) (message w.words.length line) (by simpa using hfit)
  exact ⟨_, by simpa [encode_eq_stores] using hwords⟩

/-! ## Reading -/

/-- What is left of a line on its way: as many characters as there is room for, up to the first that
ends a line of words. -/
def carried (size : Nat) (line : String) : String :=
  .ofList ((line.toList.take (room size)).takeWhile (· ≠ '\x00'))

/-- Reading stops at the 0 after the line, if not before. -/
lemma takeWhile_words (cs : List Char) (left : List Int32) :
    (cs.map word ++ 0 :: left).takeWhile (· ≠ 0) = (cs.takeWhile (· ≠ '\x00')).map word := by
  induction cs with
  | nil => simp
  | cons c cs ih =>
    rw [List.map_cons, List.cons_append, List.takeWhile_cons, List.takeWhile_cons, ih]
    simp only [ne_eq, word_eq_zero_iff]
    split_ifs <;> rfl

/-- **What is read back depends only on the line and on the size of the window.** -/
theorem decode_encode (w : Window) (line : Option String) :
    (w.encode line).decode =
      if w.words.length = 0 then none else line.map (carried w.words.length) := by
  split_ifs with hw
  · rw [decode, List.eq_nil_of_length_eq_zero ((length_encode w line).trans hw)]
    rfl
  obtain ⟨left, hwords⟩ := words_encode (fun h => hw (List.length_eq_zero_iff.2 h)) line
  cases line with
  | none => simp [decode, load, hwords, message]
  | some line =>
    have hwords : (w.encode (some line)).words =
        (line.toList.take (room w.words.length)).map word ++ 0 :: left := by
      simp [hwords, message]
    have hfirst : (w.encode (some line)).load 0 ≠ endOfInput := by
      rw [load, hwords]
      cases line.toList.take (room w.words.length) with
      | nil =>
        show (0 : Int32) ≠ endOfInput
        decide
      | cons c cs => exact word_ne_endOfInput c
    rw [decode, if_neg (by simp [hwords, hfirst]), hwords, takeWhile_words, filterMap_char?_word]
    rfl

lemma decode_encode_congr (h : w.words.length = w'.words.length) (line : Option String) :
    (w.encode line).decode = (w'.encode line).decode := by
  rw [decode_encode, decode_encode, h]

/-! ## A window in use -/

/-- It does not matter which cut is made first, the one at the end of the room or the one at the first
U+0000. -/
lemma carried_eq (size : Nat) (line : String) :
    carried size line = .ofList ((line.toList.takeWhile (· ≠ '\x00')).take (room size)) := by
  rw [carried, List.take_takeWhile]

/-- A line that has room and no U+0000 loses nothing. -/
lemma carried_eq_self {size : Nat} {line : String} (hzero : '\x00' ∉ line.toList)
    (hroom : line.length ≤ room size) : carried size line = line := by
  have hkept : line.toList.takeWhile (· ≠ '\x00') = line.toList :=
    List.takeWhile_eq_self_iff.2 fun c hc => decide_eq_true fun h => hzero (h ▸ hc)
  have hlength : line.toList.length ≤ room size := by rwa [String.length_toList]
  rw [carried_eq, hkept, List.take_of_length_le hlength, String.ofList_toList]

lemma length_foldl_encode (earlier : List (Option String)) (w : Window) :
    (earlier.foldl encode w).words.length = w.words.length := by
  induction earlier generalizing w with
  | nil => rfl
  | cons message earlier ih => exact (ih (w.encode message)).trans (length_encode w message)

/-- **What comes back from a window is the last message, whatever was in it before.**  Of every window
that has a word at all, with any words in it:

* a line comes back up to its first U+0000, as far as there is room: for one character less than there
  are words, and for 999 at most;
* the end of input comes back as such;
* a line of any other characters that has room comes back as it was;
* after any number of earlier messages, a message comes back as it would have without them;
* only the end of input is taken for the end of input. -/
theorem last_message_comes_back (w : Window) (hw : 1 ≤ w.words.length) :
    (∀ line : String, (w.encode (some line)).decode =
      some (.ofList ((line.toList.takeWhile (· ≠ '\x00')).take (min (w.words.length - 1) 999)))) ∧
    (w.encode none).decode = none ∧
    (∀ line : String, '\x00' ∉ line.toList → line.length ≤ min (w.words.length - 1) 999 →
      (w.encode (some line)).decode = some line) ∧
    (∀ (earlier : List (Option String)) (message : Option String),
      ((earlier.foldl encode w).encode message).decode = (w.encode message).decode) ∧
    ∀ message : Option String, (w.encode message).decode = none ↔ message = none := by
  have hread (message : Option String) :
      (w.encode message).decode = message.map (carried w.words.length) := by
    rw [decode_encode, if_neg (Nat.one_le_iff_ne_zero.1 hw)]
  have hroom : room w.words.length = min (w.words.length - 1) 999 := rfl
  refine ⟨fun line => ?_, hread none, fun line hzero hfits => ?_, fun earlier message => ?_,
    fun message => ?_⟩
  · rw [hread, Option.map_some, carried_eq, hroom]
  · rw [hread, Option.map_some, carried_eq_self hzero (hroom ▸ hfits)]
  · exact decode_encode_congr (length_foldl_encode earlier w) message
  · rw [hread, Option.map_eq_none_iff]

/-- Five words with an old end of input in front: cut at a U+0000, cut for lack of room, and a line that
just has room after a longer one and an end of input. -/
theorem last_message_comes_back_five_words :
    ((Window.mk [-1, 104, -1, 128512, 7]).encode (some "a𝄞\x00b")).decode = some "a𝄞" ∧
    ((Window.mk [-1, 104, -1, 128512, 7]).encode (some "héllo")).decode = some "héll" ∧
    (([some "→ wörld", none].foldl encode (Window.mk [-1, 104, -1, 128512, 7])).encode
      (some "wör\n")).decode = some "wör\n" := by
  obtain ⟨hline, -, hwhole, hearlier, -⟩ :=
    last_message_comes_back (Window.mk [-1, 104, -1, 128512, 7]) (by decide)
  refine ⟨?_, ?_, ?_⟩
  · rw [hline]
    decide +kernel
  · rw [hline]
    decide +kernel
  · rw [hearlier, hwhole "wör\n" (by decide +kernel) (by decide +kernel)]

/-! ## Reading word by word -/

/-- The window has a line, and its first `k` words were read. -/
structure ReadTo (w : Window) (k : Nat) (line : List Char) : Prop where
  le_length : k ≤ w.words.length
  not_ended : 0 ∉ w.words.take k
  line_eq : line = (w.words.take k).filterMap char?
  has_line : (w.words.isEmpty || w.load 0 = endOfInput) = false

lemma readTo_zero (h : ¬(w.words.isEmpty ∨ w.load 0 = endOfInput)) : w.ReadTo 0 [] :=
  ⟨Nat.zero_le _, by simp, by simp, by simpa using h⟩

namespace ReadTo

variable {line : List Char} (h : w.ReadTo k line)

include h

lemma succ (hk : k < w.words.length) (hne : w.load k ≠ 0) :
    w.ReadTo (k + 1) (line ++ (char? (w.load k)).toList) := by
  have hload : w.load k = w.words[k] := by simp [load, hk]
  have htake : w.words.take (k + 1) = w.words.take k ++ [w.words[k]] :=
    List.take_succ_eq_append_getElem hk
  refine ⟨hk, ?_, ?_, h.has_line⟩
  · rw [htake, List.mem_append, List.mem_singleton, not_or, ← hload]
    exact ⟨h.not_ended, hne.symm⟩
  · rw [htake, List.filterMap_append, ← h.line_eq, hload]
    cases hc : char? w.words[k] <;> simp [hc]

/-- At the end of the line, what was read is what the window holds. -/
lemma decode_eq (hend : w.words.length ≤ k ∨ w.load k = 0) : w.decode = some (.ofList line) := by
  have hrest : (w.words.drop k).takeWhile (· ≠ 0) = [] := by
    rcases Nat.lt_or_ge k w.words.length with hk | hk
    · have hload : w.words[k] = 0 := by simpa [load, hk] using hend.resolve_left (Nat.not_le.2 hk)
      rw [List.drop_eq_getElem_cons hk, hload]
      rfl
    · rw [List.drop_eq_nil_of_le hk]
      rfl
  have hread : ∀ x ∈ w.words.take k, (decide (x ≠ 0)) = true := by
    intro x hx
    exact decide_eq_true fun h0 => h.not_ended (h0 ▸ hx)
  have htake : w.words.takeWhile (· ≠ 0) = w.words.take k :=
    calc w.words.takeWhile (· ≠ 0)
      _ = (w.words.take k ++ w.words.drop k).takeWhile (· ≠ 0) := by rw [List.take_append_drop]
      _ = w.words.take k := by rw [List.takeWhile_append_of_pos hread, hrest, List.append_nil]
  rw [decode, if_neg (by rw [h.has_line]; decide), htake, h.line_eq]

end ReadTo

end GuestShell.Window
