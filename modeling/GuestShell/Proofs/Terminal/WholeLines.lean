import GuestShell.Proofs.Text.Boundaries
import GuestShell.Terminal.LineBuffer
import Mathlib.Data.List.Count

/-!
# Chunks make no difference to lines

A byte string falls apart in one way only: into lines, each with one line feed at its end, and what is
left without a line feed (`Parted`).  That is what `cutLines` finds (`cutLines_eq_iff`), so it does
not matter whether it is given the bytes all at once or chunk by chunk with what was left of the last
one (`cutLines_append`).

Lines are cut before they are read.  As no character reaches over a line feed, nothing is lost of the
text either: the texts of the lines and of the rest, one after another, are the text of the whole
(`decodeLossy_flatten_append`).
-/

namespace GuestShell

/-- Bytes that end in their only line feed. -/
def IsLine (line : Bytes) : Prop := ∃ body, lineFeed ∉ body ∧ line = body ++ [lineFeed]

/-- Bytes in pieces: complete lines, and a rest that has no line feed. -/
structure Parted (bytes : Bytes) (lines : List Bytes) (rest : Bytes) : Prop where
  whole : lines.flatten ++ rest = bytes
  complete : ∀ line ∈ lines, IsLine line
  incomplete : lineFeed ∉ rest

/-! ## The pieces of a byte string -/

lemma cutLines_body {body : Bytes} (h : lineFeed ∉ body) (bytes : Bytes) :
    cutLines (body ++ lineFeed :: bytes) =
      ((body ++ [lineFeed]) :: (cutLines bytes).1, (cutLines bytes).2) := by
  induction body with
  | nil =>
    rw [List.nil_append, cutLines]
    rcases cutLines bytes with ⟨_ | ⟨line, lines⟩, rest⟩ <;> rfl
  | cons b body ih =>
    obtain ⟨hb, hbody⟩ := not_or.1 (mt List.mem_cons.2 h)
    rw [List.cons_append, cutLines, ih hbody]
    exact if_neg (Ne.symm hb)

lemma cutLines_rest {rest : Bytes} (h : lineFeed ∉ rest) : cutLines rest = ([], rest) := by
  induction rest with
  | nil => rfl
  | cons b rest ih =>
    obtain ⟨hb, hrest⟩ := not_or.1 (mt List.mem_cons.2 h)
    rw [cutLines, ih hrest]
    exact if_neg (Ne.symm hb)

/-- Every byte string falls apart. -/
lemma exists_parted (bytes : Bytes) : ∃ lines rest, Parted bytes lines rest := by
  induction bytes with
  | nil => exact ⟨[], [], rfl, by simp, by simp⟩
  | cons b bytes ih =>
    obtain ⟨lines, rest, whole, complete, incomplete⟩ := ih
    by_cases hb : b = lineFeed
    · refine ⟨[b] :: lines, rest, by simp [whole], ?_, incomplete⟩
      exact List.forall_mem_cons.2 ⟨⟨[], by simp, by rw [hb]; rfl⟩, complete⟩
    · cases lines with
      | nil =>
        refine ⟨[], b :: rest, by simpa using whole, by simp, ?_⟩
        exact mt List.mem_cons.1 (not_or.2 ⟨Ne.symm hb, incomplete⟩)
      | cons line lines =>
        obtain ⟨⟨body, hbody, hline⟩, hlines⟩ := List.forall_mem_cons.1 complete
        refine ⟨(b :: line) :: lines, rest, by simpa using whole, ?_, incomplete⟩
        refine List.forall_mem_cons.2 ⟨⟨b :: body, ?_, by rw [hline]; rfl⟩, hlines⟩
        exact mt List.mem_cons.1 (not_or.2 ⟨Ne.symm hb, hbody⟩)

namespace Parted

variable {bytes more rest rest' : Bytes} {lines lines' : List Bytes}

/-- **A byte string falls apart in one way only**, and cutting finds it. -/
theorem cutLines_eq (h : Parted bytes lines rest) : cutLines bytes = (lines, rest) := by
  obtain ⟨rfl, complete, incomplete⟩ := h
  induction lines with
  | nil => exact cutLines_rest incomplete
  | cons line lines ih =>
    obtain ⟨⟨body, hbody, rfl⟩, hlines⟩ := List.forall_mem_cons.1 complete
    rw [List.flatten_cons, List.append_assoc, List.append_assoc, List.singleton_append,
      cutLines_body hbody, ih hlines]

lemma unique (h : Parted bytes lines rest) (h' : Parted bytes lines' rest') :
    lines = lines' ∧ rest = rest' :=
  Prod.ext_iff.1 (h.cutLines_eq.symm.trans h'.cutLines_eq)

/-- What is left can be cut again together with what follows. -/
lemma append (h : Parted bytes lines rest) (h' : Parted (rest ++ more) lines' rest') :
    Parted (bytes ++ more) (lines ++ lines') rest' where
  whole := by rw [List.flatten_append, List.append_assoc, h'.whole, ← List.append_assoc, h.whole]
  complete line hline := (List.mem_append.1 hline).elim (h.complete line) (h'.complete line)
  incomplete := h'.incomplete

/-- There are as many lines as line feeds. -/
lemma length_lines (h : Parted bytes lines rest) : lines.length = bytes.count lineFeed := by
  obtain ⟨rfl, complete, incomplete⟩ := h
  rw [List.count_append, List.count_eq_zero_of_not_mem incomplete, Nat.add_zero]
  induction lines with
  | nil => rfl
  | cons line lines ih =>
    obtain ⟨⟨body, hbody, rfl⟩, hlines⟩ := List.forall_mem_cons.1 complete
    rw [List.length_cons, ih hlines, List.flatten_cons, List.count_append, List.count_append,
      List.count_eq_zero_of_not_mem hbody]
    simp [Nat.add_comm]

end Parted

/-! ## Texts -/

lemma IsLine.decodeLossy_append {line : Bytes} (h : IsLine line) (bytes : Bytes) :
    Text.decodeLossy (line ++ bytes) = Text.decodeLossy line ++ Text.decodeLossy bytes := by
  obtain ⟨body, -, rfl⟩ := h
  have hline : Text.decodeLossy (body ++ [lineFeed]) = Text.decodeLossy body ++ "\n" :=
    (Text.decodeLossy_append_newline body []).trans (String.append_empty ..)
  rw [hline, List.append_assoc]
  exact Text.decodeLossy_append_newline body bytes

/-- The text of a line ends in its only line feed, too. -/
lemma IsLine.text {line : Bytes} (h : IsLine line) :
    ∃ s, '\n' ∉ s.toList ∧ Text.decodeLossy line = s ++ "\n" := by
  obtain ⟨body, hbody, rfl⟩ := h
  refine ⟨Text.decodeLossy body, mt Text.newline_mem_decodeLossy_iff.1 hbody, ?_⟩
  exact (Text.decodeLossy_append_newline body []).trans (String.append_empty ..)

/-- **The texts of the pieces are the text of the whole.** -/
theorem Parted.decodeLossy_eq {bytes rest : Bytes} {lines : List Bytes} (h : Parted bytes lines rest) :
    String.join (lines.map Text.decodeLossy) ++ Text.decodeLossy rest = Text.decodeLossy bytes := by
  obtain ⟨rfl, complete, -⟩ := h
  induction lines with
  | nil => simp
  | cons line lines ih =>
    obtain ⟨hline, hlines⟩ := List.forall_mem_cons.1 complete
    rw [List.map_cons, String.join_cons, String.append_assoc, ih hlines, List.flatten_cons,
      List.append_assoc, hline.decodeLossy_append]

/-! ## Chunks -/

namespace LineBuffer

/-- Adds one chunk after another; gives the texts of all lines that they complete. -/
def writes (b : LineBuffer) : List Bytes → List String × LineBuffer
  | [] => ([], b)
  | chunk :: chunks =>
    let (texts, b) := b.write chunk
    let (more, b) := b.writes chunks
    (texts ++ more, b)

lemma write_of_parted {b : LineBuffer} {chunk rest : Bytes} {lines : List Bytes}
    (h : Parted (b.pending ++ chunk) lines rest) :
    b.write chunk = (lines.map Text.decodeLossy, ⟨rest⟩) := by
  rw [write, h.cutLines_eq]

/-- What comes in chunks is given out as if it had come at once. -/
lemma writes_of_parted {b : LineBuffer} (hb : lineFeed ∉ b.pending) {chunks : List Bytes}
    {lines : List Bytes} {rest : Bytes} (h : Parted (b.pending ++ chunks.flatten) lines rest) :
    b.writes chunks = (lines.map Text.decodeLossy, ⟨rest⟩) := by
  induction chunks generalizing b lines rest with
  | nil =>
    rw [List.flatten_nil, List.append_nil] at h
    have hnone : Parted b.pending [] b.pending := ⟨rfl, by simp, hb⟩
    obtain ⟨rfl, rfl⟩ := h.unique hnone
    rfl
  | cons chunk chunks ih =>
    obtain ⟨lines₁, rest₁, h₁⟩ := exists_parted (b.pending ++ chunk)
    obtain ⟨lines₂, rest₂, h₂⟩ := exists_parted (rest₁ ++ chunks.flatten)
    obtain ⟨rfl, rfl⟩ := h.unique (by simpa using h₁.append h₂)
    rw [writes, write_of_parted h₁]
    simp only [ih h₁.incomplete h₂, List.map_append]

/-- **Chunks make no difference.**  What is given out while chunks are written, and what waits then,
depends on nothing but the bytes: each text is that of one line, there is one for each line feed, and
nothing of the text of the whole is lost or changed.  Flushing gives out the rest, if there is any. -/
theorem writes_whole_lines (chunks : List Bytes) :
    ∃ lines rest, Parted chunks.flatten lines rest ∧
      empty.writes chunks = (lines.map Text.decodeLossy, ⟨rest⟩) ∧
      (∀ chunks', chunks'.flatten = chunks.flatten → empty.writes chunks' = empty.writes chunks) ∧
      (∀ text ∈ lines.map Text.decodeLossy, ∃ s, '\n' ∉ s.toList ∧ text = s ++ "\n") ∧
      lines.length = chunks.flatten.count lineFeed ∧
      String.join (lines.map Text.decodeLossy) ++ Text.decodeLossy rest =
        Text.decodeLossy chunks.flatten ∧
      (empty.writes chunks).2.flush =
        (if rest = [] then [] else [Text.decodeLossy rest], empty) := by
  obtain ⟨lines, rest, h⟩ := exists_parted chunks.flatten
  have hwrites : ∀ chunks', chunks'.flatten = chunks.flatten →
      empty.writes chunks' = (lines.map Text.decodeLossy, ⟨rest⟩) := by
    intro chunks' hsame
    refine writes_of_parted (by simp [empty]) ?_
    rwa [empty, List.nil_append, hsame]
  refine ⟨lines, rest, h, hwrites chunks rfl, fun chunks' hsame => ?_, ?_, h.length_lines,
    h.decodeLossy_eq, ?_⟩
  · rw [hwrites chunks' hsame, hwrites chunks rfl]
  · intro text htext
    obtain ⟨line, hline, rfl⟩ := List.mem_map.1 htext
    exact (h.complete line hline).text
  · rw [hwrites chunks rfl, flush]
    by_cases hrest : rest = []
    · simp [hrest, empty]
    · simp [hrest]

end LineBuffer

end GuestShell
