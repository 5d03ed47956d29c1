import GuestShell.Pipeline.OfLine
import Mathlib.Data.List.Basic
import Mathlib.Tactic.Lemma
import Mathlib.Tactic.SplitIfs

/-!
# Spelled words and lines

Reading a line has no inverse: a word can be written in many ways, and so can the blanks around it.
A *spelling* is one of these ways.  A word is spelled by segments, each in one of four manners that
follow one another without a gap; a stage by words with blanks between them; a line by stages with a
pipe between them.

A spelling knows what it writes (`written`) and what it stands for (`text`, `words`, `stages`).  This
module says what a scanned segment contributes to its word (`scan_written`); that reading gives back
what a spelling stands for is shown in `GuestShell.Proofs.Pipeline.ReadBack`.
-/

namespace GuestShell

/-! ## Segments -/

/-- Whether a character stands for itself outside quotes. -/
def isRawChar (c : Char) : Bool :=
  !Text.isBlank c && !isOperatorChar c && c != '"' && c != '\'' && c != '\\'

/-- A part of a word, and how it is written. -/
inductive Segment where
  | raw (text : List Char)
  | single (text : List Char)
  | double (text : List Char)
  /-- A backslash before every character. -/
  | escaped (text : List Char)

namespace Segment

/-- The characters that the segment stands for. -/
def text : Segment → List Char
  | raw cs | single cs | double cs | escaped cs => cs

/-- A character between double quotes. -/
def doubleChar (c : Char) : List Char := if c = '"' ∨ c = '\\' then ['\\', c] else [c]

/-- The characters that are written. -/
def written : Segment → List Char
  | raw cs => cs
  | single cs => '\'' :: (cs ++ ['\''])
  | double cs => '"' :: (cs.flatMap doubleChar ++ ['"'])
  | escaped cs => cs.flatMap fun c => ['\\', c]

/-- Whether the manner of writing can express the text. -/
def Proper : Segment → Prop
  | raw cs => ∀ c ∈ cs, isRawChar c = true
  | single cs => '\'' ∉ cs
  | double _ | escaped _ => True

instance : DecidablePred Proper
  | raw cs => List.decidableBAll _ cs
  | single cs => inferInstanceAs (Decidable ('\'' ∉ cs))
  | double _ | escaped _ => .isTrue trivial

end Segment

/-! ## Words, stages and lines -/

/-- Nothing but blanks. -/
def Blanks (cs : List Char) : Prop := ∀ c ∈ cs, Text.isBlank c = true

instance : DecidablePred Blanks := fun cs => List.decidableBAll _ cs

@[simp] lemma blanks_nil : Blanks [] := fun _ h => absurd h List.not_mem_nil

/-- A word in segments that follow one another. -/
structure SpelledWord where
  segments : List Segment

namespace SpelledWord

def text (w : SpelledWord) : List Char := w.segments.flatMap Segment.text

def written (w : SpelledWord) : List Char := w.segments.flatMap Segment.written

/-- Whether no character of the word was quoted or escaped. -/
def wholeRaw (w : SpelledWord) : Bool := w.written.all isRawChar

/-- Every segment can be written in its manner, and something is written: the empty word needs quotes. -/
structure Proper (w : SpelledWord) : Prop where
  segments : ∀ s ∈ w.segments, s.Proper
  visible : w.written ≠ []

instance : DecidablePred Proper := fun w =>
  decidable_of_iff ((∀ s ∈ w.segments, s.Proper) ∧ w.written ≠ [])
    ⟨fun ⟨h₁, h₂⟩ => ⟨h₁, h₂⟩, fun ⟨h₁, h₂⟩ => ⟨h₁, h₂⟩⟩

end SpelledWord

/-- A first word, and further words, each after a gap. -/
structure SpelledStage where
  first : SpelledWord
  rest : List (List Char × SpelledWord)

namespace SpelledStage

/-- The texts of the words, the program's name first. -/
def words (s : SpelledStage) : List String :=
  String.ofList s.first.text :: s.rest.map fun w => String.ofList w.2.text

/-- The stage that is spelled. -/
def stage (s : SpelledStage) : Stage :=
  ⟨String.ofList s.first.text, s.rest.map fun w => String.ofList w.2.text⟩

def written (s : SpelledStage) : List Char :=
  s.first.written ++ s.rest.flatMap fun w => w.1 ++ w.2.written

/-- Blanks, and at least one, stand between words; the program's name is not taken for an
assignment. -/
structure Proper (s : SpelledStage) : Prop where
  first : s.first.Proper
  rest : ∀ w ∈ s.rest, w.2.Proper
  gaps : ∀ w ∈ s.rest, w.1 ≠ [] ∧ Blanks w.1
  no_assignment : ¬(s.first.wholeRaw = true ∧ isAssignment (String.ofList s.first.text) = true)

instance : DecidablePred Proper := fun s =>
  decidable_of_iff (s.first.Proper ∧ (∀ w ∈ s.rest, w.2.Proper) ∧
      (∀ w ∈ s.rest, w.1 ≠ [] ∧ Blanks w.1) ∧
      ¬(s.first.wholeRaw = true ∧ isAssignment (String.ofList s.first.text) = true))
    ⟨fun ⟨h₁, h₂, h₃, h₄⟩ => ⟨h₁, h₂, h₃, h₄⟩, fun ⟨h₁, h₂, h₃, h₄⟩ => ⟨h₁, h₂, h₃, h₄⟩⟩

end SpelledStage

/-- A first stage, and further stages, each after a pipe with or without blanks on its two sides. -/
structure SpelledLine where
  before : List Char
  first : SpelledStage
  rest : List (List Char × List Char × SpelledStage)
  after : List Char

namespace SpelledLine

/-- The stages that are spelled. -/
def stages (l : SpelledLine) : List Stage :=
  l.first.stage :: l.rest.map fun s => s.2.2.stage

/-- A further stage with its pipe. -/
def writtenNext (s : List Char × List Char × SpelledStage) : List Char :=
  s.1 ++ '|' :: (s.2.1 ++ s.2.2.written)

def written (l : SpelledLine) : List Char :=
  l.before ++ l.first.written ++ l.rest.flatMap writtenNext ++ l.after

/-- Only blanks stand around stages and pipes. -/
structure Proper (l : SpelledLine) : Prop where
  before : Blanks l.before
  first : l.first.Proper
  rest : ∀ s ∈ l.rest, s.2.2.Proper
  left : ∀ s ∈ l.rest, Blanks s.1
  right : ∀ s ∈ l.rest, Blanks s.2.1
  after : Blanks l.after

instance : DecidablePred Proper := fun l =>
  decidable_of_iff (Blanks l.before ∧ l.first.Proper ∧ (∀ s ∈ l.rest, s.2.2.Proper) ∧
      (∀ s ∈ l.rest, Blanks s.1) ∧ (∀ s ∈ l.rest, Blanks s.2.1) ∧ Blanks l.after)
    ⟨fun ⟨h₁, h₂, h₃, h₄, h₅, h₆⟩ => ⟨h₁, h₂, h₃, h₄, h₅, h₆⟩,
      fun ⟨h₁, h₂, h₃, h₄, h₅, h₆⟩ => ⟨h₁, h₂, h₃, h₄, h₅, h₆⟩⟩

end SpelledLine

/-! ## Something can always be spelled -/

/-- A word between double quotes. -/
def SpelledWord.ofString (s : String) : SpelledWord := ⟨[.double s.toList]⟩

@[simp] lemma SpelledWord.text_ofString (s : String) : (ofString s).text = s.toList := by
  simp [ofString, text, Segment.text]

lemma SpelledWord.proper_ofString (s : String) : (ofString s).Proper :=
  ⟨by simp [ofString, Segment.Proper], by simp [ofString, written, Segment.written]⟩

/-- A stage with every word between double quotes. -/
def SpelledStage.ofStage (s : Stage) : SpelledStage :=
  ⟨.ofString s.program, s.args.map fun a => ([' '], .ofString a)⟩

@[simp] lemma SpelledStage.stage_ofStage (s : Stage) : (ofStage s).stage = s := by
  simp [ofStage, stage, Function.comp_def]

lemma SpelledStage.proper_ofStage (s : Stage) : (ofStage s).Proper where
  first := SpelledWord.proper_ofString _
  rest w hw := by
    obtain ⟨a, -, rfl⟩ := List.mem_map.1 hw
    exact SpelledWord.proper_ofString a
  gaps w hw := by
    obtain ⟨a, -, rfl⟩ := List.mem_map.1 hw
    have hspace : Blanks [' '] := by decide
    exact ⟨by simp, hspace⟩
  no_assignment := by
    have hquote : isRawChar '"' = false := by decide
    simp [ofStage, SpelledWord.ofString, SpelledWord.wholeRaw, SpelledWord.written,
      Segment.written, hquote]

/-- All stages have a spelling. -/
theorem exists_spelling (first : Stage) (rest : List Stage) :
    ∃ l : SpelledLine, l.Proper ∧ l.stages = first :: rest := by
  refine ⟨⟨[], .ofStage first, rest.map fun s => ([], [], .ofStage s), []⟩, ?_, ?_⟩
  · have hrest : ∀ s ∈ rest.map fun s => (([], [], .ofStage s) : List Char × List Char × SpelledStage),
        s.1 = [] ∧ s.2.1 = [] ∧ s.2.2.Proper := by
      intro s hs
      obtain ⟨a, -, rfl⟩ := List.mem_map.1 hs
      exact ⟨rfl, rfl, SpelledStage.proper_ofStage a⟩
    exact
      { before := by simp
        first := SpelledStage.proper_ofStage first
        rest := fun s hs => (hrest s hs).2.2
        left := fun s hs => by simp [(hrest s hs).1]
        right := fun s hs => by simp [(hrest s hs).2.1]
        after := by simp }
  · simp [SpelledLine.stages, Function.comp_def]

/-! ## Scanning a segment -/

namespace Scan

/-- A scan with more characters in front: what they stand for, and what is written. -/
def after (text written : List Char) (s : Scan) : Scan where
  text := text ++ s.text
  bare := written.all isRawChar && s.bare
  unclosed := s.unclosed
  size := written.length + s.size

lemma after_nil (s : Scan) : s.after [] [] = s := by simp [after]

lemma after_append (text text' written written' : List Char) (s : Scan) :
    s.after (text ++ text') (written ++ written') =
      (s.after text' written').after text written := by
  simp [after, Bool.and_assoc, Nat.add_assoc]

end Scan

lemma scan_raw {c : Char} (hc : isRawChar c = true) (cs : List Char) :
    scan .plain (c :: cs) = (scan .plain cs).after [c] [c] := by
  have hraw := hc
  simp only [isRawChar, Bool.and_eq_true, Bool.not_eq_true', bne_iff_ne, ne_eq] at hraw
  obtain ⟨⟨⟨⟨hblank, hop⟩, hdouble⟩, hsingle⟩, hback⟩ := hraw
  rw [scan, if_neg (by simp [hblank, hop]), if_neg (by simp [hdouble, hsingle]), if_neg hback]
  simp [Scan.keep, Scan.after, hc, Nat.add_comm]

/-- A character after a backslash. -/
lemma scan_escaped (c : Char) (cs : List Char) :
    scan .plain ('\\' :: c :: cs) = (scan .plain cs).after [c] ['\\', c] := by
  have hback : isRawChar '\\' = false := by decide
  rw [scan, if_neg (by decide), if_neg (by decide), if_pos rfl, scan]
  simp only [Scan.keep, Scan.quoting, Scan.after, List.all_cons, hback, Bool.false_and,
    List.singleton_append, List.length_cons, List.length_nil, Scan.mk.injEq, true_and]
  omega

/-- What single quotes hold, and the closing quote. -/
lemma scan_single {cs : List Char} (h : '\'' ∉ cs) (rest : List Char) :
    scan (.quoted '\'') (cs ++ '\'' :: rest) =
      ⟨cs ++ (scan .plain rest).text, (scan .plain rest).bare, (scan .plain rest).unclosed,
        cs.length + 1 + (scan .plain rest).size⟩ := by
  induction cs with
  | nil =>
    rw [List.nil_append, scan, if_pos rfl]
    simp [Scan.skip, Nat.add_comm]
  | cons c cs ih =>
    rw [List.mem_cons, not_or] at h
    rw [List.cons_append, scan, if_neg (Ne.symm h.1), if_neg (by simp), ih h.2]
    simp only [Scan.keep, List.cons_append, List.length_cons, Scan.mk.injEq, true_and]
    omega

/-- What double quotes hold, and the closing quote. -/
lemma scan_double (cs rest : List Char) :
    scan (.quoted '"') (cs.flatMap Segment.doubleChar ++ '"' :: rest) =
      ⟨cs ++ (scan .plain rest).text, (scan .plain rest).bare, (scan .plain rest).unclosed,
        (cs.flatMap Segment.doubleChar).length + 1 + (scan .plain rest).size⟩ := by
  induction cs with
  | nil =>
    rw [List.flatMap_nil, List.nil_append, scan, if_pos rfl]
    simp [Scan.skip, Nat.add_comm]
  | cons c cs ih =>
    rw [List.flatMap_cons, Segment.doubleChar]
    split_ifs with hc
    · rw [List.append_assoc, List.cons_append, List.singleton_append, scan, if_neg (by decide),
        if_pos ⟨rfl, rfl⟩, scan, ih]
      simp only [Scan.keep, Scan.skip, List.cons_append, List.length_cons, List.nil_append,
        Scan.mk.injEq, true_and]
      omega
    · rw [not_or] at hc
      rw [List.append_assoc, List.singleton_append, scan, if_neg hc.1,
        if_neg fun hback => hc.2 hback.1, ih]
      simp only [Scan.keep, List.cons_append, List.length_cons, List.nil_append, Scan.mk.injEq,
        true_and]
      omega

/-- **A segment in front contributes its text**, and takes as many characters as it writes. -/
lemma scan_written {s : Segment} (h : s.Proper) (cs : List Char) :
    scan .plain (s.written ++ cs) = (scan .plain cs).after s.text s.written := by
  cases s with
  | raw text =>
    show scan .plain (text ++ cs) = (scan .plain cs).after text text
    induction text with
    | nil => rw [List.nil_append, Scan.after_nil]
    | cons c text ih =>
      obtain ⟨hc, htext⟩ := List.forall_mem_cons.1 h
      rw [List.cons_append, scan_raw hc, ih htext, ← Scan.after_append]
      rfl
  | single text =>
    have hquote : isRawChar '\'' = false := by decide
    show scan .plain ('\'' :: (text ++ ['\'']) ++ cs) = _
    rw [List.cons_append, List.append_assoc, List.singleton_append, scan, if_neg (by decide),
      if_pos (.inr rfl), scan_single h]
    simp [Scan.quoting, Scan.after, Segment.text, Segment.written, hquote]
    omega
  | double text =>
    have hquote : isRawChar '"' = false := by decide
    show scan .plain ('"' :: (text.flatMap Segment.doubleChar ++ ['"']) ++ cs) = _
    rw [List.cons_append, List.append_assoc, List.singleton_append, scan, if_neg (by decide),
      if_pos (.inl rfl), scan_double]
    simp [Scan.quoting, Scan.after, Segment.text, Segment.written, hquote]
    omega
  | escaped text =>
    show scan .plain (text.flatMap (fun c => ['\\', c]) ++ cs) =
      (scan .plain cs).after text (text.flatMap fun c => ['\\', c])
    induction text with
    | nil => rw [List.flatMap_nil, List.nil_append, Scan.after_nil]
    | cons c text ih =>
      rw [List.flatMap_cons, List.append_assoc, List.cons_append, List.singleton_append,
        scan_escaped, ih trivial, ← Scan.after_append]
      rfl

/-- The same for segments that follow one another. -/
lemma scan_segments {segments : List Segment} (h : ∀ s ∈ segments, s.Proper) (cs : List Char) :
    scan .plain (segments.flatMap Segment.written ++ cs) =
      (scan .plain cs).after (segments.flatMap Segment.text)
        (segments.flatMap Segment.written) := by
  induction segments with
  | nil => rw [List.flatMap_nil, List.nil_append, List.flatMap_nil, Scan.after_nil]
  | cons s segments ih =>
    obtain ⟨hs, hrest⟩ := List.forall_mem_cons.1 h
    rw [List.flatMap_cons, List.flatMap_cons, List.append_assoc, scan_written hs, ih hrest,
      Scan.after_append]

end GuestShell
