import GuestShell.Pipeline.Commands
import GuestShell.Proofs.Dict.Bindings
import GuestShell.Proofs.Pipeline.Outline
import GuestShell.Proofs.Text.Pieces
import Mathlib.Data.List.Chain

/-!
# Completion agrees with reading

A plain line has words, blanks and single pipes only: nothing is quoted, there is no operator but the
pipe, and no stage begins with an assignment.  Such a line is read by cutting it at its pipes, and each
piece at its blanks (`exists_outline_of_pieces`), and what comes after its last pipe alone tells its
last stage (`PlainLine.getLast?_stages`).

Completion searches backwards, for the blank or pipe before the last word and then for the pipe
before its stage (`exists_cut`).  A plain line stays plain when another plain word takes the place of
its last word (`PlainLine.replace_last`), and read forwards the line then ends with the stage that
completion found, and the stage with that word (`PlainLine.getLast?_stages_replaced`).  So a
candidate stands where it was offered: in the place of a program if names of commands were offered,
else as an argument of the program whose hints were (`Registry.complete_agrees_with_reading`).
-/

namespace GuestShell

/-! ## Plain lines -/

/-- Whether a character is the pipe. -/
def isPipe (c : Char) : Bool := c == '|'

/-- Quotes, the backslash, and what begins an operator other than the pipe. -/
def isMark (c : Char) : Bool := ['"', '\'', '\\', '&', ';', '<', '>'].contains c

/-- Words and pipes, without marks.  No two pipes are adjacent, and no stage begins with an
assignment. -/
structure PlainLine (line : String) : Prop where
  unmarked : ∀ c ∈ line.toList, isMark c = false
  single_pipes : line.toList.IsChain fun c d => ¬(c = '|' ∧ d = '|')
  unassigned : ∀ stage ∈ Text.splitOn isPipe line.toList, ∀ w ∈ (Text.words stage).head?,
    isAssignment (String.ofList w) = false

/-- A single word without marks that is no assignment. -/
structure PlainWord (word : String) : Prop where
  visible : word ≠ ""
  unmarked : ∀ c ∈ word.toList, isMark c = false
  single : ∀ c ∈ word.toList, Text.isBlank c = false ∧ c ≠ '|'
  unassigned : isAssignment word = false

lemma isRawChar_iff {c : Char} :
    isRawChar c = true ↔ isMark c = false ∧ Text.isBlank c = false ∧ c ≠ '|' := by
  simp only [isRawChar, isOperatorChar, isMark, List.contains_cons, List.contains_nil, Bool.or_false,
    Bool.and_eq_true, Bool.not_eq_true', Bool.or_eq_false_iff, beq_eq_false_iff_ne, bne_iff_ne, ne_eq]
  tauto

/-! ## Reading pieces -/

/-- The words of a piece of a line. -/
def Stretch.ofPiece (piece : List Char) : Stretch :=
  ⟨[], (Text.words piece).map fun w => ⟨String.ofList w, true, none⟩⟩

lemma Stretch.tokens_ofPiece (piece : List Char) : (ofPiece piece).tokens =
    (Text.words piece).map fun w => .word ⟨String.ofList w, true, none⟩ := by
  simp [ofPiece, tokens, Function.comp_def]

/-- Characters that stand for themselves are one word, if there are any. -/
lemma tokensAfter_raw {cs rest : List Char} (hcs : ∀ c ∈ cs, isRawChar c = true)
    (hrest : Stops rest) :
    tokensAfter 0 (cs ++ rest) = (Stretch.ofPiece cs).tokens ++ tokensAfter 0 rest := by
  rw [Stretch.tokens_ofPiece]
  by_cases hne : cs = []
  · subst hne
    rfl
  · have hunbroken : Text.Unbroken Text.isBlank cs := fun c hc => (isRawChar_iff.1 (hcs c hc)).2.1
    have hproper : SpelledWord.Proper ⟨[.raw cs]⟩ :=
      ⟨by simpa [Segment.Proper] using hcs, by simpa [SpelledWord.written, Segment.written] using hne⟩
    have hword := tokensAfter_word hproper hrest
    have hraw : cs.all isRawChar = true := List.all_eq_true.2 hcs
    simpa [SpelledWord.written, Segment.written, SpelledWord.word, SpelledWord.text, Segment.text,
      SpelledWord.wholeRaw, hraw, Text.words_of_unbroken hunbroken hne] using hword

/-- Between pipes a line is read word by word. -/
lemma tokensAfter_piece {piece rest : List Char}
    (hpiece : ∀ c ∈ piece, isMark c = false ∧ c ≠ '|') (hrest : Stops rest) :
    tokensAfter 0 (piece ++ rest) = (Stretch.ofPiece piece).tokens ++ tokensAfter 0 rest := by
  have hraw {cs : List Char} (hcs : Text.Unbroken Text.isBlank cs)
      (hsub : ∀ c ∈ cs, isMark c = false ∧ c ≠ '|') : ∀ c ∈ cs, isRawChar c = true :=
    fun c hc => isRawChar_iff.2 ⟨(hsub c hc).1, hcs c hc, (hsub c hc).2⟩
  induction piece using Text.pieces_induction (p := Text.isBlank) with
  | last cs hcs => exact tokensAfter_raw (hraw hcs hpiece) hrest
  | more cs b ys hcs hb ih =>
    rw [List.forall_mem_append, List.forall_mem_cons] at hpiece
    obtain ⟨hfirst, -, hys⟩ := hpiece
    have hstops : Stops (b :: (ys ++ rest)) := fun c hc => .inl (Option.some.inj hc ▸ hb)
    have hblank : tokensAfter 0 (b :: (ys ++ rest)) = tokensAfter 0 (ys ++ rest) :=
      tokensAfter_blanks (List.forall_mem_singleton.2 hb) (ys ++ rest)
    rw [List.append_assoc, List.cons_append, tokensAfter_raw (hraw hcs hfirst) hstops, hblank,
      ih hys, ← List.append_assoc]
    simp [Stretch.tokens_ofPiece, Text.words_append_cons hb]

/-- **A line without marks is read piece by piece.** -/
lemma exists_outline_of_pieces {cs : List Char} (hmarks : ∀ c ∈ cs, isMark c = false)
    (hpipes : cs.IsChain fun c d => ¬(c = '|' ∧ d = '|')) :
    ∃ init last, Text.splitOn isPipe cs = init ++ [last] ∧
      tokensAfter 0 cs = Outline.tokens ⟨init.map Stretch.ofPiece, Stretch.ofPiece last, none⟩ := by
  have hpiece {xs : List Char} (hxs : Text.Unbroken isPipe xs) (hsub : ∀ c ∈ xs, isMark c = false) :
      ∀ c ∈ xs, isMark c = false ∧ c ≠ '|' :=
    fun c hc => ⟨hsub c hc, by simpa [isPipe] using hxs c hc⟩
  induction cs using Text.pieces_induction (p := isPipe) with
  | last xs hxs =>
    have hstops : Stops [] := fun c hc => by cases hc
    have hread := tokensAfter_piece (hpiece hxs hmarks) hstops
    refine ⟨[], xs, Text.splitOn_of_unbroken hxs, ?_⟩
    simpa [Outline.tokens, tokensAfter] using hread
  | more xs c ys hxs hc ih =>
    obtain rfl : c = '|' := by simpa [isPipe] using hc
    rw [List.forall_mem_append, List.forall_mem_cons] at hmarks
    obtain ⟨hfirst, -, hys⟩ := hmarks
    obtain ⟨-, hrest, -⟩ := List.isChain_append.1 hpipes
    obtain ⟨hnext, hchain⟩ := List.isChain_cons.1 hrest
    have hstops : Stops ('|' :: ys) := fun c hc => .inr (Option.some.inj hc).symm
    have hsingle : ys.head? ≠ some '|' := fun h => hnext '|' h ⟨rfl, rfl⟩
    obtain ⟨init, last, hsplit, htokens⟩ := ih hys hchain
    refine ⟨xs :: init, last, by rw [Text.splitOn_unbroken_cons hxs hc, hsplit]; rfl, ?_⟩
    rw [tokensAfter_piece (hpiece hxs hfirst) hstops,
      tokensAfter_pipe hsingle, htokens]
    simp [Outline.tokens]

namespace PlainLine

variable {line : String}

/-- **The last stage of a plain line** is told from what comes after its last pipe. -/
theorem getLast?_stages (h : PlainLine line) {init : List (List Char)} {last w : List Char}
    {ws : List (List Char)} (hsplit : Text.splitOn isPipe line.toList = init ++ [last])
    (hwords : Text.words last = w :: ws) :
    (Pipeline.ofLine line).stages.getLast? = some ⟨String.ofList w, ws.map String.ofList⟩ := by
  obtain ⟨init', last', hsplit', htokens⟩ := exists_outline_of_pieces h.unmarked h.single_pipes
  obtain ⟨rfl, hlast⟩ := List.append_inj' (hsplit'.symm.trans hsplit) rfl
  obtain rfl := List.singleton_inj.1 hlast
  have hproper : Outline.Proper ⟨init'.map Stretch.ofPiece, Stretch.ofPiece last', none⟩ := by
    intro s hs
    -- every stretch comes from a piece of the line
    obtain ⟨piece, hpiece, rfl⟩ : ∃ piece ∈ init' ++ [last'], Stretch.ofPiece piece = s := by
      rw [Outline.stretches, ← List.map_singleton (f := Stretch.ofPiece), ← List.map_append] at hs
      exact List.mem_map.1 hs
    refine ⟨by simp [Stretch.ofPiece], fun word hword => ?_⟩
    rw [Stretch.ofPiece, List.head?_map, Option.mem_def, Option.map_eq_some_iff] at hword
    obtain ⟨first, hfirst, rfl⟩ := hword
    exact h.unassigned piece (hsplit' ▸ hpiece) first hfirst
  have hstage : (Stretch.ofPiece last').stage? =
      some ⟨String.ofList w, ws.map String.ofList⟩ := by
    simp [Stretch.ofPiece, Stretch.stage?, hwords, Function.comp_def]
  rw [Pipeline.ofLine, tokens, htokens, Outline.ofTokens_tokens hproper]
  simp [Outline.stages, Outline.stretches, List.filterMap_append, hstage]

end PlainLine

/-! ## Another last word -/

section

variable {front stage word : List Char} {c : String}

lemma PlainWord.unbroken (hc : PlainWord c) :
    Text.Unbroken isPipe c.toList ∧ Text.words c.toList = [c.toList] := by
  refine ⟨fun d hd => by simpa [isPipe] using (hc.single d hd).2, ?_⟩
  refine Text.words_of_unbroken (fun d hd => (hc.single d hd).1) fun h => ?_
  exact hc.visible (String.toList_injective h)

/-- A line in three parts: up to its last pipe, from there up to its last blank, and the rest. -/
structure IsCut (front stage word : List Char) : Prop where
  front_ends : ∀ d ∈ front.getLast?, isPipe d = true
  stage_ends : ∀ d ∈ stage.getLast?, Text.isBlank d = true
  stage : Text.Unbroken isPipe stage
  word : Text.Unbroken isPipe word

/-- **A line stays plain** when another plain word takes the place of what comes after its last
blank or pipe. -/
lemma PlainLine.replace_last (h : PlainLine (String.ofList (front ++ stage ++ word)))
    (hcut : IsCut front stage word) (hc : PlainWord c) :
    PlainLine (String.ofList (front ++ stage ++ c.toList)) := by
  obtain ⟨hmarks, hpipes, hassigns⟩ := h
  rw [String.toList_ofList] at hmarks hpipes hassigns
  obtain ⟨hcpipe, hcwords⟩ := hc.unbroken
  refine ⟨?_, ?_, ?_⟩ <;> rw [String.toList_ofList]
  · exact List.forall_mem_append.2 ⟨(List.forall_mem_append.1 hmarks).1, hc.unmarked⟩
  · refine hpipes.left_of_append.append ?_ fun x _ y hy hpair => ?_
    · refine (List.pairwise_of_forall_mem_list fun x hx y _ hpair => ?_).isChain
      exact (hc.single x hx).2 hpair.1
    · exact (hc.single y (List.mem_of_mem_head? hy)).2 hpair.2
  · obtain ⟨init, hsplit⟩ := Text.exists_splitOn_append hcut.front_ends
    rw [List.append_assoc, hsplit _ (hcut.stage.append hcut.word), List.forall_mem_append,
      List.forall_mem_singleton, Text.words_append hcut.stage_ends] at hassigns
    rw [List.append_assoc, hsplit _ (hcut.stage.append hcpipe), List.forall_mem_append,
      List.forall_mem_singleton, Text.words_append hcut.stage_ends, hcwords]
    refine ⟨hassigns.1, fun w hw => ?_⟩
    -- the stage begins with a word it had before, or with the new one
    cases hwords : Text.words stage with
    | nil =>
      obtain rfl : c.toList = w := by simpa [hwords] using hw
      rw [String.ofList_toList]
      exact hc.unassigned
    | cons program args =>
      refine hassigns.2 w ?_
      rw [hwords] at hw ⊢
      exact hw

/-- **The last stage after the replacement** has the words it had in front, and the new word. -/
lemma PlainLine.getLast?_stages_replaced
    (h : PlainLine (String.ofList (front ++ stage ++ word))) (hcut : IsCut front stage word)
    (hc : PlainWord c) {w : List Char} {ws : List (List Char)}
    (hwords : Text.words stage ++ [c.toList] = w :: ws) :
    (Pipeline.ofLine (String.ofList (front ++ stage) ++ c)).stages.getLast? =
      some ⟨String.ofList w, ws.map String.ofList⟩ := by
  have hline : String.ofList (front ++ stage) ++ c = String.ofList (front ++ stage ++ c.toList) :=
    String.toList_injective (by simp)
  obtain ⟨hcpipe, hcwords⟩ := hc.unbroken
  obtain ⟨init, hsplit⟩ := Text.exists_splitOn_append hcut.front_ends
  have hpieces : Text.splitOn isPipe (String.ofList (front ++ stage ++ c.toList)).toList =
      init ++ [stage ++ c.toList] := by
    rw [String.toList_ofList, List.append_assoc, hsplit _ (hcut.stage.append hcpipe)]
  rw [hline]
  refine (h.replace_last hcut hc).getLast?_stages hpieces ?_
  rw [Text.words_append hcut.stage_ends, hcwords, hwords]

end

namespace Registry

variable {κ : Type} (r : Registry κ)

/-- Completion cuts a line after its last pipe, and the rest after its last blank. -/
lemma exists_cut (line : String) : ∃ front stage word,
    line = String.ofList (front ++ stage) ++ String.ofList word ∧ IsCut front stage word ∧
    r.complete line = ⟨Text.byteLength (String.ofList (front ++ stage)),
      (r.offered stage).filter fun c => Text.startsWith c (String.ofList word)⟩ := by
  obtain ⟨before, hline, hends, hword⟩ := Text.exists_append_lastPiece endsWord line.toList
  obtain ⟨front, hbefore, hfront, hstage⟩ := Text.exists_append_lastPiece isPipe before
  have hpipe {d : Char} (hd : endsWord d = false) : isPipe d = false :=
    (Bool.or_eq_false_iff.1 hd).2
  have htake : line.toList.take (line.toList.length -
      (Text.lastPiece endsWord line.toList).length) = before := by
    conv_lhs => arg 2; rw [hline]
    have hlength := congrArg List.length hline
    rw [List.length_append] at hlength
    exact List.take_left' (by omega)
  refine ⟨front, Text.lastPiece isPipe before, Text.lastPiece endsWord line.toList, ?_,
    ⟨hfront, ?_, hstage, fun d hd => hpipe (hword d hd)⟩, ?_⟩
  · rw [← hbefore, ← String.ofList_append, ← hline, String.ofList_toList]
  · intro d hd
    have hlast : d ∈ before.getLast? := by
      rw [hbefore, List.getLast?_append, Option.mem_def.1 hd]
      rfl
    have hnopipe : isPipe d = false := hstage d (List.mem_of_mem_getLast? hd)
    have hor := hends d hlast
    rw [endsWord, Bool.or_eq_true] at hor
    exact hor.resolve_right (by simpa [isPipe] using hnopipe)
  · rw [← hbefore, complete, htake]
    rfl

/-- The names of the commands are offered, in the place of a program: a plain word put after
`before` is the program of the last stage. -/
def OffersPrograms (before : String) (offered : List String) : Prop :=
  (∀ x, x ∈ offered ↔ ∃ command, r.find? x = some command) ∧
  ∀ c, PlainWord c → (Pipeline.ofLine (before ++ c)).stages.getLast? = some ⟨c, []⟩

/-- The hints of a program are offered, in the place of an argument: a plain word put after `before`
is the last argument of that program, in the last stage. -/
def OffersArguments (before : String) (offered : List String) : Prop :=
  ∃ program args,
    (∀ x, x ∈ offered ↔ ∃ command, r.find? program = some command ∧ x ∈ command.hints) ∧
    ∀ c, PlainWord c →
      (Pipeline.ofLine (before ++ c)).stages.getLast? = some ⟨program, args ++ [c]⟩

/-- **Completion agrees with reading.**  The candidates are those of the names or hints offered that
begin with the rest of the line, and they are read as what they were offered for. -/
theorem complete_agrees_with_reading {line : String} (h : PlainLine line) :
    ∃ (before word : String) (offered : List String), line = before ++ word ∧
      (r.complete line).start = Text.byteLength before ∧
      (∀ x, x ∈ (r.complete line).candidates ↔ x ∈ offered ∧ ∃ rest, x = word ++ rest) ∧
      (r.OffersPrograms before offered ∨ r.OffersArguments before offered) := by
  obtain ⟨front, stage, word, rfl, hcut, hcomplete⟩ := r.exists_cut line
  rw [← String.ofList_append] at h
  refine ⟨_, _, r.offered stage, rfl, by rw [hcomplete], fun x => ?_, ?_⟩
  · rw [hcomplete, List.mem_filter, Text.startsWith, List.isPrefixOf_iff_prefix]
    refine and_congr_right fun _ => ⟨fun ⟨rest, hrest⟩ => ⟨String.ofList rest, ?_⟩, ?_⟩
    · exact String.toList_injective (by simpa using hrest.symm)
    · rintro ⟨rest, rfl⟩
      exact ⟨rest.toList, by simp⟩
  cases hwords : Text.words stage with
  | nil =>
    refine .inl ⟨fun x => ?_, fun c hc => ?_⟩
    · rw [offered, hwords]
      exact Dict.mem_keys_iff
    · rw [h.getLast?_stages_replaced hcut hc (by rw [hwords]; rfl),
        String.ofList_toList]
      rfl
  | cons program args =>
    refine .inr ⟨String.ofList program, args.map String.ofList, fun x => ?_, fun c hc => ?_⟩
    · rw [offered, hwords]
      cases hfind : r.find? (String.ofList program) <;> simp [hfind]
    · rw [h.getLast?_stages_replaced hcut hc (by rw [hwords]; rfl)]
      simp

/-- A line whose last stage has a program, with a pipe and a longer character before it. -/
theorem complete_agrees_with_reading_long :
    PlainLine "é | ls --l" ∧
      ∃ r : Registry Unit, r.complete "é | ls --l" = ⟨8, ["--large", "--long"]⟩ ∧
      ∃ (before word : String) (offered : List String), "é | ls --l" = before ++ word ∧
        8 = Text.byteLength before ∧
        (∀ x, x ∈ ["--large", "--long"] ↔ x ∈ offered ∧ ∃ rest, x = word ++ rest) ∧
        (r.OffersPrograms before offered ∨ r.OffersArguments before offered) := by
  let r : Registry Unit :=
    (Registry.register .empty "help" () []).register "ls" () ["--all", "--large", "--long"]
  have hplain : PlainLine "é | ls --l" := ⟨by simp [isMark], by decide, by decide⟩
  have hcomplete : r.complete "é | ls --l" = ⟨8, ["--large", "--long"]⟩ := by decide +kernel
  obtain ⟨before, word, offered, hline, hstart, hmem, hread⟩ := complete_agrees_with_reading r hplain
  rw [hcomplete] at hstart hmem
  exact ⟨hplain, r, hcomplete, before, word, offered, hline, hstart, hmem, hread⟩

end Registry

end GuestShell
