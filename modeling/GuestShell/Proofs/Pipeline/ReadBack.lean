import GuestShell.Proofs.Pipeline.Spelling

/-!
# Reading undoes every spelling

What a spelled line stands for is what is read from it, and nothing is left out (`ofLine_written`).

A word ends where its spelling ends, because a blank, a pipe or the end of the line follows
(`Stops`); this is where the gaps between words are needed.  So the tokens of a line are those of its
words and pipes (`tokens_written`), and stages are collected from them one by one
(`foldl_add_stages`).
-/

namespace GuestShell

/-! ## Where a word begins and ends -/

/-- What follows a word: a blank, a pipe, or nothing. -/
def Stops (cs : List Char) : Prop := ∀ c ∈ cs.head?, Text.isBlank c = true ∨ c = '|'

lemma scan_of_stops {cs : List Char} (h : Stops cs) : scan .plain cs = ⟨[], true, none, 0⟩ := by
  cases cs with
  | nil => rfl
  | cons c cs =>
    rw [scan, if_pos]
    rcases h c rfl with hblank | rfl
    · rw [hblank, Bool.true_or]
    · decide

lemma stops_append_of_ne_nil {blanks cs : List Char} (hne : blanks ≠ []) (h : Blanks blanks) :
    Stops (blanks ++ cs) := by
  cases blanks with
  | nil => exact absurd rfl hne
  | cons b blanks =>
    intro c hc
    obtain rfl : b = c := Option.some.inj hc
    exact .inl (h b List.mem_cons_self)

lemma stops_append {blanks cs : List Char} (h : Blanks blanks) (hcs : Stops cs) :
    Stops (blanks ++ cs) := by
  by_cases hne : blanks = []
  · rwa [hne, List.nil_append]
  · exact stops_append_of_ne_nil hne h

/-- What is written begins with a mark of quoting, or with a raw character that more segments
follow. -/
lemma written_cons {segments : List Segment} (h : ∀ s ∈ segments, s.Proper) {c : Char}
    {ds : List Char} (hw : segments.flatMap Segment.written = c :: ds) :
    (c = '"' ∨ c = '\'' ∨ c = '\\') ∨
      (isRawChar c = true ∧ ∃ segments' : List Segment, (∀ s ∈ segments', s.Proper) ∧
        ds = segments'.flatMap Segment.written) := by
  induction segments with
  | nil => cases hw
  | cons s segments ih =>
    obtain ⟨hs, hrest⟩ := List.forall_mem_cons.1 h
    rw [List.flatMap_cons] at hw
    rcases s with text | text | text | text
    · rcases text with _ | ⟨b, text⟩
      · exact ih hrest hw
      · obtain ⟨rfl, rfl⟩ := List.cons.inj hw
        obtain ⟨hb, htext⟩ := List.forall_mem_cons.1 hs
        refine .inr ⟨hb, .raw text :: segments, List.forall_mem_cons.2 ⟨htext, hrest⟩, rfl⟩
    · exact .inl (.inr (.inl (List.cons.inj hw).1.symm))
    · exact .inl (.inl (List.cons.inj hw).1.symm)
    · rcases text with _ | ⟨b, text⟩
      · exact ih hrest hw
      · exact .inl (.inr (.inr (List.cons.inj hw).1.symm))

/-- A word does not begin with a blank or an operator. -/
lemma not_operator_of_written {segments : List Segment} (h : ∀ s ∈ segments, s.Proper) {c : Char}
    {ds : List Char} (hw : segments.flatMap Segment.written = c :: ds) :
    Text.isBlank c = false ∧ isOperatorChar c = false := by
  rcases written_cons h hw with (rfl | rfl | rfl) | ⟨hraw, -⟩
  · decide
  · decide
  · decide
  · simp only [isRawChar, Bool.and_eq_true, Bool.not_eq_true'] at hraw
    exact ⟨hraw.1.1.1.1, hraw.1.1.1.2⟩

/-! ## Tokens -/

/-- The word that is spelled. -/
def SpelledWord.word (w : SpelledWord) : Word := ⟨String.ofList w.text, w.wholeRaw, none⟩

/-- A spelled word is scanned to its end and no further. -/
lemma wordAt_written {w : SpelledWord} (hw : w.Proper) {cs : List Char} (hcs : Stops cs) :
    wordAt (w.written ++ cs) = (.word w.word, w.written.length) := by
  have hscan : scan .plain (w.written ++ cs) = ⟨w.text, w.wholeRaw, none, w.written.length⟩ := by
    rw [SpelledWord.written, scan_segments hw.segments, scan_of_stops hcs]
    simp [Scan.after, SpelledWord.text, SpelledWord.wholeRaw, SpelledWord.written]
  rw [wordAt, hscan]
  rfl

/-- A word that begins with `2` is not taken for a redirection: no `>` can follow. -/
lemma tokenAt_written {w : SpelledWord} (hw : w.Proper) {c : Char} {ds cs : List Char}
    (hwritten : w.written = c :: ds) (hcs : Stops cs) :
    tokenAt c (ds ++ cs) = (.word w.word, w.written.length) := by
  have hword := wordAt_written hw hcs
  rw [hwritten, List.cons_append] at hword
  obtain ⟨-, hop⟩ := not_operator_of_written hw.segments hwritten
  simp only [isOperatorChar, Bool.or_eq_false_iff, beq_eq_false_iff_ne, ne_eq] at hop
  obtain ⟨⟨⟨⟨hpipe, hamp⟩, hsemi⟩, hlt⟩, hgt⟩ := hop
  unfold tokenAt
  rw [if_neg hpipe, if_neg hamp, if_neg hsemi, if_neg hlt, if_neg hgt, hwritten]
  split_ifs with htwo
  · subst htwo
    have hnext : (ds ++ cs).head? ≠ some '>' := by
      rcases written_cons hw.segments hwritten with h | ⟨-, segments, hsegments, rfl⟩
      · exact absurd h (by decide)
      · cases hds : segments.flatMap Segment.written with
        | nil =>
          intro h
          exact absurd (hcs '>' h) (by decide)
        | cons d ds =>
          intro h
          obtain rfl : d = '>' := Option.some.inj h
          exact absurd (not_operator_of_written hsegments hds).2 (by decide)
    split
    · rename_i heq
      simp [heq] at hnext
    · rename_i heq
      simp [heq] at hnext
    · exact hword
  · exact hword

lemma tokensAfter_eq_drop (skip : Nat) (cs : List Char) :
    tokensAfter skip cs = tokensAfter 0 (cs.drop skip) := by
  induction skip generalizing cs with
  | zero => rfl
  | succ skip ih =>
    cases cs with
    | nil => rfl
    | cons c cs => exact ih cs

lemma tokensAfter_blanks {blanks : List Char} (h : Blanks blanks) (cs : List Char) :
    tokensAfter 0 (blanks ++ cs) = tokensAfter 0 cs := by
  induction blanks with
  | nil => rfl
  | cons b blanks ih =>
    obtain ⟨hb, hrest⟩ := List.forall_mem_cons.1 h
    rw [List.cons_append, tokensAfter, if_pos hb, ih hrest]

lemma tokensAfter_word {w : SpelledWord} (hw : w.Proper) {cs : List Char} (hcs : Stops cs) :
    tokensAfter 0 (w.written ++ cs) = .word w.word :: tokensAfter 0 cs := by
  cases hwritten : w.written with
  | nil => exact absurd hwritten hw.visible
  | cons c ds =>
    obtain ⟨hblank, -⟩ := not_operator_of_written hw.segments hwritten
    rw [List.cons_append, tokensAfter, if_neg (by simp [hblank]), tokenAt_written hw hwritten hcs]
    simp only [hwritten, List.length_cons, Nat.add_sub_cancel]
    rw [tokensAfter_eq_drop, List.drop_left]

/-- A pipe that no second one follows. -/
lemma tokensAfter_pipe {cs : List Char} (h : cs.head? ≠ some '|') :
    tokensAfter 0 ('|' :: cs) = .pipe :: tokensAfter 0 cs := by
  have htoken : tokenAt '|' cs = (.pipe, 1) := by
    unfold tokenAt
    rw [if_pos rfl]
    rcases cs with _ | ⟨d, cs⟩
    · rfl
    · rw [doubled, if_neg]
      rintro rfl
      exact h rfl
  rw [tokensAfter, if_neg (by decide), htoken]

/-! ## Stages and lines -/

/-- The tokens of a stage's words. -/
def SpelledStage.tokens (s : SpelledStage) : List Token :=
  .word s.first.word :: s.rest.map fun w => .word w.2.word

/-- Further words, each after its gap. -/
lemma tokensAfter_words {rest : List (List Char × SpelledWord)} (hwords : ∀ w ∈ rest, w.2.Proper)
    (hgaps : ∀ w ∈ rest, w.1 ≠ [] ∧ Blanks w.1) {cs : List Char} (hcs : Stops cs) :
    Stops (rest.flatMap (fun w => w.1 ++ w.2.written) ++ cs) ∧
      tokensAfter 0 (rest.flatMap (fun w => w.1 ++ w.2.written) ++ cs) =
        (rest.map fun w => .word w.2.word) ++ tokensAfter 0 cs := by
  induction rest with
  | nil => exact ⟨hcs, rfl⟩
  | cons w rest ih =>
    obtain ⟨hw, hwords⟩ := List.forall_mem_cons.1 hwords
    obtain ⟨⟨hne, hblank⟩, hgaps⟩ := List.forall_mem_cons.1 hgaps
    obtain ⟨hstops, htokens⟩ := ih hwords hgaps
    simp only [List.flatMap_cons, List.append_assoc]
    refine ⟨stops_append_of_ne_nil hne hblank, ?_⟩
    rw [tokensAfter_blanks hblank, tokensAfter_word hw hstops, htokens]
    rfl

lemma tokensAfter_stage {s : SpelledStage} (hs : s.Proper) {cs : List Char} (hcs : Stops cs) :
    tokensAfter 0 (s.written ++ cs) = s.tokens ++ tokensAfter 0 cs := by
  obtain ⟨hstops, htokens⟩ := tokensAfter_words hs.rest hs.gaps hcs
  rw [SpelledStage.written, List.append_assoc, tokensAfter_word hs.first hstops, htokens]
  rfl

/-- A pipe is not followed by a second one, whether blanks come between it and the stage or not. -/
lemma head?_stage {s : SpelledStage} (hs : s.Proper) {blanks : List Char} (hblanks : Blanks blanks)
    (cs : List Char) : (blanks ++ (s.written ++ cs)).head? ≠ some '|' := by
  intro h
  cases blanks with
  | cons b blanks =>
    obtain rfl : b = '|' := Option.some.inj h
    exact absurd (hblanks _ List.mem_cons_self) (by decide)
  | nil =>
    cases hwritten : s.first.written with
    | nil => exact hs.first.visible hwritten
    | cons c ds =>
      rw [SpelledStage.written, hwritten] at h
      obtain rfl : c = '|' := Option.some.inj h
      exact absurd (not_operator_of_written hs.first.segments hwritten).2 (by decide)

/-- Further stages, each after its pipe. -/
lemma tokensAfter_stages {rest : List (List Char × List Char × SpelledStage)}
    (hstages : ∀ s ∈ rest, s.2.2.Proper) (hleft : ∀ s ∈ rest, Blanks s.1)
    (hright : ∀ s ∈ rest, Blanks s.2.1) {cs : List Char} (hcs : Stops cs) :
    Stops (rest.flatMap SpelledLine.writtenNext ++ cs) ∧
      tokensAfter 0 (rest.flatMap SpelledLine.writtenNext ++ cs) =
        (rest.flatMap fun s => .pipe :: s.2.2.tokens) ++ tokensAfter 0 cs := by
  induction rest with
  | nil => exact ⟨hcs, rfl⟩
  | cons s rest ih =>
    obtain ⟨hs, hstages⟩ := List.forall_mem_cons.1 hstages
    obtain ⟨hl, hleft⟩ := List.forall_mem_cons.1 hleft
    obtain ⟨hr, hright⟩ := List.forall_mem_cons.1 hright
    obtain ⟨hstops, htokens⟩ := ih hstages hleft hright
    have hpipe : ∀ cs, Stops ('|' :: cs) := fun cs c hc => .inr (Option.some.inj hc).symm
    simp only [List.flatMap_cons, SpelledLine.writtenNext, List.append_assoc, List.cons_append]
    refine ⟨stops_append hl (hpipe _), ?_⟩
    rw [tokensAfter_blanks hl, tokensAfter_pipe (head?_stage hs hr _), tokensAfter_blanks hr,
      tokensAfter_stage hs hstops, htokens]

/-- **The tokens of a spelled line** are those of its words and pipes. -/
theorem tokens_written {l : SpelledLine} (hl : l.Proper) :
    tokens (String.ofList l.written) =
      l.first.tokens ++ l.rest.flatMap fun s => .pipe :: s.2.2.tokens := by
  have hafter : Stops l.after := by
    have hnil : Stops [] := fun c hc => by cases hc
    have := stops_append hl.after hnil
    rwa [List.append_nil] at this
  have hend : tokensAfter 0 l.after = [] := by
    have := tokensAfter_blanks hl.after []
    rwa [List.append_nil] at this
  obtain ⟨hstops, hrest⟩ := tokensAfter_stages hl.rest hl.left hl.right hafter
  rw [tokens, String.toList_ofList, SpelledLine.written]
  simp only [List.append_assoc]
  rw [tokensAfter_blanks hl.before, tokensAfter_stage hl.first hstops, hrest, hend,
    List.append_nil]

/-! ## Collecting stages -/

namespace LineReading

/-- Words after the first are taken as they are. -/
lemma foldl_add_words (rest : List (List Char × SpelledWord)) {r : LineReading}
    (hr : r.words ≠ []) :
    (rest.map fun w => Token.word w.2.word).foldl add r =
      { r with words := r.words ++ rest.map fun w => String.ofList w.2.text } := by
  induction rest generalizing r with
  | nil => simp
  | cons w rest ih =>
    have hempty : r.words.isEmpty = false := by simpa using hr
    have hadd : r.add (.word w.2.word) =
        { r with words := r.words ++ [String.ofList w.2.text] } := by
      simp [add, hempty, SpelledWord.word]
    rw [List.map_cons, List.foldl_cons, hadd, ih (by simp)]
    simp

lemma foldl_add_stage {s : SpelledStage} (hs : s.Proper) {r : LineReading} (hr : r.words = []) :
    s.tokens.foldl add r = { r with words := s.words } := by
  have hadd : r.add (.word s.first.word) =
      { r with words := [String.ofList s.first.text] } := by
    have hno : ¬((r.words.isEmpty && s.first.word.bare && isAssignment s.first.word.text) =
        true) := by
      simpa [hr, SpelledWord.word] using hs.no_assignment
    rw [add, if_neg hno, hr]
    rfl
  rw [SpelledStage.tokens, List.foldl_cons, hadd, foldl_add_words _ (by simp)]
  rfl

lemma finishStage_words (r : LineReading) (s : SpelledStage) (required : Bool)
    (hr : r.words = s.words) :
    r.finishStage required = { r with stages := r.stages ++ [s.stage], words := [] } := by
  rw [finishStage, hr]
  rfl

/-- Each further stage finishes the one before it, and the end of the line the last one. -/
lemma foldl_add_stages {rest : List (List Char × List Char × SpelledStage)}
    (hstages : ∀ s ∈ rest, s.2.2.Proper) {s : SpelledStage} {r : LineReading}
    (hr : r.words = s.words) :
    let r' := (rest.flatMap fun s => Token.pipe :: s.2.2.tokens).foldl add r
    (r'.finishStage r'.sawPipe).stages =
        r.stages ++ s.stage :: rest.map (fun s => s.2.2.stage) ∧
      (r'.finishStage r'.sawPipe).warnings = r.warnings := by
  induction rest generalizing s r with
  | nil =>
    show (r.finishStage r.sawPipe).stages = _ ∧ (r.finishStage r.sawPipe).warnings = _
    rw [finishStage_words r s _ hr]
    exact ⟨rfl, rfl⟩
  | cons n rest ih =>
    obtain ⟨hn, hstages⟩ := List.forall_mem_cons.1 hstages
    have hpipe : r.add .pipe =
        { r with stages := r.stages ++ [s.stage], words := [], sawPipe := true } :=
      finishStage_words { r with sawPipe := true } s true hr
    rw [List.flatMap_cons, List.cons_append, List.foldl_cons, List.foldl_append, hpipe,
      foldl_add_stage hn rfl]
    obtain ⟨hstage, hwarn⟩ := ih hstages (s := n.2.2) (r := { r with
      stages := r.stages ++ [s.stage], words := n.2.2.words, sawPipe := true }) rfl
    refine ⟨hstage.trans ?_, hwarn⟩
    simp

end LineReading

/-- No quote of a spelled line is left open. -/
lemma quoteWarnings_line (l : SpelledLine) :
    quoteWarnings (l.first.tokens ++ l.rest.flatMap fun s => .pipe :: s.2.2.tokens) = [] := by
  have hstage : ∀ s : SpelledStage, quoteWarnings s.tokens = [] := by
    intro s
    simp [quoteWarnings, SpelledStage.tokens, SpelledWord.word]
  have happend : ∀ ts us, quoteWarnings (ts ++ us) = quoteWarnings ts ++ quoteWarnings us :=
    fun ts us => List.filterMap_append
  have hpipe : ∀ ts, quoteWarnings (.pipe :: ts) = quoteWarnings ts := fun ts => rfl
  rw [happend, hstage, List.nil_append]
  induction l.rest with
  | nil => rfl
  | cons s rest ih => rw [List.flatMap_cons, happend, hpipe, hstage, ih, List.nil_append]

namespace Pipeline

/-- **What a spelled line stands for is what is read from it.** -/
theorem ofLine_written {l : SpelledLine} (hl : l.Proper) :
    ofLine (String.ofList l.written) = ⟨l.stages, []⟩ := by
  obtain ⟨hstages, hwarnings⟩ := LineReading.foldl_add_stages hl.rest (s := l.first)
    (r := { LineReading.start with words := l.first.words }) rfl
  rw [ofLine, tokens_written hl, ofTokens, quoteWarnings_line, List.foldl_append,
    LineReading.foldl_add_stage hl.first rfl]
  simp only [hstages, hwarnings]
  rfl

/-- **Reading undoes every spelling.**  Any stages can be spelled, and however they are, they are what
is read, without a warning. -/
theorem ofLine_spelled (first : Stage) (rest : List Stage) :
    (∃ l : SpelledLine, l.Proper ∧ l.stages = first :: rest) ∧
      ∀ l : SpelledLine, l.Proper → l.stages = first :: rest →
        ofLine (String.ofList l.written) = ⟨first :: rest, []⟩ :=
  ⟨exists_spelling first rest, fun _ hl hstages => hstages ▸ ofLine_written hl⟩

/-- The line `2\>x	'' 'a|b'"\"" |A='' b` with a tab for `\t`. -/
def intricate : SpelledLine where
  before := []
  first := ⟨⟨[.raw ['2'], .escaped ['>'], .raw ['x']]⟩,
    [(['\t'], ⟨[.single []]⟩), ([' '], ⟨[.single ['a', '|', 'b'], .double ['"']]⟩)]⟩
  rest := [([' '], [], ⟨⟨[.raw ['A', '='], .single []]⟩, [([' '], ⟨[.raw ['b']]⟩)]⟩)]
  after := []

theorem ofLine_spelled_intricate :
    intricate.Proper ∧ intricate.stages = [⟨"2>x", ["", "a|b\""]⟩, ⟨"A=", ["b"]⟩] ∧
      ofLine (String.ofList intricate.written) =
        ⟨[⟨"2>x", ["", "a|b\""]⟩, ⟨"A=", ["b"]⟩], []⟩ := by
  have hproper : intricate.Proper := by decide
  have hstages : intricate.stages = [⟨"2>x", ["", "a|b\""]⟩, ⟨"A=", ["b"]⟩] := by decide
  exact ⟨hproper, hstages, (ofLine_spelled _ _).2 intricate hproper hstages⟩

end Pipeline

end GuestShell
