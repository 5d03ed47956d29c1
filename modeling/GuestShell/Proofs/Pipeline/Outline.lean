import GuestShell.Proofs.Pipeline.NextToken

/-!
# Nothing is dropped silently

An *outline* of a line says what became of each of its tokens: the pipes part the line into
stretches, a stretch is a number of assignments and then the words of a command, and an operator may
cut the line.  Whatever is read has an outline (`Reads.exists_outline`), and the outline says what
the pipeline and its warnings are (`Outline.ofTokens_tokens`).

The main statement is `ofLine_drops_nothing`.
-/

namespace GuestShell

/-- Whether a word is an assignment, if nothing but assignments stands before it. -/
def Word.assigns (w : Word) : Bool := w.bare && isAssignment w.text

/-- The text of a word. -/
def Token.text? : Token → Option String
  | .word w => some w.text
  | _ => none

/-! ## Stretches -/

/-- What stands between two pipes: assignments, and then the words of a command. -/
structure Stretch where
  assigned : List Word
  words : List Word

namespace Stretch

/-- Nothing between two pipes. -/
def empty : Stretch := ⟨[], []⟩

/-- The assignments end where the first word is none. -/
structure Proper (s : Stretch) : Prop where
  assigned : ∀ w ∈ s.assigned, w.assigns = true
  words : ∀ w ∈ s.words.head?, w.assigns = false

/-- All words of the stretch, assignments or not. -/
def tokens (s : Stretch) : List Token := (s.assigned ++ s.words).map .word

/-- The command, if there is one. -/
def stage? (s : Stretch) : Option Stage :=
  match s.words with
  | [] => none
  | w :: ws => some ⟨w.text, ws.map (·.text)⟩

/-- A warning for each assignment, and one if a command is required and there is none. -/
def warnings (required : Bool) (s : Stretch) : List LineWarning :=
  s.assigned.map (fun w => .assignment w.text) ++
    if s.words.isEmpty && required then [.emptyStage] else []

/-- The texts of the assignments, and after them those of the command. -/
def texts (s : Stretch) : List String :=
  s.assigned.map (·.text) ++ s.stage?.elim [] fun c => c.program :: c.args

lemma proper_empty : empty.Proper := ⟨by simp [empty], by simp [empty]⟩

/-- A stretch with a word in front. -/
def push (w : Word) (s : Stretch) : Stretch :=
  if w.assigns then ⟨w :: s.assigned, s.words⟩ else ⟨[], w :: (s.assigned ++ s.words)⟩

lemma proper_push {s : Stretch} (hs : s.Proper) (w : Word) : (s.push w).Proper := by
  rw [push]
  split_ifs with h
  · exact ⟨List.forall_mem_cons.2 ⟨h, hs.assigned⟩, hs.words⟩
  · refine ⟨by simp, fun w' hw' => ?_⟩
    obtain rfl := Option.some.inj hw'
    simpa using h

/-- No word of a stretch is lost. -/
lemma filterMap_tokens (s : Stretch) : s.tokens.filterMap Token.text? = s.texts := by
  rw [tokens, texts, stage?, List.filterMap_map]
  cases s.words <;> simp [Function.comp_def, Token.text?]

lemma tokens_push (s : Stretch) (w : Word) : (s.push w).tokens = .word w :: s.tokens := by
  rw [push]
  split_ifs <;> simp [tokens]

end Stretch

/-! ## Outlines -/

/-- A line in stretches: those with a pipe after them, the last one, and the operator that cut the
line after it. -/
structure Outline where
  piped : List Stretch
  last : Stretch
  operator : Option String

namespace Outline

def stretches (o : Outline) : List Stretch := o.piped ++ [o.last]

def Proper (o : Outline) : Prop := ∀ s ∈ o.stretches, s.Proper

/-- The tokens of the line. -/
def tokens (o : Outline) : List Token :=
  o.piped.flatMap (fun s => s.tokens ++ [Token.pipe]) ++ o.last.tokens ++
    (o.operator.map Token.operator).toList

/-- The commands of the line. -/
def stages (o : Outline) : List Stage := o.stretches.filterMap Stretch.stage?

/-- Whether the last stretch must have a command: a pipe stands before it, and no operator after. -/
def lastRequired (o : Outline) : Bool := !o.piped.isEmpty && o.operator.isNone

/-- The warnings about the stretches, and one about the operator. -/
def warnings (o : Outline) : List LineWarning :=
  o.piped.flatMap (Stretch.warnings true) ++ o.last.warnings o.lastRequired ++
    (o.operator.map LineWarning.unsupported).toList

end Outline

/-! ## What is read from an outline -/

namespace LineReading

variable {stages : List Stage} {words : List String} {warnings : List LineWarning} {saw : Bool}

/-- After the first word of a command all others are words, too. -/
lemma foldl_add_more (ws : List Word) (h : words ≠ []) :
    (ws.map Token.word).foldl add ⟨stages, words, warnings, saw⟩ =
      ⟨stages, words ++ ws.map (·.text), warnings, saw⟩ := by
  induction ws generalizing words with
  | nil => simp
  | cons w ws ih =>
    have hempty : words.isEmpty = false := by simpa using h
    have hadd : add ⟨stages, words, warnings, saw⟩ (.word w) =
        ⟨stages, words ++ [w.text], warnings, saw⟩ := by
      simp [add, hempty]
    rw [List.map_cons, List.foldl_cons, hadd, ih (by simp)]
    simp

lemma foldl_add_assigned {ws : List Word} (h : ∀ w ∈ ws, w.assigns = true) :
    (ws.map Token.word).foldl add ⟨stages, [], warnings, saw⟩ =
      ⟨stages, [], warnings ++ ws.map fun w => .assignment w.text, saw⟩ := by
  induction ws generalizing warnings with
  | nil => simp
  | cons w ws ih =>
    obtain ⟨hw, hws⟩ := List.forall_mem_cons.1 h
    have hadd : add ⟨stages, [], warnings, saw⟩ (.word w) =
        ⟨stages, [], warnings ++ [.assignment w.text], saw⟩ := by
      simp only [Word.assigns, Bool.and_eq_true] at hw
      simp [add, hw.1, hw.2]
    rw [List.map_cons, List.foldl_cons, hadd, ih hws]
    simp

/-- What a stretch adds before anything ends it. -/
lemma foldl_add_stretch {s : Stretch} (hs : s.Proper) :
    s.tokens.foldl add ⟨stages, [], warnings, saw⟩ =
      ⟨stages, s.words.map (·.text),
        warnings ++ s.assigned.map fun w => .assignment w.text, saw⟩ := by
  rw [Stretch.tokens, List.map_append, List.foldl_append, foldl_add_assigned hs.assigned]
  cases hwords : s.words with
  | nil => rfl
  | cons w ws =>
    have hw : (w.bare && isAssignment w.text) = false := hs.words w (by simp [hwords])
    have hadd (warnings : List LineWarning) : add ⟨stages, [], warnings, saw⟩ (.word w) =
        ⟨stages, [w.text], warnings, saw⟩ := by
      simp [add, hw]
    rw [List.map_cons, List.foldl_cons, hadd, foldl_add_more ws (by simp)]
    simp

lemma finishStage_stretch (s : Stretch) (required : Bool) :
    finishStage ⟨stages, s.words.map (·.text), warnings, saw⟩ required =
      ⟨stages ++ s.stage?.toList, [],
        warnings ++ if s.words.isEmpty && required then [.emptyStage] else [], saw⟩ := by
  rw [finishStage, Stretch.stage?]
  cases s.words with
  | nil => cases required <;> simp
  | cons w ws => simp

/-- What a stretch adds with the pipe after it. -/
lemma foldl_add_piped {s : Stretch} (hs : s.Proper) :
    (s.tokens ++ [Token.pipe]).foldl add ⟨stages, [], warnings, saw⟩ =
      ⟨stages ++ s.stage?.toList, [], warnings ++ s.warnings true, true⟩ := by
  rw [List.foldl_append, foldl_add_stretch hs]
  refine (finishStage_stretch s true).trans ?_
  rw [Stretch.warnings, List.append_assoc]

lemma foldl_add_stretches {ss : List Stretch} (h : ∀ s ∈ ss, s.Proper) :
    (ss.flatMap fun s => s.tokens ++ [Token.pipe]).foldl add ⟨stages, [], warnings, saw⟩ =
      ⟨stages ++ ss.filterMap Stretch.stage?, [], warnings ++ ss.flatMap (Stretch.warnings true),
        saw || !ss.isEmpty⟩ := by
  induction ss generalizing stages warnings saw with
  | nil => simp
  | cons s ss ih =>
    obtain ⟨hs, hss⟩ := List.forall_mem_cons.1 h
    rw [List.flatMap_cons, List.foldl_append, foldl_add_piped hs, ih hss]
    cases hstage : s.stage? <;> simp [hstage]

end LineReading

namespace Outline

/-- **The pipeline of an outline's tokens** is told by the outline. -/
theorem ofTokens_tokens {o : Outline} (ho : o.Proper) :
    Pipeline.ofTokens o.tokens = ⟨o.stages, quoteWarnings o.tokens ++ o.warnings⟩ := by
  have hpiped : ∀ s ∈ o.piped, s.Proper := fun s hs => ho s (List.mem_append_left _ hs)
  have hlast : o.last.Proper := ho _ (by simp [stretches])
  have hread : (o.piped.flatMap (fun s => s.tokens ++ [Token.pipe]) ++ o.last.tokens).foldl
      LineReading.add .start =
      ⟨o.piped.filterMap Stretch.stage?, o.last.words.map (·.text),
        o.piped.flatMap (Stretch.warnings true) ++
          o.last.assigned.map fun w => .assignment w.text, !o.piped.isEmpty⟩ := by
    rw [List.foldl_append, LineReading.start, LineReading.foldl_add_stretches hpiped,
      LineReading.foldl_add_stretch hlast]
    simp
  have hstages : o.stages = o.piped.filterMap Stretch.stage? ++ o.last.stage?.toList := by
    cases hstage : o.last.stage? <;> simp [stages, stretches, List.filterMap_append, hstage]
  rw [Pipeline.ofTokens, hstages]
  cases hoperator : o.operator with
  | none =>
    have htokens : o.tokens = o.piped.flatMap (fun s => s.tokens ++ [Token.pipe]) ++
        o.last.tokens := by
      simp [tokens, hoperator]
    rw [htokens, hread]
    simp only [LineReading.finishStage_stretch, warnings, Stretch.warnings, lastRequired, hoperator]
    simp
  | some symbol =>
    have htokens : o.tokens = o.piped.flatMap (fun s => s.tokens ++ [Token.pipe]) ++
        o.last.tokens ++ [.operator symbol] := by
      simp [tokens, hoperator]
    rw [htokens, List.foldl_append, hread, List.foldl_cons, List.foldl_nil, LineReading.add]
    simp only [LineReading.finishStage_stretch, warnings, Stretch.warnings, lastRequired, hoperator]
    simp

/-! ### Every line has an outline -/

/-- An outline with a word in front. -/
def push (w : Word) (o : Outline) : Outline :=
  match o.piped with
  | [] => { o with last := o.last.push w }
  | s :: ss => { o with piped := s.push w :: ss }

/-- An outline with an empty stretch in front. -/
def pushPipe (o : Outline) : Outline := { o with piped := .empty :: o.piped }

lemma proper_push {o : Outline} (ho : o.Proper) (w : Word) : (o.push w).Proper := by
  obtain ⟨piped, last, operator⟩ := o
  cases piped with
  | nil =>
    obtain ⟨hlast, -⟩ := List.forall_mem_cons.1 ho
    exact List.forall_mem_cons.2 ⟨Stretch.proper_push hlast w, by simp⟩
  | cons s ss =>
    obtain ⟨hs, hss⟩ := List.forall_mem_cons.1 ho
    exact List.forall_mem_cons.2 ⟨Stretch.proper_push hs w, hss⟩

lemma tokens_push (o : Outline) (w : Word) : (o.push w).tokens = .word w :: o.tokens := by
  obtain ⟨piped, last, operator⟩ := o
  cases piped <;> simp [push, tokens, Stretch.tokens_push]

lemma proper_pushPipe {o : Outline} (ho : o.Proper) : o.pushPipe.Proper :=
  List.forall_mem_cons.2 ⟨Stretch.proper_empty, ho⟩

lemma tokens_pushPipe (o : Outline) : o.pushPipe.tokens = .pipe :: o.tokens := by
  simp [pushPipe, tokens, Stretch.tokens, Stretch.empty]

/-- No word of a line is lost. -/
lemma filterMap_tokens (o : Outline) :
    o.tokens.filterMap Token.text? = o.stretches.flatMap Stretch.texts := by
  have hpiped : (o.piped.flatMap fun s => s.tokens ++ [Token.pipe]).filterMap Token.text? =
      o.piped.flatMap Stretch.texts := by
    induction o.piped with
    | nil => rfl
    | cons s ss ih =>
      rw [List.flatMap_cons, List.filterMap_append, List.filterMap_append, s.filterMap_tokens, ih]
      simp [Token.text?]
  have hoperator : (o.operator.map Token.operator).toList.filterMap Token.text? = [] := by
    cases o.operator <;> rfl
  rw [tokens, List.filterMap_append, List.filterMap_append, hpiped, o.last.filterMap_tokens,
    hoperator, stretches, List.flatMap_append]
  simp

lemma isOperator_of_none {o : Outline} (h : o.operator = none) :
    ∀ t ∈ o.tokens, t.isOperator = false := by
  intro t ht
  simp only [tokens, h, Option.map_none, Option.toList_none, List.append_nil, List.mem_append,
    List.mem_flatMap, List.mem_singleton, Stretch.tokens, List.mem_map] at ht
  rcases ht with ⟨_, -, ⟨_, -, rfl⟩ | rfl⟩ | ⟨_, -, rfl⟩ <;> rfl

lemma getLast?_tokens {o : Outline} {symbol : String} (h : o.operator = some symbol) :
    o.tokens.getLast? = some (.operator symbol) := by
  simp [tokens, h]

end Outline

/-- What is read has an outline; it ends with the operator, if one cut the line. -/
lemma Reads.exists_outline {cs rest : List Char} {ts : List Token} (h : Reads cs ts rest) :
    ∃ o : Outline, o.Proper ∧ o.tokens = ts := by
  have alone (operator : Option String) : Outline.Proper ⟨[], .empty, operator⟩ :=
    List.forall_mem_cons.2 ⟨Stretch.proper_empty, by simp⟩
  induction h with
  | ended _ => exact ⟨_, alone none, rfl⟩
  | @stopped _ symbol _ _ => exact ⟨_, alone (some symbol), rfl⟩
  | @more _ t _ _ _ _ ht _ ih =>
    obtain ⟨o, ho, htokens⟩ := ih
    cases t with
    | operator symbol => cases ht
    | pipe => exact ⟨o.pushPipe, Outline.proper_pushPipe ho, by rw [o.tokens_pushPipe, htokens]⟩
    | word w => exact ⟨o.push w, Outline.proper_push ho w, by rw [o.tokens_push, htokens]⟩

namespace Pipeline

/-- **No part of a line is dropped silently.**  The tokens are read one after another to the end of
the line or to an operator, and all of them have their place in an outline: each word is an
assignment or belongs to a command, and the outline tells the commands and the warnings.  What comes
after an operator is of no account, if it does not make it a longer one. -/
theorem ofLine_drops_nothing (line : String) :
    (∀ cs, nextToken? cs = none ↔ Blanks cs) ∧
    ∃ (o : Outline) (rest : List Char),
      o.Proper ∧ tokens line = o.tokens ∧ Reads line.toList o.tokens rest ∧
      (o.operator = none → Blanks rest) ∧
      (tokens line).filterMap Token.text? = o.stretches.flatMap Stretch.texts ∧
      ofLine line = ⟨o.stages, quoteWarnings (tokens line) ++ o.warnings⟩ ∧
      ∀ symbol, o.operator = some symbol →
        ∃ before, line.toList = before ++ symbol.toList ++ rest ∧
          ∀ rest', ¬Extends symbol rest' →
            ofLine (String.ofList (before ++ symbol.toList ++ rest')) = ofLine line := by
  refine ⟨fun cs => nextToken?_eq_none, ?_⟩
  obtain ⟨rest, hreads⟩ := reads_tokensAfter line.toList
  obtain ⟨o, ho, htokens⟩ := hreads.exists_outline
  rw [← htokens] at hreads
  have hline : tokens line = o.tokens := htokens.symm
  refine ⟨o, rest, ho, hline, hreads, fun h => hreads.blanks (Outline.isOperator_of_none h),
    by rw [hline, o.filterMap_tokens], by rw [ofLine, hline, Outline.ofTokens_tokens ho], ?_⟩
  intro symbol h
  obtain ⟨-, before, hbefore, hother⟩ := hreads.replace (Outline.getLast?_tokens h)
  refine ⟨before, hbefore, fun rest' hrest' => ?_⟩
  rw [ofLine, ofLine, hline, tokens, String.toList_ofList, (hother rest' hrest').tokensAfter]

/-- An assignment alone before a pipe, and an operator that something else may follow. -/
theorem ofLine_drops_nothing_cut :
    ofLine "A=1 | ls B=2 & c" =
        ⟨[⟨"ls", ["B=2"]⟩], [.assignment "A=1", .emptyStage, .unsupported "&"]⟩ ∧
      ¬Extends "&" "| d".toList ∧ ∃ before rest,
        "A=1 | ls B=2 & c".toList = before ++ "&".toList ++ rest ∧
        ofLine (String.ofList (before ++ "&".toList ++ "| d".toList)) =
          ofLine "A=1 | ls B=2 & c" := by
  obtain ⟨-, o, rest, -, htokens, -, -, -, -, hother⟩ := ofLine_drops_nothing "A=1 | ls B=2 & c"
  have hno : ¬Extends "&" "| d".toList := by decide
  have hlast : o.tokens.getLast? = some (.operator "&") := by
    rw [← htokens]
    decide
  cases hoperator : o.operator with
  | none =>
    cases Outline.isOperator_of_none hoperator _ (List.mem_of_getLast? hlast)
  | some symbol =>
    obtain rfl : symbol = "&" :=
      Token.operator.inj (Option.some.inj ((Outline.getLast?_tokens hoperator).symm.trans hlast))
    obtain ⟨before, hbefore, hsame⟩ := hother "&" hoperator
    exact ⟨by decide, hno, before, rest, hbefore, hsame _ hno⟩

end Pipeline

end GuestShell
