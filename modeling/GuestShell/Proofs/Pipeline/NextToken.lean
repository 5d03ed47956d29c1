import GuestShell.Proofs.Pipeline.ReadBack
import Mathlib.Data.List.TakeWhile

/-!
# One token after another

`nextToken?` reads one token and tells what comes after it.  It gives up only where nothing but
blanks is left (`nextToken?_eq_none`), because no word turns out to be nothing at all, and the
tokens of a line are what it reads until then or until an operator (`reads_tokensAfter`).

What it reads is decided by the text up to the character after the token.  So an operator that ends
a line ends every line that begins in the same way, whatever comes after it, unless it is a part of
a longer operator there (`Reads.replace`).
-/

namespace GuestShell

/-! ## How a token begins -/

/-- The operators that end a line. -/
def operators : List String := ["||", "&&", "&", ";", "<", ">>", ">", "2>>", "2>"]

/-- The text continues an operator to a longer one. -/
def Extends (symbol : String) (cs : List Char) : Prop := ∃ c ∈ cs.head?, symbol.push c ∈ operators

instance (symbol : String) (cs : List Char) : Decidable (Extends symbol cs) :=
  match cs with
  | [] => .isFalse (by simp [Extends])
  | c :: _ => decidable_of_iff (symbol.push c ∈ operators) (by simp [Extends])

/-- Three operators can be continued, each with its own last character. -/
lemma extends_iff {symbol : String} (h : symbol ∈ operators) {cs : List Char} : Extends symbol cs ↔
    symbol = "&" ∧ cs.head? = some '&' ∨ (symbol = ">" ∨ symbol = "2>") ∧ cs.head? = some '>' := by
  simp only [operators, List.mem_cons, List.not_mem_nil, or_false] at h
  rcases h with rfl | rfl | rfl | rfl | rfl | rfl | rfl | rfl | rfl <;>
    simp [Extends, operators, ← String.toList_inj]

lemma not_extends {symbol : String} (h : symbol ∈ operators)
    (hne : symbol ≠ "&" ∧ symbol ≠ ">" ∧ symbol ≠ "2>") (cs : List Char) : ¬Extends symbol cs := by
  rw [extends_iff h]
  rintro (⟨rfl, -⟩ | ⟨rfl | rfl, -⟩)
  · exact hne.1 rfl
  · exact hne.2.1 rfl
  · exact hne.2.2 rfl

/-- The text begins with an operator that it does not continue. -/
def BeginsOperator (c : Char) (cs : List Char) : Prop :=
  ∃ symbol ∈ operators, ∃ ds rest, symbol.toList = c :: ds ∧ cs = ds ++ rest ∧ ¬Extends symbol rest

/-- An operator that nothing continues. -/
lemma beginsOperator_alone (symbol : String) (ds : List Char) {c : Char} (h : symbol ∈ operators)
    (hne : symbol ≠ "&" ∧ symbol ≠ ">" ∧ symbol ≠ "2>") (hchars : symbol.toList = c :: ds)
    (rest : List Char) : BeginsOperator c (ds ++ rest) :=
  ⟨symbol, h, ds, rest, hchars, rfl, not_extends h hne rest⟩

/-- An operator that can be continued by a character is read with it. -/
lemma beginsOperator_greedy (single double : String) (ds : List Char) {c d : Char}
    (hsingle : single ∈ operators) (hmore : ∀ cs, Extends single cs → cs.head? = some d)
    (hdouble : double ∈ operators) (hne : double ≠ "&" ∧ double ≠ ">" ∧ double ≠ "2>")
    (hchars : single.toList = c :: ds) (hchars' : double.toList = c :: (ds ++ [d]))
    (rest : List Char) : BeginsOperator c (ds ++ rest) := by
  by_cases h : rest.head? = some d
  · obtain ⟨tail, rfl⟩ := List.head?_eq_some_iff.1 h
    exact ⟨double, hdouble, ds ++ [d], tail, hchars', by simp, not_extends hdouble hne tail⟩
  · exact ⟨single, hsingle, ds, rest, hchars, rfl, mt (hmore rest) h⟩

/-- A text begins with an operator, a pipe or a word. -/
lemma begins_cases (c : Char) (cs : List Char) :
    BeginsOperator c cs ∨ (c = '|' ∧ cs.head? ≠ some '|') ∨
      (isOperatorChar c = false ∧ (c = '2' → cs.head? ≠ some '>')) := by
  have hamp (cs : List Char) : Extends "&" cs → cs.head? = some '&' := by
    simp [extends_iff (show "&" ∈ operators by decide)]
  have hgt (cs : List Char) : Extends ">" cs → cs.head? = some '>' := by
    simp [extends_iff (show ">" ∈ operators by decide)]
  have hredirect (cs : List Char) : Extends "2>" cs → cs.head? = some '>' := by
    simp [extends_iff (show "2>" ∈ operators by decide)]
  cases hop : isOperatorChar c with
  | true =>
    simp only [isOperatorChar, Bool.or_eq_true, beq_iff_eq] at hop
    obtain (((rfl | rfl) | rfl) | rfl) | rfl := hop
    · by_cases h : cs.head? = some '|'
      · obtain ⟨rest, rfl⟩ := List.head?_eq_some_iff.1 h
        exact .inl (beginsOperator_alone "||" ['|'] (by decide) (by decide) rfl rest)
      · exact .inr (.inl ⟨rfl, h⟩)
    · exact .inl (beginsOperator_greedy "&" "&&" [] (by decide) hamp (by decide) (by decide) rfl rfl
        cs)
    · exact .inl (beginsOperator_alone ";" [] (by decide) (by decide) rfl cs)
    · exact .inl (beginsOperator_alone "<" [] (by decide) (by decide) rfl cs)
    · exact .inl (beginsOperator_greedy ">" ">>" [] (by decide) hgt (by decide) (by decide) rfl rfl
        cs)
  | false =>
    by_cases h : c = '2' ∧ cs.head? = some '>'
    · obtain ⟨rfl, hnext⟩ := h
      obtain ⟨rest, rfl⟩ := List.head?_eq_some_iff.1 hnext
      exact .inl (beginsOperator_greedy "2>" "2>>" ['>'] (by decide) hredirect (by decide)
        (by decide) rfl rfl rest)
    · exact .inr (.inr ⟨rfl, fun hc hnext => h ⟨hc, hnext⟩⟩)

lemma doubled_of_ne {c : Char} {single double : Token} {cs : List Char} (h : cs.head? ≠ some c) :
    doubled c single double cs = (single, 1) := by
  cases cs with
  | nil => rfl
  | cons d cs =>
    rw [doubled, if_neg]
    rintro rfl
    exact h rfl

/-- An operator that the text does not continue is read as it is. -/
lemma tokenAt_operator {symbol : String} (h : symbol ∈ operators) {c : Char} {ds rest : List Char}
    (hsymbol : symbol.toList = c :: ds) (hrest : ¬Extends symbol rest) :
    tokenAt c (ds ++ rest) = (.operator symbol, symbol.toList.length) := by
  rw [extends_iff h] at hrest
  simp only [operators, List.mem_cons, List.not_mem_nil, or_false] at h
  rcases h with rfl | rfl | rfl | rfl | rfl | rfl | rfl | rfl | rfl <;>
    obtain ⟨rfl, rfl⟩ := List.cons.inj hsymbol
  · rfl
  · rfl
  · exact doubled_of_ne fun h => hrest (.inl ⟨rfl, h⟩)
  · rfl
  · rfl
  · rfl
  · exact doubled_of_ne fun h => hrest (.inr ⟨.inl rfl, h⟩)
  · rfl
  · have hnext : rest.head? ≠ some '>' := fun h => hrest (.inr ⟨.inr rfl, h⟩)
    show tokenAt '2' ('>' :: rest) = (.operator "2>", 2)
    unfold tokenAt
    rw [if_neg (by decide), if_neg (by decide), if_neg (by decide), if_neg (by decide),
      if_neg (by decide), if_pos rfl]
    split
    · rename_i heq
      cases heq
      exact absurd rfl hnext
    · rfl
    · rename_i hno
      exact absurd rfl (hno _)

lemma tokenAt_pipe {cs : List Char} (h : cs.head? ≠ some '|') : tokenAt '|' cs = (.pipe, 1) :=
  doubled_of_ne h

/-- All else is a word. -/
lemma tokenAt_word {c : Char} {cs : List Char} (hop : isOperatorChar c = false)
    (htwo : c = '2' → cs.head? ≠ some '>') : tokenAt c cs = wordAt (c :: cs) := by
  simp only [isOperatorChar, Bool.or_eq_false_iff, beq_eq_false_iff_ne, ne_eq] at hop
  obtain ⟨⟨⟨⟨hpipe, hamp⟩, hsemi⟩, hlt⟩, hgt⟩ := hop
  unfold tokenAt
  rw [if_neg hpipe, if_neg hamp, if_neg hsemi, if_neg hlt, if_neg hgt]
  split_ifs with hc
  · split
    · exact absurd rfl (htwo hc)
    · exact absurd rfl (htwo hc)
    · rfl
  · rfl

/-! ## What a word takes -/

/-- A character of a word is text or is a mark of quoting, so the word is not nothing. -/
lemma scan_visible {c : Char} (hblank : Text.isBlank c = false) (hop : isOperatorChar c = false)
    (cs : List Char) : (∃ n, (scan .plain (c :: cs)).size = n + 1) ∧
      ((scan .plain (c :: cs)).text = [] → (scan .plain (c :: cs)).bare = false) := by
  rw [scan, if_neg (by simp [hblank, hop])]
  split_ifs
  · exact ⟨⟨_, rfl⟩, fun _ => rfl⟩
  · exact ⟨⟨_, rfl⟩, fun _ => rfl⟩
  · exact ⟨⟨_, rfl⟩, fun h => by cases h⟩

lemma size_scan_le (place : WordPlace) (cs : List Char) : (scan place cs).size ≤ cs.length := by
  fun_induction scan place cs <;>
    simp_all [Scan.quoting, Scan.keep, Scan.skip]

/-- Where a word ends before the text does, the character after it ends it, whatever comes then. -/
lemma scan_local {place : WordPlace} (ds : List Char) {x : Char} {ys : List Char}
    (h : (scan place (ds ++ x :: ys)).size = ds.length) (ys' : List Char) :
    scan place (ds ++ x :: ys') = scan place (ds ++ x :: ys) := by
  induction ds generalizing place with
  | nil =>
    cases place with
    | plain =>
      rw [List.nil_append, scan] at h
      rw [List.nil_append, List.nil_append, scan, scan]
      split_ifs at h ⊢
      · rfl
      all_goals cases h
    | escaped => cases h
    | quoted q =>
      rw [List.nil_append, scan] at h
      split_ifs at h <;> cases h
    | quotedEscape => cases h
  | cons c ds ih =>
    cases place with
    | plain =>
      rw [List.cons_append, scan] at h
      rw [List.cons_append, List.cons_append, scan, scan]
      split_ifs at h ⊢
      · exact congrArg Scan.quoting (ih (Nat.succ.inj h))
      · exact congrArg Scan.quoting (ih (Nat.succ.inj h))
      · exact congrArg (Scan.keep c) (ih (Nat.succ.inj h))
    | escaped => exact congrArg (Scan.keep c) (ih (Nat.succ.inj h))
    | quoted q =>
      rw [List.cons_append, scan] at h
      rw [List.cons_append, List.cons_append, scan, scan]
      split_ifs at h ⊢
      · exact congrArg Scan.skip (ih (Nat.succ.inj h))
      · exact congrArg Scan.skip (ih (Nat.succ.inj h))
      · exact congrArg (Scan.keep c) (ih (Nat.succ.inj h))
    | quotedEscape => exact congrArg (Scan.keep c) (ih (Nat.succ.inj h))

/-! ## The next token -/

/-- Whether a token ends what is read of a line. -/
def Token.isOperator : Token → Bool
  | .operator _ => true
  | _ => false

/-- Whether a token is nothing: a word without characters that was not quoted either. -/
def Token.isVoid : Token → Bool
  | .word w => w.text.isEmpty && w.bare
  | _ => false

/-- The next token of a text, and what comes after it. -/
def nextToken? (cs : List Char) : Option (Token × List Char) :=
  match cs.dropWhile Text.isBlank with
  | [] => none
  | c :: cs =>
    let (t, size) := tokenAt c cs
    if t.isVoid then none else some (t, (c :: cs).drop size)

/-- A token that is read is something, and takes at least one character. -/
lemma tokenAt_spec {c : Char} (hc : Text.isBlank c = false) (cs : List Char) :
    (tokenAt c cs).1.isVoid = false ∧ ∃ n, (tokenAt c cs).2 = n + 1 ∧ n ≤ cs.length := by
  rcases begins_cases c cs with ⟨symbol, hmem, ds, rest, hchars, rfl, hrest⟩ | ⟨rfl, hpipe⟩ |
    ⟨hop, htwo⟩
  · rw [tokenAt_operator hmem hchars hrest, hchars]
    exact ⟨rfl, ds.length, rfl, by simp⟩
  · rw [tokenAt_pipe hpipe]
    exact ⟨rfl, 0, rfl, Nat.zero_le _⟩
  · rw [tokenAt_word hop htwo]
    obtain ⟨⟨n, hn⟩, hvisible⟩ := scan_visible hc hop cs
    refine ⟨?_, n, hn, Nat.le_of_succ_le_succ (hn.ge.trans (size_scan_le .plain (c :: cs)))⟩
    cases htext : (scan .plain (c :: cs)).text with
    | nil => simp [wordAt, Token.isVoid, hvisible htext]
    | cons d ds => simp [wordAt, Token.isVoid, htext]

/-- **Reading gives up only where nothing but blanks is left.** -/
theorem nextToken?_eq_none {cs : List Char} : nextToken? cs = none ↔ Blanks cs := by
  rw [nextToken?]
  cases hdrop : cs.dropWhile Text.isBlank with
  | nil => simpa [Blanks] using List.dropWhile_eq_nil_iff.1 hdrop
  | cons c ds =>
    have hc : Text.isBlank c = false := by
      simpa [hdrop] using List.head?_dropWhile_not Text.isBlank cs
    have hmem : c ∈ cs := (List.dropWhile_sublist _).subset (hdrop ▸ List.mem_cons_self)
    simp only [(tokenAt_spec hc ds).1, Bool.false_eq_true, if_false, reduceCtorEq, false_iff]
    intro h
    exact absurd (h c hmem) (by simp [hc])

lemma nextToken?_blanks {gap : List Char} (h : Blanks gap) (cs : List Char) :
    nextToken? (gap ++ cs) = nextToken? cs := by
  rw [nextToken?, nextToken?, List.dropWhile_append_of_pos h]

lemma nextToken?_cons {c : Char} (hc : Text.isBlank c = false) (cs : List Char) :
    nextToken? (c :: cs) = some ((tokenAt c cs).1, (c :: cs).drop (tokenAt c cs).2) := by
  rw [nextToken?, List.dropWhile_cons_of_neg (by simp [hc])]
  simp [(tokenAt_spec hc cs).1]

/-- What is read begins after a gap. -/
lemma exists_gap {cs rest : List Char} {t : Token} (h : nextToken? cs = some (t, rest)) :
    ∃ gap c ds, Blanks gap ∧ Text.isBlank c = false ∧ cs = gap ++ c :: ds ∧
      t = (tokenAt c ds).1 ∧ rest = (c :: ds).drop (tokenAt c ds).2 := by
  cases hdrop : cs.dropWhile Text.isBlank with
  | nil =>
    rw [nextToken?, hdrop] at h
    cases h
  | cons c ds =>
    have hc : Text.isBlank c = false := by
      simpa [hdrop] using List.head?_dropWhile_not Text.isBlank cs
    have hcs : cs = cs.takeWhile Text.isBlank ++ c :: ds := by
      rw [← hdrop, List.takeWhile_append_dropWhile]
    have hgap : Blanks (cs.takeWhile Text.isBlank) := fun b hb => List.mem_takeWhile_imp hb
    rw [hcs, nextToken?_blanks hgap, nextToken?_cons hc] at h
    cases h
    exact ⟨_, c, ds, hgap, hc, hcs, rfl, rfl⟩

/-- What is left is shorter. -/
lemma length_lt_of_nextToken? {cs rest : List Char} {t : Token}
    (h : nextToken? cs = some (t, rest)) : rest.length < cs.length := by
  obtain ⟨gap, c, ds, -, hc, rfl, -, rfl⟩ := exists_gap h
  obtain ⟨-, n, hn, -⟩ := tokenAt_spec hc ds
  rw [hn]
  simp only [List.length_drop, List.length_append, List.length_cons]
  omega

/-- A pipe or a word is decided on by the character after it, whatever comes then. -/
lemma tokenAt_local {c x : Char} {es ys : List Char}
    (hop : (tokenAt c (es ++ x :: ys)).1.isOperator = false)
    (hsize : (tokenAt c (es ++ x :: ys)).2 = es.length + 1) (ys' : List Char) :
    tokenAt c (es ++ x :: ys') = tokenAt c (es ++ x :: ys) := by
  have hhead : (es ++ x :: ys').head? = (es ++ x :: ys).head? := by
    rw [List.head?_append, List.head?_append]
    rfl
  rcases begins_cases c (es ++ x :: ys) with ⟨symbol, hmem, ds, rest, hchars, hds, hrest⟩ |
    ⟨rfl, hpipe⟩ | ⟨hword, htwo⟩
  · rw [hds, tokenAt_operator hmem hchars hrest] at hop
    cases hop
  · rw [tokenAt_pipe hpipe, tokenAt_pipe (hhead ▸ hpipe)]
  · rw [tokenAt_word hword htwo] at hsize
    rw [tokenAt_word hword htwo, tokenAt_word hword (hhead ▸ htwo), wordAt, wordAt,
      ← List.cons_append, ← List.cons_append, scan_local (c :: es) hsize]

lemma nextToken?_local {cs ys : List Char} {x : Char} {t : Token}
    (h : nextToken? cs = some (t, x :: ys)) (ht : t.isOperator = false) :
    ∃ used, cs = used ++ x :: ys ∧ ∀ ys', nextToken? (used ++ x :: ys') = some (t, x :: ys') := by
  obtain ⟨gap, c, ds, hgap, hc, rfl, rfl, hrest⟩ := exists_gap h
  obtain ⟨-, n, hn, -⟩ := tokenAt_spec hc ds
  rw [hn, List.drop_succ_cons] at hrest
  -- the token is `c` and the first `n` characters after it
  obtain ⟨es, rfl, rfl⟩ : ∃ es, ds = es ++ x :: ys ∧ es.length = n := by
    refine ⟨ds.take n, by rw [hrest, List.take_append_drop], ?_⟩
    have hlength := congrArg List.length hrest
    rw [List.length_cons, List.length_drop] at hlength
    rw [List.length_take]
    omega
  refine ⟨gap ++ c :: es, by simp, fun ys' => ?_⟩
  rw [List.append_assoc, List.cons_append, nextToken?_blanks hgap, nextToken?_cons hc,
    tokenAt_local ht hn, hn, List.drop_succ_cons, List.drop_left]

/-- An operator is read from every text that begins with it and does not continue it. -/
lemma nextToken?_operator {cs rest : List Char} {symbol : String}
    (h : nextToken? cs = some (.operator symbol, rest)) :
    symbol ∈ operators ∧ ∃ gap, cs = gap ++ symbol.toList ++ rest ∧
      ∀ rest', ¬Extends symbol rest' →
        nextToken? (gap ++ symbol.toList ++ rest') = some (.operator symbol, rest') := by
  obtain ⟨gap, c, ds, hgap, hc, rfl, ht, hrest⟩ := exists_gap h
  rcases begins_cases c ds with ⟨symbol, hmem, es, tail, hchars, rfl, htail⟩ | ⟨rfl, hpipe⟩ |
    ⟨hword, htwo⟩
  · rw [tokenAt_operator hmem hchars htail] at ht hrest
    obtain rfl := Token.operator.inj ht
    rw [hchars, List.length_cons, List.drop_succ_cons, List.drop_left] at hrest
    subst hrest
    refine ⟨hmem, gap, by simp [hchars], fun rest' hrest' => ?_⟩
    rw [List.append_assoc, nextToken?_blanks hgap, hchars, List.cons_append, nextToken?_cons hc,
      tokenAt_operator hmem hchars hrest', hchars, List.length_cons, List.drop_succ_cons,
      List.drop_left]
  · rw [tokenAt_pipe hpipe] at ht
    cases ht
  · rw [tokenAt_word hword htwo] at ht
    cases ht

/-! ## All tokens of a line -/

/-- The tokens of a text, one after another until nothing is left or an operator was read, and what
comes after the last one. -/
inductive Reads : List Char → List Token → List Char → Prop
  | ended {cs} : nextToken? cs = none → Reads cs [] cs
  | stopped {cs symbol rest} : nextToken? cs = some (.operator symbol, rest) →
      Reads cs [.operator symbol] rest
  | more {cs t rest ts last} : nextToken? cs = some (t, rest) → t.isOperator = false →
      Reads rest ts last → Reads cs (t :: ts) last

/-- What is read of a line, told by the next token. -/
lemma tokensAfter_eq (cs : List Char) : tokensAfter 0 cs =
    match nextToken? cs with
    | none => []
    | some (.operator symbol, _) => [.operator symbol]
    | some (t, rest) => t :: tokensAfter 0 rest := by
  cases h : nextToken? cs with
  | none =>
    have := tokensAfter_blanks (nextToken?_eq_none.1 h) []
    rwa [List.append_nil] at this
  | some r =>
    obtain ⟨t, rest⟩ := r
    obtain ⟨gap, c, ds, hgap, hc, rfl, rfl, rfl⟩ := exists_gap h
    obtain ⟨-, n, hn, -⟩ := tokenAt_spec hc ds
    rw [tokensAfter_blanks hgap, tokensAfter, if_neg (by simp [hc])]
    generalize tokenAt c ds = r at hn ⊢
    obtain ⟨t, size⟩ := r
    cases hn
    cases t with
    | operator symbol => rfl
    | pipe => exact congrArg (Token.pipe :: ·) (tokensAfter_eq_drop n ds)
    | word w => exact congrArg (Token.word w :: ·) (tokensAfter_eq_drop n ds)

/-- **The tokens of a line are those that are read one after another.** -/
theorem reads_tokensAfter (cs : List Char) : ∃ rest, Reads cs (tokensAfter 0 cs) rest := by
  rw [tokensAfter_eq]
  match h : nextToken? cs with
  | none => exact ⟨cs, .ended h⟩
  | some (.operator symbol, rest) => exact ⟨rest, .stopped h⟩
  | some (.pipe, rest) =>
    have := length_lt_of_nextToken? h
    obtain ⟨last, hlast⟩ := reads_tokensAfter rest
    exact ⟨last, .more h rfl hlast⟩
  | some (.word w, rest) =>
    have := length_lt_of_nextToken? h
    obtain ⟨last, hlast⟩ := reads_tokensAfter rest
    exact ⟨last, .more h rfl hlast⟩
termination_by cs.length

namespace Reads

variable {cs rest : List Char} {ts : List Token}

lemma tokensAfter (h : Reads cs ts rest) : tokensAfter 0 cs = ts := by
  induction h with
  | ended h => rw [tokensAfter_eq, h]
  | stopped h => rw [tokensAfter_eq, h]
  | @more cs t rest ts last h ht _ ih =>
    rw [tokensAfter_eq, h]
    cases t with
    | operator symbol => cases ht
    | pipe => exact congrArg (Token.pipe :: ·) ih
    | word w => exact congrArg (Token.word w :: ·) ih

/-- What is left when no operator ended the line is blank. -/
lemma blanks (h : Reads cs ts rest) (hno : ∀ t ∈ ts, t.isOperator = false) : Blanks rest := by
  induction h with
  | ended h => exact nextToken?_eq_none.1 h
  | stopped h => cases hno _ List.mem_cons_self
  | more _ _ _ ih => exact ih fun t ht => hno t (List.mem_cons_of_mem _ ht)

/-- **What comes after the operator that ended the line is of no account**, as long as it does not
make the operator a longer one. -/
theorem replace {symbol : String} (h : Reads cs ts rest)
    (hlast : ts.getLast? = some (.operator symbol)) :
    symbol ∈ operators ∧ ∃ before, cs = before ++ symbol.toList ++ rest ∧
      ∀ rest', ¬Extends symbol rest' → Reads (before ++ symbol.toList ++ rest') ts rest' := by
  induction h with
  | ended h => cases hlast
  | stopped h =>
    cases hlast
    obtain ⟨hmem, gap, hcs, hother⟩ := nextToken?_operator h
    exact ⟨hmem, gap, hcs, fun rest' hrest' => .stopped (hother rest' hrest')⟩
  | @more cs t rest ts last h ht hrest ih =>
    have hlast' : ts.getLast? = some (.operator symbol) := by
      cases ts with
      | nil =>
        cases hlast
        cases ht
      | cons u ts => rwa [List.getLast?_cons_cons] at hlast
    obtain ⟨hmem, before, hbefore, hother⟩ := ih hlast'
    refine ⟨hmem, ?_⟩
    -- something is left before the rest, and its first character decides on the token
    obtain ⟨x, ys, hxs⟩ : ∃ x ys, before ++ symbol.toList = x :: ys := by
      refine List.exists_cons_of_ne_nil fun hnil => ?_
      have hne : ∀ s ∈ operators, s.toList ≠ [] := by decide
      exact hne symbol hmem (List.append_eq_nil_iff.1 hnil).2
    rw [hxs] at hbefore hother
    rw [hbefore, List.cons_append] at h
    obtain ⟨used, hcs, hused⟩ := nextToken?_local h ht
    refine ⟨used ++ before, ?_, fun rest' hrest' => ?_⟩
    · rw [hcs, List.append_assoc used, hxs, List.append_assoc, List.cons_append]
    · rw [List.append_assoc used, hxs, List.append_assoc]
      exact .more (hused _) ht (hother rest' hrest')

end Reads

end GuestShell
