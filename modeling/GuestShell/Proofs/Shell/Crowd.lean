import GuestShell.Proofs.Shell.Along
import GuestShell.Proofs.Shell.LineFold

/-!
# One line at a time

However many lines are in flight, at most one of them has the slot for lines, and the slot for
sessions is taken only while that one runs a program.  The others are refused, and all they do is say
so.

Each step keeps that (`Held.step`), whoever has his turn and whoever is dropped.  So it holds of every
crowd that one can reach, and `reachable_orderly` is what the slots tell about it.
-/

namespace GuestShell.Shell

variable {κ ρ : Type}

namespace Crowd

/-! ## Who has the slots -/

/-- What a line does that was refused: it says so, and that is all. -/
def refusal (s : Shell κ) : Activity κ ρ Unit :=
  .ask (.stderr (Text.encode (SessionError.alreadyRunning.message ++ "\n")), s)
    fun r => .done ((), r.2)

/-- The line has no slot: it has not begun, or it was refused. -/
structure Outside (f : Flight κ ρ) : Prop where
  hasLine : f.hasLine = false
  hasSession : f.hasSession = false
  refused : ∀ t, f.rest = some t → ∃ s, t = refusal s

/-- The line has the slot for lines, and it has the slot for sessions if that is taken. -/
structure Inside (s : Shell κ) (f : Flight κ ρ) : Prop where
  taken : s.line.taken = true
  hasLine : f.hasLine = true
  hasSession : f.hasSession = s.session.taken
  rest : ∃ o next, f.rest = some (.ask o next) ∧ slots s = slots o.2 ∧
    Along (InLine f.line) (fun _ u => slots u = (.vacant, .vacant)) (.ask o next)

/-- Both slots are vacant, or one line is inside; the others are outside. -/
inductive Held (x : Crowd κ ρ) : Prop
  | vacant (slots : slots x.shell = (.vacant, .vacant))
    (others : ∀ j g, x.lines j = some g → Outside g)
  | inside {i : Nat} {f : Flight κ ρ} (present : x.lines i = some f) (owner : Inside x.shell f)
    (others : ∀ j g, j ≠ i → x.lines j = some g → Outside g)

variable {x y : Crowd κ ρ} {i : Nat} {f : Flight κ ρ}

/-- There is nothing else in this place. -/
lemma only (present : x.lines i = some f) (h : Outside f) :
    ∀ g, x.lines i = some g → Outside g := by
  intro g hg
  obtain rfl := Option.some.inj (present.symm.trans hg)
  exact h

lemma outside_start (line : String) : Outside (.start line : Flight κ ρ) := ⟨rfl, rfl, nofun⟩

/-- A line in flight is outside, or it is inside and all others are outside. -/
lemma Held.outside_or_inside (h : Held x) (present : x.lines i = some f) :
    Outside f ∨ Inside x.shell f ∧ ∀ j g, j ≠ i → x.lines j = some g → Outside g := by
  cases h with
  | vacant _ others => exact .inl (others i f present)
  | @inside k g there owner others =>
    by_cases hik : i = k
    · subst hik
      obtain rfl : f = g := Option.some.inj (present.symm.trans there)
      exact .inr ⟨owner, others⟩
    · exact .inl (others i f hik present)

/-- It is the slots that matter. -/
lemma Held.with_shell {s : Shell κ} (h : Held x) (hs : slots s = slots x.shell) :
    Held { x with shell := s } := by
  cases h with
  | vacant slots others => exact .vacant (hs.trans slots) others
  | inside present owner others =>
    obtain ⟨hline, hsession⟩ := Prod.mk.inj hs
    obtain ⟨o, next, hrest, hslots, halong⟩ := owner.rest
    exact .inside present ⟨(congrArg Slot.taken hline).trans owner.taken, owner.hasLine,
      owner.hasSession.trans (congrArg Slot.taken hsession).symm,
      o, next, hrest, hs.trans hslots, halong⟩ others

lemma lines_set_self (f : Option (Flight κ ρ)) : (x.set i f).lines i = f := if_pos rfl

lemma lines_set_of_ne {j : Nat} (f : Option (Flight κ ρ)) (h : j ≠ i) :
    (x.set i f).lines j = x.lines j :=
  if_neg h

lemma outside_set {j : Nat} {f : Option (Flight κ ρ)} {g : Flight κ ρ}
    (hf : ∀ g, f = some g → Outside g) (hothers : j ≠ i → x.lines j = some g → Outside g)
    (hg : (x.set i f).lines j = some g) : Outside g := by
  by_cases hj : j = i
  · subst hj
    exact hf g ((lines_set_self f).symm.trans hg)
  · exact hothers hj ((lines_set_of_ne f hj).symm.trans hg)

/-- A line that is outside may go away, or another one come in its place. -/
lemma Held.set {f : Option (Flight κ ρ)} (h : Held x) (hx : ∀ g, x.lines i = some g → Outside g)
    (hf : ∀ g, f = some g → Outside g) : Held (x.set i f) := by
  cases h with
  | vacant slots others =>
    exact .vacant slots fun j g hg => outside_set hf (fun _ => others j g) hg
  | @inside k g there owner others =>
    have hki : k ≠ i := by
      rintro rfl
      exact Bool.false_ne_true ((hx g there).hasLine.symm.trans owner.hasLine)
    exact .inside ((lines_set_of_ne f hki).trans there) owner fun j g' hj hg =>
      outside_set hf (fun _ => others j g' hj) hg

/-! ## One step -/

lemma keeps_eq {had : Bool} {before after : Slot} (h : had = before.taken) :
    Flight.keeps had before after = after.taken := by
  rw [Flight.keeps]
  split
  · rename_i heq
    rw [h, heq]
  · rfl

/-- The line that has what is taken of the slots has had a turn. -/
lemma held_turn {t : Activity κ ρ Unit} (hline : f.hasLine = x.shell.line.taken)
    (hsession : f.hasSession = x.shell.session.taken)
    (others : ∀ j g, j ≠ i → x.lines j = some g → Outside g)
    (ht : Along (InLine f.line) (fun _ u => slots u = (.vacant, .vacant)) t) :
    Held (x.turn i f t) := by
  cases t with
  | done r => exact .vacant ht fun j g hg => outside_set (by simp) (others j g) hg
  | ask o next =>
    have htaken : o.2.line.taken = true := congrArg Slot.taken ht.1.line
    refine .inside (lines_set_self _) ⟨htaken, (keeps_eq hline).trans htaken, keeps_eq hsession,
      o, next, rfl, rfl, ht⟩ fun j g hj hg => ?_
    exact others j g hj ((lines_set_of_ne _ hj).symm.trans hg)

lemma Held.begin (h : Held x) (present : x.lines i = some f) (fresh : f.rest = none) :
    Held (x.turn i f (runLine f.line x.shell)) := by
  rcases h.outside_or_inside present with hout | ⟨hin, -⟩
  · cases h with
    | vacant hslots others =>
      obtain ⟨hline, hsession⟩ := Prod.mk.inj hslots
      exact held_turn (hout.hasLine.trans (congrArg Slot.taken hline).symm)
        (hout.hasSession.trans (congrArg Slot.taken hsession).symm) (fun j g _ => others j g)
        (along_runLine f.line hslots)
    | inside there owner others =>
      -- another line has the slot, so this one is refused
      rw [runLine_of_taken f.line owner.taken]
      refine (Held.inside there owner others).set (only present hout) fun g hg => ?_
      obtain rfl := Option.some.inj hg
      refine ⟨(if_pos rfl).trans hout.hasLine, (if_pos rfl).trans hout.hasSession, ?_⟩
      rintro t ⟨⟩
      exact ⟨x.shell, rfl⟩
  · obtain ⟨o, next, hrest, -⟩ := hin.rest
    cases fresh.symm.trans hrest

lemma Held.answer {q : Request κ ρ} {s : Shell κ} {next : Answer q × Shell κ → Activity κ ρ Unit}
    (h : Held x) (present : x.lines i = some f) (waits : f.rest = some (.ask (q, s) next))
    (a : Answer q) : Held (x.turn i f (next (a, x.shell))) := by
  rcases h.outside_or_inside present with hout | ⟨hin, others⟩
  · obtain ⟨u, hu⟩ := hout.refused _ waits
    cases hu
    exact h.set (only present hout) (by simp)
  · obtain ⟨o, next', hrest, hslots, halong⟩ := hin.rest
    cases waits.symm.trans hrest
    have hline := hin.hasLine.trans hin.taken.symm
    exact held_turn hline hin.hasSession others (halong.2 (a, x.shell) hslots)

lemma Held.drop (h : Held x) (present : x.lines i = some f) :
    Held { x.set i none with shell := f.leave x.shell } := by
  rcases h.outside_or_inside present with hout | ⟨hin, others⟩
  · refine (h.set (only present hout) (by simp)).with_shell ?_
    rw [slots, Flight.leave, hout.hasLine, hout.hasSession]
    rfl
  · refine .vacant ?_ fun j g hg => outside_set (by simp) (others j g) hg
    rw [slots, Flight.leave, hin.hasLine, hin.hasSession]
    cases hsession : x.shell.session with
    | mk taken => cases taken <;> rfl

/-- **Each step keeps the invariant.** -/
theorem Held.step (h : Held x) (hstep : Step x y) : Held y := by
  cases hstep with
  | start line free =>
    refine h.set (fun g hg => ?_) fun g hg => Option.some.inj hg ▸ outside_start line
    cases free.symm.trans hg
  | begin present fresh => exact h.begin present fresh
  | answer present waits a => exact h.answer present waits a
  | drop present => exact h.drop present
  | change line session => exact h.with_shell (Prod.ext line session)

/-- **So it holds of every crowd that one can reach.** -/
theorem Reachable.held (h : Reachable x) : Held x := by
  induction h with
  | idle line session => exact .vacant (Prod.ext line session) nofun
  | step _ step ih => exact ih.step step

/-! ## What one can tell from the slots -/

/-- What becomes of a line in its first turn: it takes the slot for lines, unless it is over at once; if
the slot is taken, it is refused. -/
def Begins (s : Shell κ) : Activity κ ρ Unit → Prop
  | .done _ => s.line.taken = false
  | .ask o next => if s.line.taken then .ask o next = refusal s else o.2.line.taken = true

/-- One line at a time, and one session at a time within it. -/
structure Orderly (x : Crowd κ ρ) : Prop where
  one : ∀ i j f g, x.lines i = some f → x.lines j = some g → f.hasLine = true → g.hasLine = true →
    i = j
  line_taken_iff : x.shell.line.taken = true ↔ ∃ i f, x.lines i = some f ∧ f.hasLine = true
  session_taken_iff : x.shell.session.taken = true ↔
    ∃ i f, x.lines i = some f ∧ f.hasSession = true
  /-- Only the line with the slot for lines has the other one, and only while it runs one of its
  stages as a program. -/
  inProgram : ∀ i f, x.lines i = some f → f.hasSession = true →
    f.hasLine = true ∧ ∃ t, f.rest = some t ∧ InProgram (Pipeline.ofLine f.line).stages t
  /-- No session is refused to it. -/
  underway : ∀ i f, x.lines i = some f → f.hasLine = true →
    ∃ t, f.rest = some t ∧ Underway f.line t
  begins : ∀ line, Begins x.shell (runLine line x.shell : Activity κ ρ Unit)
  /-- The lines without the slot that have begun were refused. -/
  refused : ∀ i f t, x.lines i = some f → f.hasLine = false → f.rest = some t →
    ∃ s, t = refusal s
  vacant : (∀ i, x.lines i = none) → x.shell.line = .vacant ∧ x.shell.session = .vacant

lemma orderly_of_vacant (hslots : slots x.shell = (.vacant, .vacant))
    (others : ∀ j g, x.lines j = some g → Outside g) : Orderly x where
  one i j f g hf hg hline := by
    rw [(others i f hf).hasLine] at hline
    cases hline
  line_taken_iff := by
    rw [(Prod.mk.inj hslots).1]
    refine ⟨nofun, ?_⟩
    rintro ⟨i, f, hf, hline⟩
    exact (others i f hf).hasLine.symm.trans hline
  session_taken_iff := by
    rw [(Prod.mk.inj hslots).2]
    refine ⟨nofun, ?_⟩
    rintro ⟨i, f, hf, hsession⟩
    exact (others i f hf).hasSession.symm.trans hsession
  inProgram i f hf hsession := by
    rw [(others i f hf).hasSession] at hsession
    cases hsession
  underway i f hf hline := by
    rw [(others i f hf).hasLine] at hline
    cases hline
  begins line := by
    have halong : Along _ _ (runLine line x.shell : Activity κ ρ Unit) := along_runLine line hslots
    have hfree : x.shell.line.taken = false := congrArg (fun p => p.1.taken) hslots
    cases hfirst : (runLine line x.shell : Activity κ ρ Unit) with
    | done r => exact hfree
    | ask o next =>
      rw [hfirst] at halong
      rw [Begins, hfree, if_neg Bool.false_ne_true]
      exact congrArg Slot.taken halong.1.line
  refused i f t hf _ ht := (others i f hf).refused t ht
  vacant _ := Prod.mk.inj hslots

lemma orderly_of_inside (present : x.lines i = some f) (owner : Inside x.shell f)
    (others : ∀ j g, j ≠ i → x.lines j = some g → Outside g) : Orderly x := by
  -- what has a slot is the line that is inside
  have hline (j : Nat) (g : Flight κ ρ) (hg : x.lines j = some g) (h : g.hasLine = true) :
      j = i ∧ g = f := by
    by_cases hj : j = i
    · subst hj
      exact ⟨rfl, Option.some.inj (hg.symm.trans present)⟩
    · cases (others j g hj hg).hasLine.symm.trans h
  have hsession (j : Nat) (g : Flight κ ρ) (hg : x.lines j = some g) (h : g.hasSession = true) :
      g = f := by
    by_cases hj : j = i
    · subst hj
      exact Option.some.inj (hg.symm.trans present)
    · cases (others j g hj hg).hasSession.symm.trans h
  obtain ⟨o, next, hrest, hslots, halong⟩ := owner.rest
  constructor
  · intro j k g g' hg hg' h h'
    exact (hline j g hg h).1.trans (hline k g' hg' h').1.symm
  · exact ⟨fun _ => ⟨i, f, present, owner.hasLine⟩, fun _ => owner.taken⟩
  · refine ⟨fun h => ⟨i, f, present, owner.hasSession.trans h⟩, ?_⟩
    rintro ⟨j, g, hg, h⟩
    obtain rfl := hsession j g hg h
    exact owner.hasSession.symm.trans h
  · intro j g hg h
    obtain rfl := hsession j g hg h
    refine ⟨owner.hasLine, _, hrest, halong.1.session ?_⟩
    rw [← (Prod.mk.inj hslots).2]
    exact owner.hasSession.symm.trans h
  · intro j g hg h
    obtain ⟨-, rfl⟩ := hline j g hg h
    exact ⟨_, hrest, halong.1.underway⟩
  · intro line
    rw [runLine_of_taken line owner.taken]
    exact (if_pos owner.taken).mpr rfl
  · intro j g t hg h ht
    refine (others j g ?_ hg).refused t ht
    rintro rfl
    obtain rfl := Option.some.inj (hg.symm.trans present)
    cases h.symm.trans owner.hasLine
  · intro hnone
    cases (hnone i).symm.trans present

/-- **One line and one session at a time**, and both are released: whatever lines are started,
answered and dropped, in any order. -/
theorem reachable_orderly (h : Reachable x) : Orderly x := by
  cases h.held with
  | vacant slots others => exact orderly_of_vacant slots others
  | inside present owner others => exact orderly_of_inside present owner others

lemma lines_turn_of_ne {j : Nat} (h : j ≠ i) (t : Activity κ ρ Unit) :
    (x.turn i f t).lines j = x.lines j := by
  cases t <;> exact lines_set_of_ne _ h

/-- The line "a" runs a program, and then the line "b" begins. -/
def overlapping : Crowd Unit Empty :=
  let x := ((idle echoShell).set 0 (some (.start "a"))).turn 0 (.start "a") (runLine "a" echoShell)
  (x.set 1 (some (.start "b"))).turn 1 (.start "b") (runLine "b" x.shell)

lemma reachable_overlapping : overlapping.Reachable := by
  have hidle : (idle echoShell : Crowd Unit Empty).Reachable := .idle rfl rfl
  have hfirst := hidle.step (.start (i := 0) "a" rfl)
  have hworks := hfirst.step (.begin (i := 0) rfl rfl)
  have hsecond := hworks.step (.start (i := 1) "b" (lines_turn_of_ne Nat.one_ne_zero _))
  exact hsecond.step (.begin (i := 1) rfl rfl)

theorem reachable_orderly_overlapping : overlapping.Reachable ∧ Orderly overlapping ∧
    (overlapping.lines 0).any (·.hasSession) = true ∧
    ∃ f s, overlapping.lines 1 = some f ∧ f.rest = some (refusal s) := by
  have horderly := reachable_orderly reachable_overlapping
  refine ⟨reachable_overlapping, horderly, by decide +kernel, ?_⟩
  have hbegun : (overlapping.lines 1).any (fun f => !f.hasLine && f.rest.isSome) = true := by
    decide +kernel
  obtain ⟨f, hf, hfresh⟩ := (Option.any_eq_true _ _).1 hbegun
  obtain ⟨hline, hrest⟩ := Bool.and_eq_true_iff.1 hfresh
  obtain ⟨t, ht⟩ := Option.isSome_iff_exists.1 hrest
  obtain ⟨s, rfl⟩ := horderly.refused 1 f t hf (Bool.not_eq_true' _ ▸ hline) ht
  exact ⟨f, s, hf, ht⟩

end Crowd

end GuestShell.Shell
