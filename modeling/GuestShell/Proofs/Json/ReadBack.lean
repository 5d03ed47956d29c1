import GuestShell.Proofs.Json.Leaves

/-!
# What is printed is read back

The compact form keeps a value, if all its numbers are integers of 64 bits and nothing in it is
flawed (`isPlain`): reading it gives the value (`ofString?_print`).  A value ends where its text ends,
because a comma, a bracket or a brace follows.  The induction is on the fuel (`ReadsBack`), of which
there is enough because every step takes a character.
-/

namespace GuestShell.Json

/-- Whether the compact form keeps the value. -/
def isPlain : Json → Bool
  | .int n => decide (IsWord n)
  | .real | .flawed => false
  | .arr items => plainItems items
  | .obj members => plainMembers members
  | .null | .bool _ | .str _ => true
where
  plainItems : List Json → Bool
    | [] => true
    | j :: js => isPlain j && plainItems js
  plainMembers : List (String × Json) → Bool
    | [] => true
    | (_, j) :: js => isPlain j && plainMembers js

mutual

/-- Nothing in a plain value is flawed. -/
lemma isSound_of_isPlain : ∀ v : Json, v.isPlain = true → v.isSound = true
  | .arr js, h => soundItems_of_plainItems js h
  | .obj ms, h => soundMembers_of_plainMembers ms h
  | .null, _ => rfl
  | .bool _, _ => rfl
  | .int _, _ => rfl
  | .str _, _ => rfl

lemma soundItems_of_plainItems :
    ∀ js : List Json, isPlain.plainItems js = true → isSound.soundItems js = true
  | [], _ => rfl
  | j :: js, h => by
    obtain ⟨hj, hjs⟩ := Bool.and_eq_true_iff.1 h
    exact Bool.and_eq_true_iff.2 ⟨isSound_of_isPlain j hj, soundItems_of_plainItems js hjs⟩

lemma soundMembers_of_plainMembers :
    ∀ ms : List (String × Json), isPlain.plainMembers ms = true → isSound.soundMembers ms = true
  | [], _ => rfl
  | (_, j) :: ms, h => by
    obtain ⟨hj, hms⟩ := Bool.and_eq_true_iff.1 h
    exact Bool.and_eq_true_iff.2 ⟨isSound_of_isPlain j hj, soundMembers_of_plainMembers ms hms⟩

end

/-! ## Where a value begins -/

lemma exists_toString (n : Int) :
    ∃ c cs, (toString n).toList = c :: cs ∧ (c.isDigit = true ∨ c = '-') := by
  cases n with
  | ofNat n =>
    have htext : (toString (Int.ofNat n)).toList = Nat.toDigits 10 n := Nat.toList_repr
    rw [htext]
    cases hdigits : Nat.toDigits 10 n with
    | nil => exact absurd hdigits Nat.toDigits_ne_nil
    | cons d ds => exact ⟨d, ds, rfl, .inl (isDigit_of_mem (hdigits ▸ List.mem_cons_self))⟩
  | negSucc n =>
    exact ⟨'-', (Nat.repr (n + 1)).toList, String.toList_append, .inr rfl⟩

lemma isBlank_number {c : Char} (hc : c.isDigit = true ∨ c = '-') : isBlank c = false := by
  cases hblank : isBlank c with
  | false => rfl
  | true =>
    simp only [isBlank, Bool.or_eq_true, decide_eq_true_eq] at hblank
    rcases hblank with ((rfl | rfl) | rfl) | rfl <;> exact absurd hc (by decide)

/-- A value begins with a character that is neither a blank nor a closing bracket. -/
lemma exists_chars (v : Json) : ∃ c cs, chars v = c :: cs ∧ isBlank c = false ∧ c ≠ ']' := by
  cases v with
  | null => exact ⟨'n', _, rfl, by decide, by decide⟩
  | bool b =>
    cases b with
    | true => exact ⟨'t', _, rfl, by decide, by decide⟩
    | false => exact ⟨'f', _, rfl, by decide, by decide⟩
  | int n =>
    obtain ⟨c, cs, hcs, hc⟩ := exists_toString n
    refine ⟨c, cs, hcs, isBlank_number hc, ?_⟩
    rintro rfl
    exact absurd hc (by decide)
  | real => exact ⟨'0', _, rfl, by decide, by decide⟩
  | str s => exact ⟨'"', _, rfl, by decide, by decide⟩
  | arr items => exact ⟨'[', _, rfl, by decide, by decide⟩
  | obj members => exact ⟨'\x7b', _, rfl, by decide, by decide⟩
  | flawed => exact ⟨'n', _, rfl, by decide, by decide⟩

lemma skipBlanks_cons {c : Char} (hc : isBlank c = false) (rest : Units) :
    skipBlanks (some c :: rest) = some c :: rest := by
  rw [skipBlanks, hc]
  rfl

lemma value?_number {c : Char} (hc : c.isDigit = true ∨ c = '-') (fuel : Nat) (rest : Units) :
    value? (fuel + 1) (some c :: rest) = number? (some c :: rest) := by
  rw [value?, skipBlanks_cons (isBlank_number hc)]
  split
  all_goals first
    | rfl
    | (rename_i heq
       obtain rfl := Option.some.inj (List.cons.inj heq).1
       exact absurd hc (by decide))

/-! ## The parts of arrays and objects -/

lemma follows_cons {c : Char} (h : c = ',' ∨ c = ']' ∨ c = '\x7d') (rest : Units) :
    Follows (some c :: rest) := by
  intro u hu
  obtain rfl := Option.some.inj hu
  simpa using h

/-- The first item has no comma before it, further items have one. -/
lemma itemChars_cons (j : Json) (js : List Json) : chars.itemChars true (j :: js) =
    chars j ++ chars.itemChars false js ∧
      chars.itemChars false (j :: js) = ',' :: chars.itemChars true (j :: js) :=
  ⟨rfl, rfl⟩

lemma memberChars_cons (k : String) (j : Json) (ms : List (String × Json)) :
    chars.memberChars true ((k, j) :: ms) =
        quote k ++ [':'] ++ chars j ++ chars.memberChars false ms ∧
      chars.memberChars false ((k, j) :: ms) = ',' :: chars.memberChars true ((k, j) :: ms) :=
  ⟨rfl, rfl⟩

lemma map_quote (s : String) (rest : Units) : (quote s).map some ++ rest =
    some '"' :: ((s.toList.flatMap escapeChar).map some ++ some '"' :: rest) := by
  simp [quote]

/-- An array that does not end at once has items. -/
lemma value?_bracket {c : Char} (hblank : isBlank c = false) (hc : c ≠ ']') (fuel : Nat)
    (rest : Units) : value? (fuel + 1) (some '[' :: some c :: rest) =
      (items? fuel [] (some c :: rest)).map fun r => (.arr r.1, r.2) := by
  rw [value?, skipBlanks_cons (by decide)]
  simp only [skipBlanks_cons hblank]
  split
  · rename_i heq
    exact absurd (Option.some.inj (List.cons.inj heq).1) hc
  · rfl

/-- An item, and the rest of the array after a comma or a bracket. -/
lemma items?_succ {fuel : Nat} {text rest : Units} {j : Json}
    (h : value? fuel text = some (j, rest)) (read : List Json) : items? (fuel + 1) read text =
      match skipBlanks rest with
      | some ',' :: rest => items? fuel (j :: read) rest
      | some ']' :: rest => some ((j :: read).reverse, rest)
      | _ => none := by
  rw [items?, h]
  rfl

/-- A member, and the rest of the object after a comma or a brace. -/
lemma members?_succ {fuel : Nat} {text rest : Units} {j : Json}
    (h : value? fuel text = some (j, rest)) (k : String) (read : List (String × Json)) :
    members? (fuel + 1) true read ((quote k).map some ++ some ':' :: text) =
      match skipBlanks rest with
      | some ',' :: rest => members? fuel true ((k, j) :: read) rest
      | some '\x7d' :: rest => some (.obj ((k, j) :: read).reverse, rest)
      | _ => none := by
  rw [map_quote, members?, skipBlanks_cons (by decide)]
  simp only [string?_quote, Option.bind_eq_bind, Option.bind_some,
    skipBlanks_cons (show isBlank ':' = false by decide), h]
  rfl

/-! ## Values -/

/-- What is printed is read back with so much fuel, if that is as much as there are characters. -/
structure ReadsBack (fuel : Nat) : Prop where
  value : ∀ v rest, v.isPlain = true → (chars v).length ≤ fuel → Follows rest →
    value? fuel ((chars v).map some ++ rest) = some (v, rest)
  items : ∀ j js read rest, isPlain.plainItems (j :: js) = true →
    (chars.itemChars true (j :: js)).length < fuel →
    items? fuel read ((chars.itemChars true (j :: js)).map some ++ some ']' :: rest) =
      some (read.reverse ++ j :: js, rest)
  members : ∀ k j ms read rest, isPlain.plainMembers ((k, j) :: ms) = true →
    (chars.memberChars true ((k, j) :: ms)).length < fuel →
    members? fuel true read
        ((chars.memberChars true ((k, j) :: ms)).map some ++ some '\x7d' :: rest) =
      some (.obj (read.reverse ++ (k, j) :: ms), rest)

variable {fuel : Nat}

lemma ReadsBack.value_succ (ih : ReadsBack fuel) {v : Json} {rest : Units} (hv : v.isPlain = true)
    (hfuel : (chars v).length ≤ fuel + 1) (hrest : Follows rest) :
    value? (fuel + 1) ((chars v).map some ++ rest) = some (v, rest) := by
  cases v with
  | null => rfl
  | bool b => cases b <;> rfl
  | int n =>
    obtain ⟨c, cs, hcs, hc⟩ := exists_toString n
    have hnumber := number?_toString (of_decide_eq_true hv) hrest
    rw [chars, hcs, List.map_cons, List.cons_append, value?_number hc]
    rwa [hcs] at hnumber
  | real => cases hv
  | flawed => cases hv
  | str s =>
    rw [chars, map_quote]
    show (string? _).map _ = _
    rw [string?_quote]
    rfl
  | arr js =>
    cases js with
    | nil => rfl
    | cons j js =>
      obtain ⟨c, cs, hcs, hblank, hc⟩ := exists_chars j
      have hitems := ih.items j js [] rest hv (by
        simp only [chars, List.cons_append, List.length_cons, List.length_append] at hfuel
        omega)
      rw [(itemChars_cons j js).1, hcs] at hitems
      rw [chars, (itemChars_cons j js).1, hcs]
      simp only [List.cons_append, List.map_cons, List.append_assoc, List.map_append, List.map_nil,
        List.nil_append] at hitems ⊢
      rw [value?_bracket hblank hc, hitems]
      rfl
  | obj ms =>
    cases ms with
    | nil => rfl
    | cons m ms =>
      obtain ⟨k, j⟩ := m
      have hmembers := ih.members k j ms [] rest hv (by
        simp only [chars, List.cons_append, List.length_cons, List.length_append] at hfuel
        omega)
      rw [(memberChars_cons k j ms).1, quote] at hmembers
      rw [chars, (memberChars_cons k j ms).1, quote]
      simp only [List.cons_append, List.map_cons, List.append_assoc, List.map_append, List.map_nil,
        List.nil_append] at hmembers ⊢
      exact hmembers

lemma ReadsBack.items_succ (ih : ReadsBack fuel) {j : Json} {js read : List Json} {rest : Units}
    (hjs : isPlain.plainItems (j :: js) = true)
    (hfuel : (chars.itemChars true (j :: js)).length < fuel + 1) :
    items? (fuel + 1) read ((chars.itemChars true (j :: js)).map some ++ some ']' :: rest) =
      some (read.reverse ++ j :: js, rest) := by
  obtain ⟨hj, hjs⟩ := Bool.and_eq_true_iff.1 hjs
  rw [(itemChars_cons j js).1, List.length_append] at hfuel
  rw [(itemChars_cons j js).1, List.map_append, List.append_assoc]
  cases js with
  | nil =>
    have hlast := ih.value j _ hj (by omega) (follows_cons (.inr (.inl rfl)) rest)
    rw [chars.itemChars, List.map_nil, List.nil_append, items?_succ hlast,
      skipBlanks_cons (by decide)]
    simp
  | cons k ks =>
    rw [(itemChars_cons k ks).2, List.length_cons] at hfuel
    rw [(itemChars_cons k ks).2, List.map_cons, List.cons_append,
      items?_succ (ih.value j _ hj (by omega) (follows_cons (.inl rfl) _)),
      skipBlanks_cons (by decide)]
    simp only
    rw [ih.items k ks (j :: read) rest hjs (by omega)]
    simp

lemma ReadsBack.members_succ (ih : ReadsBack fuel) {k : String} {j : Json}
    {ms read : List (String × Json)} {rest : Units}
    (hms : isPlain.plainMembers ((k, j) :: ms) = true)
    (hfuel : (chars.memberChars true ((k, j) :: ms)).length < fuel + 1) :
    members? (fuel + 1) true read
        ((chars.memberChars true ((k, j) :: ms)).map some ++ some '\x7d' :: rest) =
      some (.obj (read.reverse ++ (k, j) :: ms), rest) := by
  obtain ⟨hj, hms⟩ := Bool.and_eq_true_iff.1 hms
  rw [(memberChars_cons k j ms).1, List.length_append, List.length_append] at hfuel
  rw [(memberChars_cons k j ms).1, List.map_append, List.map_append, List.map_append]
  simp only [List.append_assoc, List.map_cons, List.map_nil, List.cons_append, List.nil_append]
  cases ms with
  | nil =>
    have hlast := ih.value j _ hj (by omega) (follows_cons (.inr (.inr rfl)) rest)
    rw [chars.memberChars, List.map_nil, List.nil_append, members?_succ hlast,
      skipBlanks_cons (by decide)]
    simp
  | cons m ms =>
    obtain ⟨k', j'⟩ := m
    rw [(memberChars_cons k' j' ms).2, List.length_cons] at hfuel
    rw [(memberChars_cons k' j' ms).2, List.map_cons, List.cons_append,
      members?_succ (ih.value j _ hj (by omega) (follows_cons (.inl rfl) _)),
      skipBlanks_cons (by decide)]
    simp only
    rw [ih.members k' j' ms ((k, j) :: read) rest hms (by omega)]
    simp

theorem readsBack (fuel : Nat) : ReadsBack fuel := by
  induction fuel with
  | zero =>
    refine ⟨fun v rest _ h => ?_, nofun, nofun⟩
    obtain ⟨c, cs, hcs, -⟩ := exists_chars v
    rw [hcs] at h
    exact absurd h (Nat.not_succ_le_zero _)
  | succ fuel ih =>
    exact ⟨fun _ _ => ih.value_succ, fun _ _ _ _ => ih.items_succ,
      fun _ _ _ _ _ => ih.members_succ⟩

/-- **What is printed is read back.** -/
theorem ofString?_print {v : Json} (hv : v.isPlain = true) : ofString? v.print = some v := by
  have hread := (readsBack (((chars v).map some).length + 1)).value v [] hv (by simp) follows_nil
  rw [List.append_nil] at hread
  rw [ofString?, print, String.toList_ofList, ofUnits?, hread]
  rfl

end GuestShell.Json
