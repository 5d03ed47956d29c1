import GuestShell.Proofs.FileTree.Places

/-!
# Places by their texts

Inside the tree a place is a list of names; whoever uses the tree goes by texts.  What lies below a
place is told by the beginning of its text, but not by the text of the place alone: `/ab` begins as
`/a` does and is no part of it.  It takes the slash after the name as well (`inside`), and then texts
and names say the same (`under_iff_covers`).

What moves along with a place keeps the rest of its text behind the text of the target
(`corresponds_iff`).  What lies in a directory has one name more (`isChild_iff`), which leads there
from the directory (`IsChild.resolve_eq`), and the names stand in the order of the texts
(`IsChild.text_lt_iff`).
-/

namespace GuestShell.Path

variable {p q source target : Path}

/-- What the text of everything below a place begins with. -/
def inside (p : Path) : String := if p = root then "/" else p.text ++ "/"

/-- `q` is at `p` or below it, told by their texts. -/
def Under (p q : Path) : Prop := q.text = p.text ∨ ∃ rest, q.text = p.inside ++ rest

/-- The text of `q` has after that of `target` what the text of `p` has after that of `source`. -/
def Corresponds (source target p q : Path) : Prop :=
  ∃ rest, p.text = source.text ++ rest ∧ q.text = target.text ++ rest

/-! ## Texts, slash by slash -/

lemma slash_not_mem {s : String} (h : s ∈ p.parts) : '/' ∉ s.toList := (p.proper s h).2.2.2

lemma slashed_append (xs ys : List String) : slashed (xs ++ ys) = slashed xs ++ slashed ys :=
  List.flatMap_append

lemma slashed_cons (x : String) (xs : List String) :
    slashed (x :: xs) = '/' :: (x.toList ++ slashed xs) := rfl

lemma toList_text (h : p ≠ root) : p.text.toList = p.lead ++ slashed p.parts := by
  rw [text, if_neg (eq_root_iff.not.1 h), String.toList_ofList]

lemma toList_text_of_anchored (h : p ≠ root) (hp : p.adrift = false) :
    p.text.toList = slashed p.parts := by
  simp [toList_text h, lead, hp]

lemma toList_inside (hp : p.adrift = false) : p.inside.toList = slashed p.parts ++ ['/'] := by
  rw [inside]
  split_ifs with h
  · subst h
    rfl
  · rw [String.toList_append, toList_text_of_anchored h hp]
    rfl

/-- A slash ends a word.  So a word and a slash begin another word and what follows it only if the
words are the same. -/
lemma word_prefix_iff {u v a : List Char} {ys : List String} (hu : '/' ∉ u) (hv : '/' ∉ v) :
    u ++ '/' :: a <+: v ++ slashed ys ↔ u = v ∧ '/' :: a <+: slashed ys := by
  induction u generalizing v with
  | nil =>
    cases v with
    | nil => simp
    | cons c v =>
      have hc : '/' ≠ c := fun h => hv (h ▸ List.mem_cons_self)
      simp [List.cons_prefix_cons, hc]
  | cons c u ih =>
    have hc : c ≠ '/' := fun h => hu (h ▸ List.mem_cons_self)
    cases v with
    | nil =>
      cases ys with
      | nil => simp [slashed]
      | cons y ys => simp [slashed_cons, List.cons_prefix_cons, hc]
    | cons d v =>
      rw [List.cons_append, List.cons_append, List.cons_prefix_cons, List.cons.injEq, and_assoc,
        ih (fun h => hu (List.mem_cons_of_mem c h)) fun h => hv (List.mem_cons_of_mem d h)]

/-- Names with a slash after the last begin other names only if the first are the first of the
others, and some are left. -/
lemma slashed_slash_prefix_iff {xs ys : List String} (hx : ∀ s ∈ xs, '/' ∉ s.toList)
    (hy : ∀ s ∈ ys, '/' ∉ s.toList) :
    slashed xs ++ ['/'] <+: slashed ys ↔ xs <+: ys ∧ xs ≠ ys := by
  induction xs generalizing ys with
  | nil =>
    cases ys with
    | nil => simp [slashed]
    | cons y ys => simp [slashed, List.cons_prefix_cons]
  | cons x xs ih =>
    -- whatever is left of the names begins with a slash
    obtain ⟨a, ha⟩ : ∃ a, slashed xs ++ ['/'] = '/' :: a := by
      cases xs with
      | nil => exact ⟨[], rfl⟩
      | cons x' xs => exact ⟨x'.toList ++ slashed xs ++ ['/'], rfl⟩
    cases ys with
    | nil => simp [slashed]
    | cons y ys =>
      rw [slashed_cons, slashed_cons, List.cons_append, List.cons_prefix_cons, List.append_assoc, ha,
        word_prefix_iff (hx x List.mem_cons_self) (hy y List.mem_cons_self), ← ha,
        ih (fun s hs => hx s (List.mem_cons_of_mem x hs)) fun s hs => hy s (List.mem_cons_of_mem y hs),
        String.toList_inj, List.cons_prefix_cons]
      simp only [ne_eq, List.cons.injEq, true_and]
      tauto

lemma names_proper (p : Path) : ∀ s ∈ p.parts, s.toList ≠ [] ∧ '/' ∉ s.toList :=
  fun s hs => ⟨(p.proper s hs).1, slash_not_mem hs⟩

/-- Names begin with one slash only. -/
lemma exists_slashed_eq {xs : List String} (hx : ∀ s ∈ xs, s.toList ≠ [] ∧ '/' ∉ s.toList)
    (hne : xs ≠ []) : ∃ c cs, c ≠ '/' ∧ slashed xs = '/' :: c :: cs := by
  obtain ⟨x, xs, rfl⟩ := List.exists_cons_of_ne_nil hne
  obtain ⟨hnil, hslash⟩ := hx x List.mem_cons_self
  obtain ⟨c, cs, hcs⟩ := List.exists_cons_of_ne_nil hnil
  refine ⟨c, cs ++ slashed xs, ?_, by rw [slashed_cons, hcs, List.cons_append]⟩
  rintro rfl
  simp [hcs] at hslash

/-- What is adrift has a text with two slashes first. -/
lemma exists_toList_text_of_adrift (h : p.adrift = true) :
    ∃ cs, p.text.toList = '/' :: '/' :: cs := by
  have hroot : p ≠ root := by
    rintro rfl
    cases h
  obtain ⟨c, cs, -, hcs⟩ := exists_slashed_eq (names_proper p) (eq_root_iff.not.1 hroot)
  exact ⟨c :: cs, by simp [toList_text hroot, lead, h, hcs]⟩

lemma exists_text_eq (p : Path) : ∃ rest, p.text = "/" ++ rest := by
  by_cases h : p = root
  · exact ⟨"", by rw [h]; rfl⟩
  · obtain ⟨c, cs, -, hcs⟩ := exists_slashed_eq (names_proper p) (eq_root_iff.not.1 h)
    obtain ⟨a, ha⟩ : ∃ a, p.lead ++ slashed p.parts = '/' :: a := by
      rw [lead]
      split_ifs
      · exact ⟨_, rfl⟩
      · exact ⟨_, hcs⟩
    refine ⟨String.ofList a, String.toList_inj.1 ?_⟩
    simp [toList_text h, ha]

/-! ## At a place or below it -/

/-- The text of what lies below a place begins with the text of the place and a slash. -/
lemma isAbove_iff_exists_text (hp : p.adrift = false) (hroot : p ≠ root) :
    p.isAbove q = true ↔ ∃ rest, q.text = p.inside ++ rest := by
  have hbegins : (∃ rest, q.text = p.inside ++ rest) ↔ slashed p.parts ++ ['/'] <+: q.text.toList := by
    rw [← toList_inside hp]
    constructor
    · rintro ⟨rest, h⟩
      exact ⟨rest.toList, by rw [h, String.toList_append]⟩
    · rintro ⟨rest, h⟩
      exact ⟨String.ofList rest, String.toList_inj.1 (by simp [← h])⟩
  obtain ⟨c, cs, hc, hcs⟩ := exists_slashed_eq (names_proper p) (eq_root_iff.not.1 hroot)
  rw [hbegins]
  by_cases hq : q = root
  · subst hq
    have habove : p.isAbove root = false := by simp [isAbove]
    simp [habove, hcs, show root.text.toList = ['/'] from rfl]
  · cases hadrift : q.adrift with
    | false =>
      rw [isAbove_iff hp hadrift, toList_text_of_anchored hq hadrift,
        slashed_slash_prefix_iff (fun s => slash_not_mem) fun s => slash_not_mem]
      exact and_congr_right fun _ => not_congr
        ⟨fun h => h ▸ rfl, fun h => ext_parts hp hadrift h⟩
    | true =>
      obtain ⟨ds, hds⟩ := exists_toList_text_of_adrift hadrift
      have habove : p.isAbove q = false := by simp [isAbove, hroot, hp, hadrift]
      simp [habove, hcs, hds, List.cons_prefix_cons, hc]

/-- **What a place covers, told by texts.** -/
theorem under_iff_covers (hp : p.adrift = false) : Under p q ↔ FileTree.covers p q = true := by
  rw [Under, FileTree.covers_iff_eq_or_isAbove]
  by_cases hroot : p = root
  · subst hroot
    have hall : root = q ∨ root.isAbove q = true := by
      rw [root_isAbove_iff]
      by_cases hq : q = root
      · exact .inl hq.symm
      · exact .inr hq
    exact iff_of_true (.inr (exists_text_eq q)) hall
  · rw [isAbove_iff_exists_text hp hroot]
    exact or_congr_left ⟨fun h => (text_injective h).symm, fun h => h ▸ rfl⟩

/-- **What moves along with `source` has, after the text of the target, the rest of its own text.** -/
theorem corresponds_iff (hs : source.adrift = false) (hsroot : source ≠ root)
    (ht : target.adrift = false) (htroot : target ≠ root) (h : FileTree.covers source p = true) :
    Corresponds source target p q ↔ q = moved source target p := by
  have hp := FileTree.adrift_of_covers hs hsroot h
  obtain ⟨rest, hrest⟩ := (FileTree.covers_iff hs hp).1 h
  have hproot : p ≠ root := by
    rintro rfl
    exact hsroot (FileTree.eq_root_of_covers_root hs h)
  have hmparts : (moved source target p).parts = target.parts ++ rest := by
    rw [parts_moved, ← hrest, List.drop_left]
  have hmroot : moved source target p ≠ root := by
    rw [Ne, eq_root_iff, hmparts, List.append_eq_nil_iff]
    exact fun hnil => htroot (eq_root_iff.2 hnil.1)
  have hsource : p.text = source.text ++ String.ofList (slashed rest) := by
    apply String.toList_inj.1
    rw [String.toList_append, String.toList_ofList, toList_text_of_anchored hproot hp,
      toList_text_of_anchored hsroot hs, ← hrest, slashed_append]
  have hmoved : (moved source target p).text = target.text ++ String.ofList (slashed rest) := by
    apply String.toList_inj.1
    rw [String.toList_append, String.toList_ofList,
      toList_text_of_anchored hmroot (adrift_moved ht htroot), toList_text_of_anchored htroot ht,
      hmparts, slashed_append]
  constructor
  · rintro ⟨rest', hp', hq'⟩
    have heq : String.ofList (slashed rest) = rest' := by
      have := hsource.symm.trans hp'
      rw [← String.toList_inj, String.toList_append, String.toList_append] at this
      exact String.toList_inj.1 (List.append_cancel_left this)
    exact text_injective (hq'.trans (heq ▸ hmoved.symm))
  · rintro rfl
    exact ⟨_, hsource, hmoved⟩

/-! ## In a directory -/

/-- `q` lies in the directory `p` under a name, told by their texts. -/
structure IsChild (p q : Path) (name : String) : Prop where
  text_eq : q.text = p.inside ++ name
  ne_empty : name ≠ ""
  no_slash : '/' ∉ name.toList

/-- Texts of which one has a slash in front of every name are the same only if the names are. -/
lemma slashed_injective {xs ys : List String} (hx : ∀ s ∈ xs, '/' ∉ s.toList)
    (hy : ∀ s ∈ ys, '/' ∉ s.toList) (h : slashed xs = slashed ys) : xs = ys := by
  have hsplit := splitOn_append_slashed [] xs (by simp) hx
  rw [h, splitOn_append_slashed [] ys (by simp) hy, List.cons.injEq] at hsplit
  exact (List.map_injective_iff.2 (fun _ _ => String.toList_injective) hsplit.2).symm

/-- **A child has the names of its directory and one more.** -/
theorem isChild_iff (hp : p.adrift = false) {name : String} :
    IsChild p q name ↔ q.adrift = false ∧ q.parts = p.parts ++ [name] := by
  have hslashed : slashed (p.parts ++ [name]) = p.inside.toList ++ name.toList := by
    simp [toList_inside hp, slashed]
  constructor
  · rintro ⟨htext, hne, hslash⟩
    have htext : q.text.toList = slashed (p.parts ++ [name]) := by
      rw [htext, String.toList_append, hslashed]
    have hnames : ∀ s ∈ p.parts ++ [name], s.toList ≠ [] ∧ '/' ∉ s.toList := by
      intro s hs
      rcases List.mem_append.1 hs with hs | hs
      · exact names_proper p s hs
      · obtain rfl := List.mem_singleton.1 hs
        exact ⟨by simpa using hne, hslash⟩
    obtain ⟨c, cs, hc, hcs⟩ := exists_slashed_eq hnames (by simp)
    have hqroot : q ≠ root := by
      rintro rfl
      simp [hcs, show root.text.toList = ['/'] from rfl] at htext
    have hadrift : q.adrift = false := by
      rw [Bool.eq_false_iff]
      intro hadrift
      obtain ⟨ds, hds⟩ := exists_toList_text_of_adrift hadrift
      rw [hds, hcs, List.cons.injEq, List.cons.injEq] at htext
      exact hc htext.2.1.symm
    rw [toList_text_of_anchored hqroot hadrift] at htext
    exact ⟨hadrift, slashed_injective (fun s => slash_not_mem) (fun s hs => (hnames s hs).2) htext⟩
  · rintro ⟨hq, hparts⟩
    have hroot : q ≠ root := by
      rw [Ne, eq_root_iff, hparts]
      simp
    have hname := q.proper name (by simp [hparts])
    refine ⟨String.toList_inj.1 ?_, ?_, hname.2.2.2⟩
    · rw [toList_text_of_anchored hroot hq, hparts, String.toList_append, hslashed]
    · rintro rfl
      exact hname.1 rfl

lemma isParentOf_iff (hp : p.adrift = false) {name : String} :
    p.isParentOf q = true ∧ q.name? = some name ↔ IsChild p q name := by
  rw [isChild_iff hp, isParentOf, name?, hp]
  simp only [Bool.and_eq_true, beq_iff_eq, List.isPrefixOf_iff_prefix]
  constructor
  · rintro ⟨⟨⟨hq, hbegins⟩, hlength⟩, hlast⟩
    obtain ⟨rest, hrest⟩ := hbegins
    rw [← hrest, List.length_append, Nat.add_left_cancel_iff, List.length_eq_one_iff] at hlength
    obtain ⟨s, rfl⟩ := hlength
    rw [← hrest, List.getLast?_concat] at hlast
    cases hlast
    exact ⟨hq.symm, hrest.symm⟩
  · rintro ⟨hq, hparts⟩
    rw [hparts]
    exact ⟨⟨⟨hq.symm, List.prefix_append _ _⟩, by simp⟩, by simp⟩

namespace IsChild

variable {name : String} (h : IsChild p q name)

include h

/-- The name of a child leads to it from the directory. -/
lemma resolve_eq (hp : p.adrift = false) : p.resolve name = q := by
  obtain ⟨hq, hparts⟩ := (isChild_iff hp).1 h
  have hname := q.proper name (by simp [hparts])
  have hhead : name.toList.head? ≠ some '/' := fun hhead => hname.2.2.2 (List.mem_of_head? hhead)
  have hsplit : Text.splitOn isSlash name.toList = [name].map String.toList := by
    have := splitOn_append_slashed name.toList [] hname.2.2.2 (by simp)
    simpa [slashed] using this
  rw [resolve, if_neg hhead]
  refine ext_parts (by simp [walk, ofParts]) hq ?_
  show ((Text.splitOn isSlash name.toList).foldl follow p.parts.reverse).reverse = q.parts
  rw [hsplit, foldl_follow_names _ _ (by simpa using hname), hparts]
  simp

lemma text_lt_iff {r : Path} {name' : String} (k : IsChild p r name') :
    q.text < r.text ↔ name < name' := by
  rw [h.text_eq, k.text_eq, String.lt_iff, String.lt_iff, String.toList_append,
    String.toList_append]
  induction p.inside.toList with
  | nil => rfl
  | cons c cs ih =>
    rw [List.cons_append, List.cons_append, List.cons_lt_cons_iff, ih]
    simp

end IsChild

end GuestShell.Path
