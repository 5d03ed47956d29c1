import GuestShell.Proofs.FileTree.Places
import GuestShell.Proofs.Text.Pieces

/-!
# Step by step or at once

Every text names a place, and the canonical text of that place is the normal form of the text: one
slash, or names with a slash before each (`IsCanonical`).  Nothing else is a normal form, and a normal
form is its own (`text_ofText_eq_iff`).

Following a text is a fold over its pieces, and the pieces of two texts with a slash between them are
those of the one and then those of the other.  So it is one walk, whether a text is followed all at
once or its beginning first (`walk_walk`); that `..` stays at the root, where there is nothing above,
is no matter, because the walk goes through the same places either way.
-/

namespace GuestShell.Path

variable {s : String}

/-! ## Normal forms -/

/-- One slash, or names with a slash before each. -/
def IsCanonical (s : String) : Prop :=
  s = "/" ∨ ∃ names : List String, names ≠ [] ∧ (∀ name ∈ names, IsName name) ∧
    s = String.join (names.map ("/" ++ ·))

lemma toList_join_slashed (names : List String) :
    (String.join (names.map ("/" ++ ·))).toList = slashed names := by
  induction names with
  | nil => rfl
  | cons name names ih =>
    rw [List.map_cons, String.join_cons, String.toList_append, ih, String.toList_append]
    rfl

/-- The text of a place that is not adrift has nothing but its names. -/
lemma text_eq_join {p : Path} (hp : p.adrift = false) :
    p.text = if p.parts = [] then "/" else String.join (p.parts.map ("/" ++ ·)) := by
  rw [text, lead, hp]
  congr 1
  apply String.toList_inj.1
  rw [toList_join_slashed, String.toList_ofList]
  rfl

lemma isCanonical_text {p : Path} (hp : p.adrift = false) : IsCanonical p.text := by
  rw [text_eq_join hp]
  split_ifs with hroot
  · exact .inl rfl
  · exact .inr ⟨p.parts, hroot, p.proper, rfl⟩

lemma IsCanonical.exists_path (h : IsCanonical s) : ∃ p : Path, p.adrift = false ∧ p.text = s := by
  rcases h with rfl | ⟨names, hne, hnames, rfl⟩
  · exact ⟨root, rfl, rfl⟩
  · refine ⟨ofParts names hnames false, rfl, ?_⟩
    rw [text_eq_join rfl]
    exact if_neg hne

/-- **Normal forms are what is its own normal form.** -/
theorem text_ofText_eq_iff : (ofText s).text = s ↔ IsCanonical s := by
  constructor
  · intro h
    exact h ▸ isCanonical_text (adrift_ofText s)
  · intro h
    obtain ⟨p, hp, rfl⟩ := h.exists_path
    rw [ofText_text, anchored_eq_self hp]

/-! ## Walks -/

lemma adrift_walk (base : Path) (cs : List Char) : (base.walk cs).adrift = false := rfl

lemma parts_walk (base : Path) (cs : List Char) :
    (base.walk cs).parts = ((Text.splitOn isSlash cs).foldl follow base.parts.reverse).reverse :=
  rfl

/-- **One walk after another is one walk.** -/
theorem walk_walk (base : Path) (xs ys : List Char) :
    (base.walk xs).walk ys = base.walk (xs ++ '/' :: ys) := by
  refine ext_parts rfl rfl ?_
  rw [parts_walk, parts_walk, parts_walk, List.reverse_reverse,
    Text.splitOn_append_cons (show isSlash '/' = true from rfl), List.foldl_append]

lemma toList_slash_append (s t : String) : (s ++ "/" ++ t).toList = s.toList ++ '/' :: t.toList := by
  rw [String.toList_append, String.toList_append, List.append_assoc]
  rfl

lemma resolve_of_absolute (base : Path) (h : s.toList.head? = some '/') :
    base.resolve s = ofText s :=
  if_pos h

lemma resolve_of_relative (base : Path) (h : s.toList.head? ≠ some '/') :
    base.resolve s = base.walk s.toList :=
  if_neg h

lemma adrift_resolve (base : Path) (s : String) : (base.resolve s).adrift = false := by
  by_cases h : s.toList.head? = some '/'
  · rw [resolve_of_absolute base h, adrift_ofText]
  · rw [resolve_of_relative base h, adrift_walk]

/-- A text that does not begin at the root is the end of a longer one. -/
lemma ofText_resolve (b : String) {p : String} (h : p.toList.head? ≠ some '/') :
    (ofText b).resolve p = ofText (b ++ "/" ++ p) := by
  rw [resolve_of_relative _ h, ofText, walk_walk, ← toList_slash_append]
  rfl

/-- A text is resolved step by step or at once. -/
theorem resolve_resolve (base : Path) {p q : String} (hp : p ≠ "") (hq : q.toList.head? ≠ some '/') :
    (base.resolve p).resolve q = base.resolve (p ++ "/" ++ q) := by
  -- what comes behind `p` does not change where the text begins
  have hhead : (p ++ "/" ++ q).toList.head? = p.toList.head? := by
    rw [toList_slash_append, List.head?_append_of_ne_nil _ (String.toList_eq_nil_iff.not.2 hp)]
  rw [resolve_of_relative _ hq]
  by_cases h : p.toList.head? = some '/'
  · rw [resolve_of_absolute _ h, resolve_of_absolute _ (hhead.trans h), ofText, walk_walk,
      ← toList_slash_append]
    rfl
  · rw [resolve_of_relative _ h, resolve_of_relative _ (hhead.symm ▸ h), walk_walk,
      ← toList_slash_append]

/-! ## Texts -/

/-- The normal form of a text, seen from the place that another text names. -/
def joined (b p : String) : String := ((ofText b).resolve p).text

lemma joined_eq (b p : String) :
    joined b p = (ofText (if p.toList.head? = some '/' then p else b ++ "/" ++ p)).text := by
  rw [joined]
  split_ifs with h
  · rw [resolve_of_absolute _ h]
  · rw [ofText_resolve b h]

lemma ofText_joined (b p : String) : ofText (joined b p) = (ofText b).resolve p := by
  rw [joined, ofText_text, anchored_eq_self (adrift_resolve _ _)]

/-- **Normal forms are canonical, and joining texts is compositional.**  A normal form is one slash or
names with a slash before each; these texts and no others are their own normal forms.  Two texts are
joined by a slash, unless the second begins with one itself.  And from any place, it is the same to
follow one text and then another that does not begin at the root, or both as one text. -/
theorem joined_step_by_step :
    (∀ s, IsCanonical (ofText s).text ∧ (ofText (ofText s).text).text = (ofText s).text) ∧
    (∀ s, (ofText s).text = s ↔ IsCanonical s) ∧
    (∀ b p, joined b p = (ofText (if p.toList.head? = some '/' then p else b ++ "/" ++ p)).text) ∧
    ∀ b p q, p ≠ "" → q.toList.head? ≠ some '/' →
      joined (joined b p) q = joined b (p ++ "/" ++ q) ∧
        ((ofText b).resolve p).resolve q = (ofText b).resolve (p ++ "/" ++ q) := by
  have hcanonical (s : String) : IsCanonical (ofText s).text := isCanonical_text (adrift_ofText s)
  refine ⟨fun s => ⟨hcanonical s, text_ofText_eq_iff.2 (hcanonical s)⟩, fun s => text_ofText_eq_iff,
    joined_eq, fun b p q hp hq => ?_⟩
  have hplace := resolve_resolve (ofText b) hp hq
  refine ⟨?_, hplace⟩
  rw [joined, ofText_joined, hplace, joined]

/-- More steps up than there are, in the first text and in the second. -/
theorem joined_step_by_step_above_root :
    "../..//../." ≠ "" ∧ "../tmp/./x/".toList.head? ≠ some '/' ∧
      joined (joined "/home/" "../..//../.") "../tmp/./x/" = "/tmp/x" ∧
      joined "/home/" "../..//.././/../tmp/./x/" = "/tmp/x" := by
  have hp : "../..//../." ≠ "" := by decide
  have hq : "../tmp/./x/".toList.head? ≠ some '/' := by decide
  have hsteps := (joined_step_by_step.2.2.2 "/home/" _ _ hp hq).1
  have honce : joined "/home/" ("../..//../." ++ "/" ++ "../tmp/./x/") = "/tmp/x" := by decide
  exact ⟨hp, hq, hsteps.trans honce, honce⟩

end GuestShell.Path
