import GuestShell.Dict
import GuestShell.Text.Blank

/-!
# Paths

A path is the list of names that leads from the root to a place in the tree.  Every text names a
path: empty pieces and `.` are ignored and `..` goes up one step, staying at the root when there is
nothing above.  So a path has one canonical text, and `Path.ofText_text` reads it back.

What is below a directory that moves onto the root comes adrift: the tree still has it, but no text
names it any more.  Its own text begins with two slashes, and read back it names the place that has
the same names and is not adrift.

* `Path.ofText`: the path that a text names, seen from the root.
* `Path.resolve`: the same, seen from another path unless the text begins with a slash.
* `Path.text`: the canonical text; paths are ordered by it, because listings are.
-/

namespace GuestShell

/-- What can stand between two slashes of a canonical path. -/
def IsName (s : String) : Prop :=
  s.toList ≠ [] ∧ s.toList ≠ ['.'] ∧ s.toList ≠ ['.', '.'] ∧ '/' ∉ s.toList

instance (s : String) : Decidable (IsName s) := inferInstanceAs (Decidable (_ ∧ _ ∧ _ ∧ _))

/-- A place in a tree: the names on the way from the root, and whether it is adrift. -/
structure Path where
  parts : List String
  proper : ∀ s ∈ parts, IsName s
  adrift : Bool
  /-- The root is not adrift. -/
  anchored_root : parts = [] → adrift = false

namespace Path

@[ext] theorem ext {p q : Path} (h : p.parts = q.parts) (hd : p.adrift = q.adrift) : p = q := by
  cases p; cases q; cases h; cases hd; rfl

instance : DecidableEq Path := fun p q =>
  if h : p.parts = q.parts ∧ p.adrift = q.adrift then isTrue (ext h.1 h.2)
  else isFalse fun hpq => h (hpq ▸ ⟨rfl, rfl⟩)

/-- The place with the given names, adrift or not; without names it is the root. -/
def ofParts (parts : List String) (proper : ∀ s ∈ parts, IsName s) (adrift : Bool) : Path where
  parts := parts
  proper := proper
  adrift := adrift && !parts.isEmpty
  anchored_root h := by simp [h]

/-- The top of the tree. -/
def root : Path := ofParts [] (by simp) false

instance : Inhabited Path := ⟨root⟩

/-- The place of the same names that is not adrift. -/
def anchored (p : Path) : Path := ofParts p.parts p.proper false

/-- A place that is not adrift is its own anchored place. -/
theorem anchored_eq_self {p : Path} (h : p.adrift = false) : p.anchored = p :=
  ext rfl (by simp [anchored, ofParts, h])

/-! ## Reading -/

/-- Whether a character separates names. -/
def isSlash (c : Char) : Bool := c == '/'

/-- One piece of a text, followed from the place whose names are given last first. -/
def follow (stack : List String) (piece : List Char) : List String :=
  if piece = [] ∨ piece = ['.'] then stack
  else if piece = ['.', '.'] then stack.drop 1
  else String.ofList piece :: stack

theorem follow_proper {stack : List String} {piece : List Char} (hs : ∀ s ∈ stack, IsName s)
    (hp : '/' ∉ piece) : ∀ s ∈ follow stack piece, IsName s := by
  intro s h
  rw [follow] at h
  split at h
  · exact hs s h
  · rename_i h₁
    split at h
    · exact hs s (List.mem_of_mem_drop h)
    · rename_i h₂
      rcases List.mem_cons.1 h with rfl | h
      · simp only [not_or] at h₁
        simp only [IsName, String.toList_ofList]
        exact ⟨h₁.1, h₁.2, h₂, hp⟩
      · exact hs s h

theorem foldl_follow_proper {pieces : List (List Char)} {stack : List String}
    (hs : ∀ s ∈ stack, IsName s) (hp : ∀ p ∈ pieces, '/' ∉ p) :
    ∀ s ∈ pieces.foldl follow stack, IsName s := by
  induction pieces generalizing stack with
  | nil => exact hs
  | cons p ps ih =>
    exact ih (follow_proper hs (hp p (by simp))) fun q hq => hp q (by simp [hq])

/-- No piece between slashes holds a slash. -/
theorem slash_not_mem_splitOn (cs : List Char) : ∀ p ∈ Text.splitOn isSlash cs, '/' ∉ p := by
  induction cs with
  | nil => simp [Text.splitOn]
  | cons c cs ih =>
    rw [Text.splitOn]
    split
    · intro p hp
      rcases List.mem_cons.1 hp with rfl | hp
      · simp
      · exact ih p hp
    · rename_i hc
      cases hcs : Text.splitOn isSlash cs with
      | nil => exact absurd hcs (Text.splitOn_ne_nil _ _)
      | cons q qs =>
        rw [hcs] at ih
        intro p hp
        rcases List.mem_cons.1 hp with rfl | hp
        · have hq := ih q (by simp)
          simp only [isSlash, beq_iff_eq] at hc
          simp only [List.mem_cons, not_or]
          exact ⟨fun h => hc h.symm, hq⟩
        · exact ih p (by simp [hp])

/-- The place reached by following every piece of a text; it is never adrift. -/
def walk (base : Path) (cs : List Char) : Path :=
  ofParts ((Text.splitOn isSlash cs).foldl follow base.parts.reverse).reverse (by
    intro s hs
    have hbase : ∀ t ∈ base.parts.reverse, IsName t :=
      fun t ht => base.proper t (List.mem_reverse.1 ht)
    exact foldl_follow_proper hbase (slash_not_mem_splitOn cs) s (List.mem_reverse.1 hs)) false

/-- The path that a text names, seen from the root. -/
def ofText (s : String) : Path := root.walk s.toList

/-- The path that a text names, seen from another path; a text that begins with a slash starts at
the root. -/
def resolve (base : Path) (s : String) : Path :=
  if s.toList.head? = some '/' then ofText s else base.walk s.toList

/-! ## The canonical text -/

/-- The names, each after a slash. -/
def slashed (parts : List String) : List Char :=
  parts.flatMap fun s => '/' :: s.toList

/-- What stands before the first name's own slash. -/
def lead (p : Path) : List Char := if p.adrift then ['/'] else []

/-- The canonical text: a slash before every name, one more in front if the place is adrift, and one
slash for the root. -/
def text (p : Path) : String :=
  if p.parts = [] then "/" else String.ofList (p.lead ++ slashed p.parts)

theorem splitOn_append_slashed (w : List Char) (parts : List String)
    (hw : '/' ∉ w) (h : ∀ s ∈ parts, '/' ∉ s.toList) :
    Text.splitOn isSlash (w ++ slashed parts) = w :: parts.map String.toList := by
  induction parts generalizing w with
  | nil =>
    induction w with
    | nil => rfl
    | cons c w ih =>
      simp only [List.mem_cons, not_or] at hw
      have hc : isSlash c = false := by simpa [isSlash] using fun h => hw.1 h.symm
      have ih := ih hw.2
      simp only [slashed, List.flatMap_nil, List.append_nil, List.map_nil] at ih ⊢
      simp [Text.splitOn, hc, ih]
  | cons s parts ih =>
    have ihs := ih s.toList (h s (by simp)) fun t ht => h t (by simp [ht])
    induction w with
    | nil =>
      have : isSlash '/' = true := rfl
      simp only [slashed, List.flatMap_cons, List.nil_append, List.cons_append] at ihs ⊢
      rw [Text.splitOn, if_pos this, ihs]
      simp
    | cons c w ihw =>
      simp only [List.mem_cons, not_or] at hw
      have hc : isSlash c = false := by simpa [isSlash] using fun h => hw.1 h.symm
      have ihw := ihw hw.2
      rw [List.cons_append, Text.splitOn, if_neg (by simp [hc]), ihw]

theorem foldl_follow_names (parts stack : List String) (h : ∀ s ∈ parts, IsName s) :
    (parts.map String.toList).foldl follow stack = parts.reverse ++ stack := by
  induction parts generalizing stack with
  | nil => rfl
  | cons s parts ih =>
    obtain ⟨h₁, h₂, h₃, _⟩ := h s (by simp)
    have hs : follow stack s.toList = s :: stack := by simp [follow, h₁, h₂, h₃]
    rw [List.map_cons, List.foldl_cons, hs, ih _ fun t ht => h t (by simp [ht])]
    simp

/-- **The canonical text names the path**, or, of one that is adrift, the anchored one. -/
theorem ofText_text (p : Path) : ofText p.text = p.anchored := by
  refine ext ?_ (by simp [ofText, walk, anchored, ofParts])
  rw [text]
  split
  · rename_i h
    simp only [anchored, ofParts, h]
    rfl
  · have hsplit := splitOn_append_slashed [] p.parts (by simp) fun s hs => (p.proper s hs).2.2.2
    simp only [List.nil_append] at hsplit
    have hnames : ([] :: p.parts.map String.toList).foldl follow [] = p.parts.reverse := by
      rw [List.foldl_cons, show follow [] [] = [] from rfl, foldl_follow_names _ _ p.proper,
        List.append_nil]
    simp only [ofText, walk, root, ofParts, anchored, String.toList_ofList, List.reverse_nil, lead]
    split
    · have : isSlash '/' = true := rfl
      rw [List.cons_append, List.nil_append, Text.splitOn, if_pos this, hsplit, List.foldl_cons,
        show follow [] [] = [] from rfl, hnames, List.reverse_reverse]
    · rw [List.nil_append, hsplit, hnames, List.reverse_reverse]

theorem length_text (p : Path) :
    p.text.toList.length =
      if p.parts = [] then 1 else p.adrift.toNat + (slashed p.parts).length := by
  rw [text]
  split
  · rfl
  · rw [String.toList_ofList, List.length_append, lead]
    cases p.adrift <;> rfl

theorem text_injective {p q : Path} (h : p.text = q.text) : p = q := by
  have hparts : p.parts = q.parts := by
    have := congrArg parts (ofText_text p)
    rw [h, ofText_text q] at this
    exact this.symm
  refine ext hparts ?_
  by_cases hp : p.parts = []
  · rw [p.anchored_root hp, q.anchored_root (hparts ▸ hp)]
  · have hlen := congrArg (fun s => s.toList.length) h
    simp only [length_text, ← hparts, if_neg hp, Nat.add_right_cancel_iff] at hlen
    revert hlen
    cases p.adrift <;> cases q.adrift <;> simp

instance : LT Path := ⟨fun p q => p.text < q.text⟩

instance : Key Path where
  decLt p q := inferInstanceAs (Decidable (p.text < q.text))
  irrefl p := String.lt_irrefl p.text
  trans := String.lt_trans
  connected h k := text_injective (String.le_antisymm (String.not_lt.1 k) (String.not_lt.1 h))

/-! ## Places around a path -/

/-- The directory that holds the place; the root is in none. -/
def parent? (p : Path) : Option Path :=
  if p.parts = [] then none
  else some (ofParts p.parts.dropLast (fun s hs => p.proper s (List.dropLast_subset _ hs)) p.adrift)

/-- The last name; the root has none. -/
def name? (p : Path) : Option String := p.parts.getLast?

/-- Whether `q` lies strictly below `p`; everything else lies below the root, adrift or not. -/
def isAbove (p q : Path) : Bool :=
  (p == root || p.adrift == q.adrift) &&
    p.parts.isPrefixOf q.parts && p.parts.length < q.parts.length

/-- Whether `q` is a direct child of `p`. -/
def isParentOf (p q : Path) : Bool :=
  p.adrift == q.adrift && p.parts.isPrefixOf q.parts && q.parts.length == p.parts.length + 1

/-- The place that `q` has below `target` when `source`, which is above `q` or equal to it, moves
to `target`.  What is below a place that becomes the root comes adrift. -/
def moved (source target q : Path) : Path :=
  ofParts (target.parts ++ q.parts.drop source.parts.length) (by
    intro s hs
    rcases List.mem_append.1 hs with hs | hs
    · exact target.proper s hs
    · exact q.proper s (List.mem_of_mem_drop hs)) (target == root || target.adrift)

/-- The first `n` steps of a path. -/
def take (p : Path) (n : Nat) : Path :=
  ofParts (p.parts.take n) (fun s hs => p.proper s (List.mem_of_mem_take hs)) p.adrift

/-- The places on the way to a path, the first step below the root first, itself last. -/
def way (p : Path) : List Path :=
  (List.range p.parts.length).map fun n => p.take (n + 1)

end Path

end GuestShell
