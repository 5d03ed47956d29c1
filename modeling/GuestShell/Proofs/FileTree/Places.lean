import GuestShell.FileTree.Path
import GuestShell.FileTree.Basic
import Mathlib.Data.List.Basic
import Mathlib.Data.List.Chain
import Mathlib.Data.List.Infix
import Mathlib.Data.List.Range
import Mathlib.Tactic.Lemma

/-!
# Places in a tree

The geometry of paths, read off the names.  A place that is not adrift is known by its names
(`ext_parts`); it lies at or below another exactly if the other's names come first
(`covers_iff`), and the directory that holds it has all its names but the last
(`parent?_eq_some_iff`).

A place that moves along with a directory keeps the names it has below that directory
(`parts_moved`), so no two of them meet at the target (`moved_injective`).
-/

namespace GuestShell.Path

/-! ## Places that are not adrift -/

/-- A place has a canonical text that names it exactly if it is not adrift. -/
lemma ofText_text_eq_iff {p : Path} : (ofText p.text).text = p.text ↔ p.adrift = false := by
  constructor
  · intro h
    have hp : p.anchored = p := by rw [← ofText_text]; exact text_injective h
    rw [← hp]
    simp [anchored, ofParts]
  · intro h
    rw [ofText_text, anchored_eq_self h]

lemma adrift_ofText (s : String) : (ofText s).adrift = false := by
  simp [ofText, walk, ofParts]

lemma ext_parts {p q : Path} (hp : p.adrift = false) (hq : q.adrift = false)
    (h : p.parts = q.parts) : p = q :=
  Path.ext h (hp.trans hq.symm)

@[simp] lemma parts_root : root.parts = [] := rfl

@[simp] lemma adrift_root : root.adrift = false := rfl

lemma eq_root_iff {p : Path} : p = root ↔ p.parts = [] := by
  constructor
  · rintro rfl
    rfl
  · intro h
    exact Path.ext h (p.anchored_root h)

/-! ## Above and below -/

lemma isAbove_iff {p q : Path} (hp : p.adrift = false) (hq : q.adrift = false) :
    p.isAbove q = true ↔ p.parts <+: q.parts ∧ p ≠ q := by
  have hlen : p.parts <+: q.parts → (p.parts.length < q.parts.length ↔ p ≠ q) := by
    intro hpre
    constructor
    · rintro hlt rfl
      exact Nat.lt_irrefl _ hlt
    · intro hne
      refine Nat.lt_of_le_of_ne hpre.length_le fun heq => hne ?_
      exact ext_parts hp hq (hpre.eq_of_length heq)
  simp only [isAbove, hp, hq, beq_self_eq_true, Bool.or_true, Bool.true_and, Bool.and_eq_true,
    List.isPrefixOf_iff_prefix, decide_eq_true_eq]
  exact and_congr_right hlen

/-- Everything but itself lies below the root. -/
lemma root_isAbove_iff {q : Path} : root.isAbove q = true ↔ q ≠ root := by
  simp only [isAbove, beq_self_eq_true, Bool.true_or, Bool.true_and, parts_root,
    List.isPrefixOf_nil_left, List.length_nil, decide_eq_true_eq, ne_eq, eq_root_iff,
    List.length_pos_iff]

lemma parent?_root : root.parent? = none := rfl

lemma parent?_eq_some_iff {p q : Path} (hp : p.adrift = false) :
    p.parent? = some q ↔ q.adrift = false ∧ ∃ name, p.parts = q.parts ++ [name] := by
  rw [parent?]
  split_ifs with h
  · simp [h]
  · simp only [Option.some.injEq]
    constructor
    · rintro rfl
      refine ⟨by simp [ofParts, hp], p.parts.getLast h, ?_⟩
      exact (List.dropLast_append_getLast h).symm
    · rintro ⟨hq, name, hname⟩
      refine ext_parts (by simp [ofParts, hp]) hq ?_
      simp [ofParts, hname]

/-- What lies in a directory is adrift with it; only in the root there may be either. -/
lemma adrift_of_parent? {p q : Path} (h : p.parent? = some q) (hq : q ≠ root) :
    p.adrift = q.adrift := by
  rw [parent?] at h
  split_ifs at h
  obtain rfl := Option.some.inj h
  have hne : p.parts.dropLast ≠ [] := eq_root_iff.not.1 hq
  simp [ofParts, hne]

/-- Every place but the root lies in a directory. -/
lemma exists_parent? {p : Path} (h : p ≠ root) : ∃ q, p.parent? = some q := by
  rw [parent?, if_neg (eq_root_iff.not.1 h)]
  exact ⟨_, rfl⟩

lemma isAbove_of_parent? {p q : Path} (hp : p.adrift = false) (h : p.parent? = some q) :
    q.isAbove p = true := by
  obtain ⟨hq, name, hname⟩ := (parent?_eq_some_iff hp).1 h
  refine (isAbove_iff hq hp).2 ⟨⟨[name], hname.symm⟩, ?_⟩
  rintro rfl
  simp at hname

/-! ## The way to a place -/

lemma take_zero (p : Path) : p.take 0 = root := Path.ext rfl (by simp [take, ofParts])

lemma take_length {p : Path} (h : p.adrift = false) : p.take p.parts.length = p :=
  ext_parts (by simp [take, ofParts, h]) h (by simp [take, ofParts])

lemma adrift_take {p : Path} (h : p.adrift = false) (n : Nat) : (p.take n).adrift = false := by
  simp [take, ofParts, h]

lemma root_cons_way (p : Path) : root :: p.way = (List.range (p.parts.length + 1)).map p.take := by
  rw [List.range_succ_eq_map, List.map_cons, List.map_map, take_zero]
  rfl

/-- On the way to a place each step lies in the directory before it. -/
lemma isChain_way {p : Path} (h : p.adrift = false) :
    (root :: p.way).IsChain fun q r => r.adrift = false ∧ r.parent? = some q := by
  rw [root_cons_way, List.isChain_map, List.isChain_range_succ]
  intro m hm
  have hstep : (p.take (m + 1)).parts = (p.take m).parts ++ [p.parts[m]] := by
    show p.parts.take (m + 1) = p.parts.take m ++ [p.parts[m]]
    rw [List.take_succ_eq_append_getElem hm]
  refine ⟨adrift_take h _, (parent?_eq_some_iff (adrift_take h _)).2 ⟨adrift_take h _, _, hstep⟩⟩

/-- The way to a place, from the root on, ends there. -/
lemma mem_root_cons_way {p : Path} (h : p.adrift = false) : p ∈ root :: p.way := by
  rw [root_cons_way, List.mem_map]
  exact ⟨p.parts.length, by simp, take_length h⟩

/-- Whatever is on the way to the directory of a place lies above the place. -/
lemma isAbove_of_mem_way {p q r : Path} (hp : p.adrift = false) (h : p.parent? = some q)
    (hr : r ∈ q.way) : r.adrift = false ∧ r.isAbove p = true := by
  obtain ⟨hq, name, hname⟩ := (parent?_eq_some_iff hp).1 h
  obtain ⟨k, -, rfl⟩ := List.mem_map.1 hr
  have hta := adrift_take hq (k + 1)
  have hpre : (q.take (k + 1)).parts <+: q.parts := List.take_prefix _ _
  refine ⟨hta, (isAbove_iff hta hp).2 ⟨hpre.trans ⟨[name], hname.symm⟩, fun heq => ?_⟩⟩
  have hlen := hpre.length_le
  rw [heq, hname, List.length_append, List.length_singleton] at hlen
  exact Nat.not_succ_le_self _ hlen

/-! ## Moving along -/

lemma parts_moved (source target q : Path) :
    (moved source target q).parts = target.parts ++ q.parts.drop source.parts.length := rfl

lemma adrift_moved {source target q : Path} (ht : target.adrift = false)
    (hroot : target ≠ root) : (moved source target q).adrift = false := by
  simp [moved, ofParts, ht, hroot]

end GuestShell.Path

namespace GuestShell.FileTree

open GuestShell.Path

lemma covers_iff_eq_or_isAbove {p q : Path} :
    covers p q = true ↔ p = q ∨ p.isAbove q = true := by
  rw [covers, Bool.or_eq_true, beq_iff_eq]

/-- A place covers what has its names first. -/
lemma covers_iff {p q : Path} (hp : p.adrift = false) (hq : q.adrift = false) :
    covers p q = true ↔ p.parts <+: q.parts := by
  rw [covers_iff_eq_or_isAbove, isAbove_iff hp hq]
  constructor
  · rintro (rfl | ⟨hpre, -⟩)
    · exact List.prefix_rfl
    · exact hpre
  · intro hpre
    by_cases heq : p = q
    · exact .inl heq
    · exact .inr ⟨hpre, heq⟩

/-- Nothing that is adrift is at an anchored place below the root, or below it. -/
lemma adrift_of_covers {p q : Path} (hp : p.adrift = false) (hroot : p ≠ root)
    (h : covers p q = true) : q.adrift = false := by
  rcases covers_iff_eq_or_isAbove.1 h with rfl | habove
  · exact hp
  · simp only [isAbove, beq_eq_false_iff_ne.2 hroot, Bool.false_or, Bool.and_eq_true,
      beq_iff_eq] at habove
    exact habove.1.1.symm.trans hp

/-- Nothing but the root is at the root or above it. -/
lemma eq_root_of_covers_root {p : Path} (hp : p.adrift = false) (h : covers p root = true) :
    p = root := by
  rw [covers_iff hp adrift_root, parts_root, List.prefix_nil] at h
  exact eq_root_iff.2 h

lemma covers_self (p : Path) : covers p p = true := by simp [covers]

/-- Everything is at the root or below it. -/
lemma root_covers (p : Path) : covers root p = true := by
  rw [covers_iff_eq_or_isAbove, root_isAbove_iff]
  exact (eq_or_ne root p).imp_right Ne.symm

/-- What covers a directory covers what is in it. -/
lemma covers_of_parent? {p q r : Path} (hp : p.adrift = false) (hq : q.adrift = false)
    (h : q.parent? = some r) (hpr : covers p r = true) : covers p q = true := by
  obtain ⟨hr, name, hname⟩ := (parent?_eq_some_iff hq).1 h
  rw [covers_iff hp hq, hname]
  exact ((covers_iff hp hr).1 hpr).trans (List.prefix_append _ _)

/-- What covers a place covers the directory that the place lies in, unless it is the place. -/
lemma covers_parent? {p q r : Path} (hp : p.adrift = false) (hq : q.adrift = false)
    (h : q.parent? = some r) (hpq : covers p q = true) (hne : q ≠ p) : covers p r = true := by
  obtain ⟨hr, name, hname⟩ := (parent?_eq_some_iff hq).1 h
  rw [covers_iff hp hq, hname, List.prefix_concat_iff, ← hname] at hpq
  rcases hpq with heq | hpre
  · exact absurd (ext_parts hq hp heq.symm) hne
  · exact (covers_iff hp hr).2 hpre

/-- Two places that cover the same place cover each other, one way or the other. -/
lemma covers_or_covers {p q r : Path} (hp : p.adrift = false) (hq : q.adrift = false)
    (hr : r.adrift = false) (hpr : covers p r = true) (hqr : covers q r = true) :
    covers p q = true ∨ covers q p = true := by
  rw [covers_iff hp hq, covers_iff hq hp]
  exact List.prefix_or_prefix_of_prefix ((covers_iff hp hr).1 hpr) ((covers_iff hq hr).1 hqr)

/-- What moves along is covered by the target. -/
lemma covers_moved {source target q : Path} (ht : target.adrift = false) (hroot : target ≠ root) :
    covers target (moved source target q) = true := by
  rw [covers_iff ht (adrift_moved ht hroot), parts_moved]
  exact List.prefix_append _ _

lemma moved_self {source target : Path} (ht : target.adrift = false) (hroot : target ≠ root) :
    moved source target source = target :=
  ext_parts (adrift_moved ht hroot) ht (by simp [parts_moved])

/-- What moves back is where it was. -/
lemma moved_moved {source target p : Path} (hs : source.adrift = false) (hroot : source ≠ root)
    (hp : p.adrift = false) (hsp : covers source p = true) :
    moved target source (moved source target p) = p := by
  refine ext_parts (adrift_moved hs hroot) hp ?_
  obtain ⟨rest, hrest⟩ := (covers_iff hs hp).1 hsp
  rw [parts_moved, parts_moved, List.drop_left, ← hrest, List.drop_left]

/-- A directory that moves along takes with it what is in it. -/
lemma parent?_moved {source target p q : Path} (hs : source.adrift = false)
    (ht : target.adrift = false) (hroot : target ≠ root) (hp : p.adrift = false)
    (h : p.parent? = some q) (hsq : covers source q = true) :
    (moved source target p).parent? = some (moved source target q) := by
  obtain ⟨hq, name, hname⟩ := (parent?_eq_some_iff hp).1 h
  have hlen := ((covers_iff hs hq).1 hsq).length_le
  refine (parent?_eq_some_iff (adrift_moved ht hroot)).2 ⟨adrift_moved ht hroot, name, ?_⟩
  rw [parts_moved, parts_moved, hname, List.drop_append_of_le_length hlen, List.append_assoc]

/-- Places that move along do not meet. -/
lemma moved_injective {source target p q : Path} (hs : source.adrift = false)
    (hp : p.adrift = false) (hq : q.adrift = false) (hsp : covers source p = true)
    (hsq : covers source q = true) (h : moved source target p = moved source target q) :
    p = q := by
  obtain ⟨u, hu⟩ := (covers_iff hs hp).1 hsp
  obtain ⟨v, hv⟩ := (covers_iff hs hq).1 hsq
  have hparts := congrArg parts h
  rw [parts_moved, parts_moved, ← hu, ← hv, List.drop_left, List.drop_left] at hparts
  refine ext_parts hp hq ?_
  rw [← hu, ← hv, List.append_cancel_left hparts]

end GuestShell.FileTree
