import GuestShell.Proofs.FileTree.Handles
import GuestShell.Proofs.FileTree.Texts

/-!
# Finding what lies in a directory and below it

A tree keeps no list of what is in a directory.  A listing goes through all places and takes those
that have one name more than the directory.  As places are in the order of their texts, and the
texts of all these begin alike, the names come in ascending order (`ascending_children`), and each
child is listed once (`mem_children_iff`).

A tree keeps its places in the order of their texts.  So what begins with a given text stands
together: a scan goes to the first place that is not before the text, and stops at the first that
does not begin with it (`scan`).  Nothing that begins with the text is before the one or behind the
other (`scan_eq_filter`), however the texts of other places run between those of a directory and of
what is in it, as `/a.txt` does between `/a` and `/a/b`.

With the slash behind the name the scan comes by what is below the place and by nothing else, but for
the root, which begins with its own slash.  So a listing needs no more than to leave out what lies
deeper (`list_eq_scan`), and whether a directory is empty is seen from the scan (`hasBelow_eq_scan`).
-/

namespace GuestShell.FileTree

open GuestShell.Path

/-! ## Children -/

section Children

variable {t u : FileTree} {p q : Path} {n k : Node} {name : String}

/-- The name and the node of an entry that lies in the directory `p`. -/
def child? (p : Path) (e : Path × Node) : Option (String × Node) :=
  if p.isParentOf e.1 then e.1.name?.map fun name => (name, e.2) else none

/-- What is in a directory: names and nodes. -/
def children (t : FileTree) (p : Path) : List (String × Node) := t.nodes.entries.filterMap (child? p)

/-- The line of a listing for a name and a node. -/
def listedName (e : String × Node) : ListedName where
  name := e.1
  isDirectory := match e.2 with
    | .directory _ => true
    | _ => false

/-- A directory is listed by its children. -/
lemma list_ok (h : t.IsDirectory p) : list p t = .ok ((t.children p).map listedName) t := by
  obtain ⟨m, hm⟩ := h
  rw [list, get_bind, hm, children, List.map_filterMap]
  refine congrArg (EStateM.Result.ok · t) (List.filterMap_congr ?_)
  rintro ⟨q, n⟩ -
  by_cases h : p.isParentOf q = true
  · simp only [child?, if_pos h, Option.map_map]
    rfl
  · simp only [child?, if_neg h, Option.map_none]

variable (hp : p.adrift = false)

include hp

lemma child?_eq_some_iff : child? p (q, n) = some (name, k) ↔ IsChild p q name ∧ n = k := by
  rw [← isParentOf_iff hp, child?]
  split_ifs with h
  · simp [h]
  · simp [h]

/-- **What is listed of a directory are its children.** -/
theorem mem_children_iff : (name, n) ∈ t.children p ↔ ∃ q, t.node? q = some n ∧ IsChild p q name := by
  simp only [children, List.mem_filterMap, Prod.exists, child?_eq_some_iff hp, Dict.mem_entries_iff]
  constructor
  · rintro ⟨q, _, hq, hchild, rfl⟩
    exact ⟨q, hq, hchild⟩
  · rintro ⟨q, hq, hchild⟩
    exact ⟨q, n, hq, hchild, rfl⟩

/-- **Names are listed in ascending order**, and none twice. -/
theorem ascending_children (t : FileTree) : (t.children p).Pairwise fun a b => a.1 < b.1 := by
  refine List.Pairwise.filterMap _ ?_ t.nodes.ascending
  rintro ⟨q, n⟩ ⟨r, k⟩ hlt ⟨name, n'⟩ hq ⟨name', k'⟩ hr
  obtain ⟨hq, -⟩ := (child?_eq_some_iff hp).1 hq
  obtain ⟨hr, -⟩ := (child?_eq_some_iff hp).1 hr
  exact (hq.text_lt_iff hr).1 hlt

/-- The name of a child leads to its node. -/
lemma node?_resolve (h : (name, n) ∈ t.children p) : t.node? (p.resolve name) = some n := by
  obtain ⟨q, hq, hchild⟩ := (mem_children_iff hp).1 h
  rw [hchild.resolve_eq hp, hq]

end Children

variable {t : FileTree} {p q : Path} {n : Node}

/-! ## Texts in order -/

/-- What begins with a text is not before it. -/
lemma not_lt_of_prefix {u v : List Char} (h : u <+: v) : ¬v < u := by
  induction u generalizing v with
  | nil => exact List.not_lt_nil v
  | cons c u ih =>
    obtain ⟨w, rfl⟩ := h
    rw [List.cons_append, List.cons_lt_cons_iff]
    rintro (hlt | ⟨-, hlt⟩)
    · exact Char.lt_irrefl c hlt
    · exact ih (List.prefix_append u w) hlt

/-- Between a text and what begins with it everything begins with it. -/
lemma prefix_of_between {u v w : List Char} (huv : ¬v < u) (hvw : v < w) (huw : u <+: w) :
    u <+: v := by
  induction u generalizing v w with
  | nil => exact List.nil_prefix
  | cons c u ih =>
    obtain ⟨z, rfl⟩ := huw
    cases v with
    | nil => exact absurd (List.nil_lt_cons c u) huv
    | cons d v =>
      rw [List.cons_lt_cons_iff, not_or, not_and] at huv
      rw [List.cons_append, List.cons_lt_cons_iff] at hvw
      rcases hvw with hlt | ⟨rfl, hlt⟩
      · exact absurd hlt huv.1
      · rw [List.cons_prefix_cons]
        exact ⟨rfl, ih (huv.2 rfl) hlt (List.prefix_append u z)⟩

/-- In a list in the order of its texts, those that begin with a text stand together. -/
lemma takeWhile_dropWhile_eq_filter {l : List (Path × Node)} (h : l.Pairwise fun a b => a.1 < b.1)
    (start : String) :
    (l.dropWhile fun e => decide (e.1.text < start)).takeWhile
        (fun e => start.toList.isPrefixOf e.1.text.toList) =
      l.filter fun e => start.toList.isPrefixOf e.1.text.toList := by
  have hlt : ∀ e : Path × Node, e.1.text < start ↔ e.1.text.toList < start.toList :=
    fun e => String.lt_iff
  induction l with
  | nil => rfl
  | cons e l ih =>
    obtain ⟨hhead, htail⟩ := List.pairwise_cons.1 h
    by_cases hbefore : e.1.text < start
    · have hno : ¬start.toList <+: e.1.text.toList := fun hpre =>
        not_lt_of_prefix hpre ((hlt e).1 hbefore)
      rw [List.dropWhile_cons_of_pos (by simpa using hbefore), ih htail,
        List.filter_cons_of_neg (by simpa using hno)]
    · rw [List.dropWhile_cons_of_neg (by simpa using hbefore)]
      by_cases hpre : start.toList <+: e.1.text.toList
      · -- what follows is not before the text either
        have hrest : l.dropWhile (fun e => decide (e.1.text < start)) = l := by
          cases l with
          | nil => rfl
          | cons e' l =>
            refine List.dropWhile_cons_of_neg ?_
            rw [decide_eq_true_eq]
            exact fun hlt' => hbefore (String.lt_trans (hhead e' List.mem_cons_self) hlt')
        rw [List.takeWhile_cons_of_pos (by simpa using hpre),
          List.filter_cons_of_pos (by simpa using hpre), ← ih htail, hrest]
      · -- the text would have to come first among what begins with it
        have hnone : ∀ e' ∈ l, ¬start.toList <+: e'.1.text.toList := fun e' he' hpre' =>
          hpre (prefix_of_between (mt (hlt e).2 hbefore) (String.lt_iff.1 (hhead e' he')) hpre')
        rw [List.takeWhile_cons_of_neg (by simpa using hpre),
          List.filter_cons_of_neg (by simpa using hpre), eq_comm, List.filter_eq_nil_iff]
        exact fun e' he' => by simpa using hnone e' he'

/-! ## The scan -/

/-- The entries from the first that is not before a text on, as long as they begin with it. -/
def scan (t : FileTree) (start : String) : List (Path × Node) :=
  (t.nodes.entries.dropWhile fun e => decide (e.1.text < start)).takeWhile fun e =>
    start.toList.isPrefixOf e.1.text.toList

/-- **A scan misses nothing.** -/
theorem scan_eq_filter (t : FileTree) (start : String) :
    t.scan start = t.nodes.entries.filter fun e => start.toList.isPrefixOf e.1.text.toList :=
  takeWhile_dropWhile_eq_filter t.nodes.ascending start

/-- What is left of a text behind a beginning of it. -/
def behind (start text : String) : String := String.ofList (text.toList.drop start.toList.length)

/-- The line of a listing for an entry that a scan comes by: none for the directory itself and for
what lies deeper. -/
def scannedName? (start : String) (e : Path × Node) : Option ListedName :=
  if behind start e.1.text = "" ∨ '/' ∈ (behind start e.1.text).toList then none
  else some (listedName (behind start e.1.text, e.2))

lemma eq_append_behind {start text : String} (h : start.toList <+: text.toList) :
    text = start ++ behind start text := by
  obtain ⟨rest, hrest⟩ := h
  apply String.toList_inj.1
  rw [String.toList_append, behind, String.toList_ofList, ← hrest, List.drop_left]

variable (hp : p.adrift = false)

include hp

/-- An entry that lies in a directory is one that the scan lists. -/
lemma map_listedName_child? (e : Path × Node) : (child? p e).map listedName =
    if p.inside.toList.isPrefixOf e.1.text.toList then scannedName? p.inside e else none := by
  obtain ⟨q, n⟩ := e
  have hsome : ∀ name k, child? p (q, n) = some (name, k) ↔ IsChild p q name ∧ n = k :=
    fun name k => child?_eq_some_iff hp
  by_cases hpre : p.inside.toList <+: q.text.toList
  · have htext := eq_append_behind hpre
    rw [if_pos (by simpa using hpre), scannedName?]
    split_ifs with hout
    · have hnone : child? p (q, n) = none := by
        rw [Option.eq_none_iff_forall_not_mem]
        rintro ⟨name, k⟩ hk
        obtain ⟨⟨hname, hne, hslash⟩, -⟩ := (hsome name k).1 hk
        have hbehind : behind p.inside q.text = name := by
          rw [htext] at hname
          exact String.toList_inj.1 (List.append_cancel_left (by
            rw [← String.toList_append, hname, String.toList_append]))
        rw [hbehind] at hout
        exact hout.elim hne hslash
      rw [hnone]
      rfl
    · obtain ⟨hne, hslash⟩ := not_or.1 hout
      rw [(hsome _ n).2 ⟨⟨htext, hne, hslash⟩, rfl⟩]
      rfl
  · have hnone : child? p (q, n) = none := by
      rw [Option.eq_none_iff_forall_not_mem]
      rintro ⟨name, k⟩ hk
      refine hpre ⟨name.toList, ?_⟩
      rw [((hsome name k).1 hk).1.text_eq, String.toList_append]
    rw [hnone, if_neg (by simpa using hpre)]
    rfl

/-- **A listing needs no more than the scan.** -/
theorem list_eq_scan (h : t.IsDirectory p) :
    list p t = .ok ((t.scan p.inside).filterMap (scannedName? p.inside)) t := by
  rw [list_ok h, children, List.map_filterMap, scan_eq_filter, List.filterMap_filter]
  exact congrArg (EStateM.Result.ok · t) (List.filterMap_congr fun e _ => map_listedName_child? hp e)

/-- **Whether anything lies below a place is seen from the scan.** -/
theorem hasBelow_eq_scan (t : FileTree) :
    t.hasBelow p = (t.scan p.inside).any fun e => decide (e.1 ≠ p) := by
  have habove : ∀ q, p.isAbove q = true ↔ p.inside.toList <+: q.text.toList ∧ q ≠ p := by
    intro q
    by_cases hroot : p = root
    · subst hroot
      obtain ⟨rest, hrest⟩ := exists_text_eq q
      have hpre : root.inside.toList <+: q.text.toList :=
        ⟨rest.toList, by rw [hrest, String.toList_append]; rfl⟩
      rw [root_isAbove_iff]
      exact (and_iff_right hpre).symm
    · have hself : p.isAbove q = true → q ≠ p := by
        rintro h rfl
        simp [isAbove] at h
      rw [← and_iff_left_of_imp hself, isAbove_iff_exists_text hp hroot]
      refine and_congr_left fun _ => ⟨?_, fun hpre => ⟨_, eq_append_behind hpre⟩⟩
      rintro ⟨rest, hrest⟩
      exact ⟨rest.toList, by rw [hrest, String.toList_append]⟩
  rw [Bool.eq_iff_iff, hasBelow, Dict.keys, List.any_map, scan_eq_filter]
  simp [habove]

end GuestShell.FileTree
