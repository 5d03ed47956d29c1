import GuestShell.DevServer
import GuestShell.Proofs.FileTree.Resolution

/-!
# What is served lies below the root

The server refuses a target by its components and opens a file by a text that was put together from
them.  Here both are told from the pieces between the slashes of the target.  A target is refused
exactly if one of the pieces is two dots (`descend_components`), and otherwise the text is the root and,
after it, the pieces that are names (`foldl_extended`).

A path is followed from one place to the next, as `Path.resolve` does.  Each name leads one step down
from where the text before it leads (`parts_resolve_extended`), so whatever directory relative paths are
seen from, the file lies below the place of the root (`path?_below_root`).
-/

namespace GuestShell

open GuestShell.Path

namespace DevServer

/-! ## Targets -/

/-- The pieces of a target; the slashes in front do not count. -/
def piecesOf (url : String) : List (List Char) := (url.toList.dropWhile (· == '/')).splitOn '/'

/-- The pieces that lead somewhere. -/
def leading (pieces : List (List Char)) : List String :=
  (pieces.filter fun piece => piece ≠ [] ∧ piece ≠ ['.']).map String.ofList

/-- The names that a target consists of; one with nothing but slashes stands for the index page. -/
def namesOf (url : String) : List String :=
  if url.toList.dropWhile (· == '/') = [] then ["index.html"] else leading (piecesOf url)

/-- A root and names, with a slash before each; after a root that is empty or ends with a slash there
is none. -/
def below (root : String) (names : List String) : String :=
  if names = [] then root
  else (if root = "" ∨ Text.endsWith root "/" then root else root ++ "/") ++ "/".intercalate names

/-! ## Going on -/

/-- **The way goes on over the pieces that are names, unless one of the pieces leads up.** -/
lemma descend_filterMap (root : String) (pieces : List (List Char)) :
    descend root (pieces.filterMap Component.ofPiece?) =
      if ['.', '.'] ∈ pieces then none else some ((leading pieces).foldl extended root) := by
  induction pieces generalizing root with
  | nil => rfl
  | cons piece pieces ih =>
    rw [List.filterMap_cons, Component.ofPiece?]
    by_cases hskip : piece = [] ∨ piece = ['.']
    · have hne : ['.', '.'] ≠ piece := by rcases hskip with rfl | rfl <;> decide
      have hleading : leading (piece :: pieces) = leading pieces := by
        rcases hskip with rfl | rfl <;> simp [leading]
      simp [hskip, ih, hne, hleading]
    · by_cases hup : piece = ['.', '.']
      · simp [hup, descend]
      · have hleading : leading (piece :: pieces) = String.ofList piece :: leading pieces := by
          obtain ⟨hempty, hdot⟩ := not_or.1 hskip
          simp [leading, hempty, hdot]
        simp [hskip, hup, descend, ih, Ne.symm hup, hleading]

/-- A single dot in front makes no difference. -/
lemma descend_components (root : String) {path : List Char} (h : path.head? ≠ some '/') :
    descend root (components path) =
      descend root ((path.splitOn '/').filterMap Component.ofPiece?) := by
  have hpieces : Text.splitOn isSlash path = path.splitOn '/' := Text.splitOn_eq_splitOnP _ _
  rw [components, if_neg h, hpieces]
  split
  · rfl
  · rfl

lemma head?_named (url : String) : (named url).head? ≠ some '/' := by
  rw [named]
  split
  · decide
  · intro hhead
    have hnot := List.head?_dropWhile_not isSlash url.toList
    rw [hhead] at hnot
    cases hnot

/-! ## Texts -/

lemma IsName.startsWith {name : String} (h : IsName name) : Text.startsWith name "/" = false := by
  rw [Text.startsWith, Bool.eq_false_iff]
  intro hslash
  obtain ⟨rest, hrest⟩ := List.isPrefixOf_iff_prefix.1 hslash
  exact h.2.2.2 (hrest ▸ List.mem_append_left _ (by decide))

lemma IsName.endsWith {name : String} (h : IsName name) (path : String) :
    Text.endsWith (path ++ name) "/" = false := by
  rw [Text.endsWith, Bool.eq_false_iff]
  intro hslash
  obtain ⟨before, hbefore⟩ := List.isSuffixOf_iff_suffix.1 hslash
  have hlast := congrArg List.getLast? hbefore
  rw [String.toList_append, List.getLast?_append_of_ne_nil _ h.1] at hlast
  have hname : name.toList.getLast? = some '/' := hlast.symm.trans List.getLast?_concat
  exact h.2.2.2 (List.mem_of_getLast? hname)

/-- A name stands behind a slash. -/
lemma extended_name {name : String} (h : IsName name) (path : String) :
    extended path name =
      (if path = "" ∨ Text.endsWith path "/" then path else path ++ "/") ++ name := by
  rw [extended, IsName.startsWith h, if_neg Bool.false_ne_true]
  by_cases hslash : path = "" ∨ Text.endsWith path "/" = true
  · rw [if_pos (by simpa using hslash), if_pos hslash]
  · rw [if_neg (by simpa using hslash), if_neg hslash]

lemma extended_ne_empty {name : String} (h : IsName name) (path : String) :
    extended path name ≠ "" := by
  rw [extended_name h]
  intro hempty
  have hlist := congrArg String.toList hempty
  rw [String.toList_append] at hlist
  exact h.1 (List.append_eq_nil_iff.1 hlist).2

/-- **One name after another is all of them with slashes between.** -/
theorem foldl_extended {names : List String} (h : ∀ name ∈ names, IsName name) (root : String) :
    names.foldl extended root = below root names := by
  induction names generalizing root with
  | nil => rfl
  | cons name names ih =>
    obtain ⟨hname, hnames⟩ := List.forall_mem_cons.1 h
    rw [List.foldl_cons, ih hnames, below, below, if_neg (List.cons_ne_nil _ _)]
    by_cases hlast : names = []
    · rw [if_pos hlast, hlast, String.intercalate_singleton, extended_name hname]
    · -- what was put together so far ends with a name
      have hopen : ¬(extended root name = "" ∨ Text.endsWith (extended root name) "/" = true) := by
        rw [extended_name hname, IsName.endsWith hname, ← extended_name hname]
        simp [extended_ne_empty hname]
      rw [if_neg hlast, if_neg hopen, String.intercalate_cons_of_ne_nil hlast, extended_name hname]
      simp only [String.append_assoc]

/-! ## Places -/

lemma parts_walk_name {name : String} (h : IsName name) (p : Path) :
    (p.walk name.toList).parts = p.parts ++ [name] := by
  have hpiece : Text.splitOn Path.isSlash name.toList = [name].map String.toList := by
    refine Text.splitOn_of_unbroken fun c hc => ?_
    rw [Path.isSlash, beq_eq_false_iff_ne]
    rintro rfl
    exact h.2.2.2 hc
  rw [parts_walk, hpiece, foldl_follow_names _ _ (List.forall_mem_singleton.2 h)]
  simp

/-- A slash at the end leads nowhere else. -/
lemma parts_walk_slash (p : Path) (cs : List Char) : (p.walk (cs ++ ['/'])).parts = (p.walk cs).parts := by
  rw [← walk_walk, parts_walk]
  exact List.reverse_reverse _

lemma resolve_eq_walk (here : Path) (s : String) :
    here.resolve s = (if s.toList.head? = some '/' then Path.root else here).walk s.toList := by
  rw [Path.resolve]
  split <;> rfl

/-- **A name leads one step down from where the text before it leads.** -/
theorem parts_resolve_extended {name : String} (h : IsName name) (here : Path) (path : String) :
    (here.resolve (extended path name)).parts = (here.resolve path).parts ++ [name] := by
  have hhead : name.toList.head? ≠ some '/' := fun hslash =>
    h.2.2.2 (List.mem_of_mem_head? hslash)
  rw [extended_name h]
  by_cases hempty : path = ""
  · subst hempty
    have hhere : (here.resolve "").parts = here.parts := List.reverse_reverse _
    rw [if_pos (.inl rfl), String.empty_append, resolve_of_relative here hhead, parts_walk_name h, hhere]
  · by_cases hends : Text.endsWith path "/" = true
    · obtain ⟨before, hbefore⟩ := List.isSuffixOf_iff_suffix.1 hends
      have hpath : path.toList = before ++ ['/'] := hbefore.symm
      have hlonger : (path ++ name).toList = before ++ '/' :: name.toList := by
        rw [String.toList_append, hpath, List.append_assoc]
        rfl
      -- whether the text begins with a slash is seen before the name is reached
      have hsame : (path ++ name).toList.head? = path.toList.head? := by
        rw [String.toList_append, List.head?_append_of_ne_nil _ (String.toList_eq_nil_iff.not.2 hempty)]
      rw [if_pos (.inr hends), resolve_eq_walk, resolve_eq_walk, hsame, hlonger, ← walk_walk,
        parts_walk_name h, hpath, parts_walk_slash]
    · rw [if_neg (not_or.2 ⟨hempty, hends⟩), ← resolve_resolve here hempty hhead,
        resolve_of_relative _ hhead, parts_walk_name h]

lemma parts_resolve_foldl {names : List String} (h : ∀ name ∈ names, IsName name) (here : Path)
    (root : String) :
    (here.resolve (names.foldl extended root)).parts = (here.resolve root).parts ++ names := by
  induction names generalizing root with
  | nil => simp
  | cons name names ih =>
    obtain ⟨hname, hnames⟩ := List.forall_mem_cons.1 h
    rw [List.foldl_cons, ih hnames, parts_resolve_extended hname, List.append_assoc,
      List.singleton_append]

/-! ## Files -/

/-- Unless a piece leads up, what leads somewhere is a name. -/
lemma isName_of_mem_leading {cs : List Char} (hup : ['.', '.'] ∉ cs.splitOn '/') :
    ∀ name ∈ leading (cs.splitOn '/'), IsName name := by
  intro name hname
  simp only [leading, List.mem_map, List.mem_filter, decide_eq_true_eq] at hname
  obtain ⟨piece, ⟨hmem, hempty, hdot⟩, rfl⟩ := hname
  have hslash : '/' ∉ piece := by
    refine slash_not_mem_splitOn cs piece ?_
    rw [Text.splitOn_eq_splitOnP]
    exact hmem
  refine ⟨?_, ?_, ?_, ?_⟩ <;> rw [String.toList_ofList]
  · exact hempty
  · exact hdot
  · rintro rfl
    exact hup hmem
  · exact hslash

/-- The pieces of what is named are those of the target, but for the index page. -/
lemma splitOn_named (url : String) :
    leading ((named url).splitOn '/') = namesOf url ∧
      (['.', '.'] ∈ (named url).splitOn '/' ↔ ['.', '.'] ∈ piecesOf url) := by
  have hdrop : url.toList.dropWhile isSlash = url.toList.dropWhile (· == '/') := rfl
  rw [named, namesOf, piecesOf, hdrop]
  by_cases hnothing : url.toList.dropWhile (· == '/') = []
  · rw [if_pos hnothing, if_pos hnothing, hnothing]
    exact ⟨by decide, by decide⟩
  · rw [if_neg hnothing, if_neg hnothing]
    exact ⟨rfl, Iff.rfl⟩

/-- **What is served lies at the root or below it.**  For every root and every target:

* the target is refused exactly if, after the slashes in front, one of its pieces is two dots;
* otherwise the path is the root and, in their order, the pieces that are neither empty nor a single dot,
  or the index page where there were only slashes;
* whatever directory relative paths are seen from, the path leads from the place of the root down over
  these names. -/
theorem path?_below_root (root url : String) :
    (path? root url = none ↔ ['.', '.'] ∈ piecesOf url) ∧
    (path? root url = if ['.', '.'] ∈ piecesOf url then none else some (below root (namesOf url))) ∧
    ∀ path, path? root url = some path → ∀ here : Path,
      (here.resolve path).parts = (here.resolve root).parts ++ namesOf url ∧
        FileTree.covers (here.resolve root) (here.resolve path) = true := by
  obtain ⟨hnames, hup⟩ := splitOn_named url
  have hpath : path? root url =
      if ['.', '.'] ∈ piecesOf url then none else some ((namesOf url).foldl extended root) := by
    rw [path?, descend_components root (head?_named url), descend_filterMap, hnames]
    simp only [hup]
  have hproper (h : ['.', '.'] ∉ piecesOf url) : ∀ name ∈ namesOf url, IsName name := by
    rw [← hnames]
    exact isName_of_mem_leading (mt hup.1 h)
  refine ⟨?_, ?_, fun path hfound here => ?_⟩
  · rw [hpath]
    split_ifs with h
    · exact iff_of_true rfl h
    · exact iff_of_false nofun h
  · rw [hpath]
    split_ifs with h
    · rfl
    · rw [foldl_extended (hproper h)]
  · rw [hpath] at hfound
    split_ifs at hfound with h
    obtain rfl := Option.some.inj hfound
    have hparts := parts_resolve_foldl (hproper h) here root
    refine ⟨hparts, ?_⟩
    rw [FileTree.covers_iff (adrift_resolve _ _) (adrift_resolve _ _), hparts]
    exact List.prefix_append _ _

/-- Dots that lead nowhere, dots in names, and dots that are written as numbers. -/
theorem path?_below_root_dots :
    path? "../www/" "//./a..//.../%2e%2e/.b" = some "../www/a../.../%2e%2e/.b" ∧
      ((ofText "/srv/up").resolve "../www/a../.../%2e%2e/.b").parts =
        ["srv", "www"] ++ ["a..", "...", "%2e%2e", ".b"] := by
  have hpath : path? "../www/" "//./a..//.../%2e%2e/.b" = some "../www/a../.../%2e%2e/.b" := by
    decide +kernel
  obtain ⟨hparts, -⟩ := (path?_below_root _ _).2.2 _ hpath (ofText "/srv/up")
  have hroot : ((ofText "/srv/up").resolve "../www/").parts = ["srv", "www"] := by decide +kernel
  have hnames : namesOf "//./a..//.../%2e%2e/.b" = ["a..", "...", "%2e%2e", ".b"] := by
    decide +kernel
  exact ⟨hpath, by rw [hparts, hroot, hnames]⟩

end DevServer

end GuestShell
