import GuestShell.Proofs.FileTree.Loaded
import GuestShell.Proofs.FileTree.Scans
import Mathlib.Data.List.Perm.Basic
import Mathlib.Data.List.Nodup

/-!
# A walk comes by everything

A walk through a directory asks for its listing, goes to each name that is listed, and into it if it is
a directory.  It sees nothing of the tree but listings.

In a well-formed tree whatever lies below a directory is at one of its children or below it
(`WellFormed.exists_child`), and at or below one only.  So the parts of a walk do not meet, and
together they are all that lies below the directory (`Toured`).  A walk that may go deeper than every
place comes to its end (`exists_walk`).
-/

namespace GuestShell.FileTree

open GuestShell.Path

variable {t : FileTree} {p q r : Path} {n : Node}

/-! ## Walking -/

/-- What a walk meets at a name that is listed of the directory `p`, given what it meets inside. -/
def visit (inside : Path → Option (List (Path × Bool))) (p : Path) (e : ListedName) :
    Option (List (Path × Bool)) :=
  if e.isDirectory then (inside (p.resolve e.name)).map ((p.resolve e.name, true) :: ·)
  else some [(p.resolve e.name, false)]

/-- The places that a walk through a directory meets, and which of them are directories; nothing if the
walk would have to go deeper than `depth`. -/
def walk (t : FileTree) : Nat → Path → Option (List (Path × Bool))
  | 0, _ => none
  | depth + 1, p =>
    match list p t with
    | .ok names _ => (names.mapM (visit (walk t depth) p)).map List.flatten
    | .error _ _ => none

lemma mapM_eq_some {α β : Type} {f : α → Option β} {g : α → β} {l : List α}
    (h : ∀ a ∈ l, f a = some (g a)) : l.mapM f = some (l.map g) := by
  induction l with
  | nil => rfl
  | cons a l ih =>
    obtain ⟨ha, hl⟩ := List.forall_mem_cons.1 h
    rw [List.mapM_cons, ha, ih hl]
    rfl

/-! ## Children -/

namespace WellFormed

variable (h : t.WellFormed)

include h

/-- What lies below a directory is at one of its children or below it. -/
lemma exists_child (hp : p.adrift = false) (hr : t.node? r = some n) (habove : p.isAbove r = true) :
    ∃ q k name, IsChild p q name ∧ t.node? q = some k ∧ covers q r = true := by
  have hra := h.anchored hr
  obtain ⟨⟨rest, hrest⟩, hne⟩ := (isAbove_iff hp hra).1 habove
  obtain ⟨name, rest, rfl⟩ := List.exists_cons_of_ne_nil (l := rest) (by
    rintro rfl
    exact hne (ext_parts hp hra (by simpa using hrest)))
  have hparts : (r.take (p.parts.length + 1)).parts = p.parts ++ [name] := by
    show r.parts.take (p.parts.length + 1) = p.parts ++ [name]
    simp [← hrest, List.take_append]
  have hqa := adrift_take hra (p.parts.length + 1)
  have hcovers : covers (r.take (p.parts.length + 1)) r = true :=
    (covers_iff hqa hra).2 (List.take_prefix _ _)
  obtain ⟨k, hk⟩ : ∃ k, t.node? (r.take (p.parts.length + 1)) = some k := by
    rcases covers_iff_eq_or_isAbove.1 hcovers with heq | habove
    · exact ⟨n, heq.symm ▸ hr⟩
    · obtain ⟨m, hm⟩ := h.isDirectory_of_isAbove hqa hr habove
      exact ⟨_, hm⟩
  exact ⟨_, k, name, (isChild_iff hp).2 ⟨hqa, hparts⟩, hk, hcovers⟩

/-- Nothing lies below two children. -/
lemma child_eq (hp : p.adrift = false) {q' : Path} {name name' : String} (hr : t.node? r = some n)
    (hq : IsChild p q name) (hq' : IsChild p q' name') (hqr : covers q r = true)
    (hqr' : covers q' r = true) : name = name' := by
  obtain ⟨hqa, hparts⟩ := (isChild_iff hp).1 hq
  obtain ⟨hqa', hparts'⟩ := (isChild_iff hp).1 hq'
  have hra := h.anchored hr
  have hlength : q.parts.length = q'.parts.length := by
    rw [hparts, hparts', List.length_append, List.length_append]
    rfl
  have heq : q.parts = q'.parts :=
    List.IsPrefix.eq_of_length
      (List.prefix_of_prefix_length_le ((covers_iff hqa hra).1 hqr) ((covers_iff hqa' hra).1 hqr')
        hlength.le) hlength
  rw [hparts, hparts'] at heq
  exact List.singleton_inj.1 (List.append_cancel_left heq)

end WellFormed

lemma isAbove_of_isChild (hp : p.adrift = false) {name : String} (hq : IsChild p q name)
    (hr : r.adrift = false) (hqr : covers q r = true) : p.isAbove r = true := by
  obtain ⟨hqa, hparts⟩ := (isChild_iff hp).1 hq
  have hpre : p.parts ++ [name] <+: r.parts := hparts ▸ (covers_iff hqa hr).1 hqr
  refine (isAbove_iff hp hr).2 ⟨(List.prefix_append _ _).trans hpre, ?_⟩
  rintro rfl
  have hlength := hpre.length_le
  rw [List.length_append, List.length_singleton] at hlength
  exact Nat.not_succ_le_self _ hlength

/-! ## What a walk has met -/

/-- The list has every node of a part of the tree, once, and knows the directories. -/
structure Met (t : FileTree) (part : Path → Bool) (visited : List (Path × Bool)) : Prop where
  nodup : (visited.map Prod.fst).Nodup
  mem_iff : ∀ r flag, (r, flag) ∈ visited ↔
    part r = true ∧ ∃ n, t.node? r = some n ∧ (flag = true ↔ ∃ m, n = .directory m)

namespace Met

/-- The places that were met are those of the nodes. -/
lemma mem_places_iff {part : Path → Bool} {visited : List (Path × Bool)} (hv : Met t part visited) :
    r ∈ visited.map Prod.fst ↔ part r = true ∧ ∃ n, t.node? r = some n := by
  constructor
  · intro hr
    obtain ⟨⟨r, flag⟩, hmem, rfl⟩ := List.mem_map.1 hr
    obtain ⟨hpart, n, hn, -⟩ := (hv.mem_iff r flag).1 hmem
    exact ⟨hpart, n, hn⟩
  · rintro ⟨hpart, n, hn⟩
    obtain ⟨flag, hflag⟩ : ∃ flag : Bool, flag = true ↔ ∃ m, n = .directory m := by
      by_cases hdir : ∃ m, n = .directory m
      · exact ⟨true, iff_of_true rfl hdir⟩
      · exact ⟨false, iff_of_false (by simp) hdir⟩
    exact List.mem_map.2 ⟨(r, flag), (hv.mem_iff r flag).2 ⟨hpart, n, hn, hflag⟩, rfl⟩

/-- A directory, and what is below it. -/
lemma enter {visited : List (Path × Bool)} (hq : t.IsDirectory q) (hv : Met t q.isAbove visited) :
    Met t (covers q) ((q, true) :: visited) where
  nodup := by
    rw [List.map_cons, List.nodup_cons]
    exact ⟨fun hmem => not_isAbove_self q (hv.mem_places_iff.1 hmem).1, hv.nodup⟩
  mem_iff r flag := by
    obtain ⟨m, hm⟩ := hq
    rw [List.mem_cons, hv.mem_iff, covers_iff_eq_or_isAbove, Prod.mk.injEq]
    constructor
    · rintro (⟨rfl, rfl⟩ | ⟨habove, hn⟩)
      · exact ⟨.inl rfl, _, hm, iff_of_true rfl ⟨m, rfl⟩⟩
      · exact ⟨.inr habove, hn⟩
    · rintro ⟨rfl | habove, n, hn, hflag⟩
      · obtain rfl := Option.some.inj (hm.symm.trans hn)
        exact .inl ⟨rfl, hflag.2 ⟨m, rfl⟩⟩
      · exact .inr ⟨habove, n, hn, hflag⟩

/-- Below what is no directory there is nothing. -/
lemma single (h : t.WellFormed) (hn : t.node? q = some n) (hno : ∀ m, n ≠ .directory m) :
    Met t (covers q) [(q, false)] where
  nodup := List.nodup_singleton q
  mem_iff r flag := by
    have hnodir : ¬t.IsDirectory q := by
      rintro ⟨m, hm⟩
      exact hno m (Option.some.inj (hn.symm.trans hm))
    rw [List.mem_singleton, covers_iff_eq_or_isAbove, Prod.mk.injEq]
    constructor
    · rintro ⟨rfl, rfl⟩
      exact ⟨.inl rfl, n, hn, iff_of_false (by simp) (by simpa using hno)⟩
    · rintro ⟨rfl | habove, k, hk, hflag⟩
      · obtain rfl := Option.some.inj (hn.symm.trans hk)
        exact ⟨rfl, by simpa [hno] using hflag⟩
      · exact absurd habove (h.connected.not_isAbove (h.anchored hn) hnodir hk)

/-- The parts of a walk do not meet, and together they are all that lies below the directory. -/
lemma flatMap (h : t.WellFormed) (hp : p.adrift = false)
    {part : String × Node → List (Path × Bool)}
    (hpart : ∀ e ∈ t.children p, Met t (covers (p.resolve e.1)) (part e)) :
    Met t p.isAbove ((t.children p).flatMap part) where
  nodup := by
    rw [List.map_flatMap, List.nodup_flatMap]
    refine ⟨fun e he => (hpart e he).nodup, ?_⟩
    refine (ascending_children hp t).imp_of_mem fun {e e'} he he' hlt => ?_
    intro r hr hr'
    obtain ⟨hcovers, n, hn⟩ := (hpart e he).mem_places_iff.1 hr
    obtain ⟨hcovers', -⟩ := (hpart e' he').mem_places_iff.1 hr'
    obtain ⟨q, -, hq⟩ := (mem_children_iff hp).1 he
    obtain ⟨q', -, hq'⟩ := (mem_children_iff hp).1 he'
    rw [hq.resolve_eq hp] at hcovers
    rw [hq'.resolve_eq hp] at hcovers'
    have hname := h.child_eq hp hn hq hq' hcovers hcovers'
    exact String.lt_irrefl _ (hname ▸ hlt)
  mem_iff r flag := by
    rw [List.mem_flatMap]
    constructor
    · rintro ⟨e, he, hr⟩
      obtain ⟨hcovers, n, hn, hflag⟩ := ((hpart e he).mem_iff r flag).1 hr
      obtain ⟨q, -, hq⟩ := (mem_children_iff hp).1 he
      rw [hq.resolve_eq hp] at hcovers
      exact ⟨isAbove_of_isChild hp hq (h.anchored hn) hcovers, n, hn, hflag⟩
    · rintro ⟨habove, n, hn, hflag⟩
      obtain ⟨q, k, name, hq, hk, hcovers⟩ := h.exists_child hp hn habove
      have he : (name, k) ∈ t.children p := (mem_children_iff hp).2 ⟨q, hk, hq⟩
      refine ⟨_, he, ((hpart _ he).mem_iff r flag).2 ⟨?_, n, hn, hflag⟩⟩
      rwa [hq.resolve_eq hp]

end Met

/-! ## The walk -/

/-- A walk that may go deeper than every place at or below a directory meets all that is below it. -/
theorem exists_walk (h : t.WellFormed) {depth : Nat} (hp : p.adrift = false) (hdir : t.IsDirectory p)
    (hdepth : ∀ q n, t.node? q = some n → covers p q = true →
      q.parts.length < p.parts.length + depth) :
    ∃ visited, walk t depth p = some visited ∧ Met t p.isAbove visited := by
  induction depth generalizing p with
  | zero =>
    obtain ⟨m, hm⟩ := hdir
    exact absurd (hdepth p _ hm (covers_self p)) (Nat.lt_irrefl _)
  | succ depth ih =>
    have hvisit : ∀ e ∈ t.children p, ∃ block,
        visit (walk t depth) p (listedName e) = some block ∧
          Met t (covers (p.resolve e.1)) block := by
      rintro ⟨name, n⟩ he
      obtain ⟨q, hn, hq⟩ := (mem_children_iff hp).1 he
      obtain ⟨hqa, hparts⟩ := (isChild_iff hp).1 hq
      rw [hq.resolve_eq hp]
      rcases n with ⟨data, m⟩ | m | d
      case directory =>
        obtain ⟨visited, hwalk, hmet⟩ := ih hqa ⟨m, hn⟩ fun r k hk hcovers => by
          have hpr := isAbove_of_isChild hp hq (h.anchored hk) hcovers
          have hlt := hdepth r k hk (covers_iff_eq_or_isAbove.2 (.inr hpr))
          rw [hparts, List.length_append, List.length_singleton]
          omega
        refine ⟨(q, true) :: visited, ?_, hmet.enter ⟨m, hn⟩⟩
        simp [visit, listedName, hq.resolve_eq hp, hwalk]
      all_goals
        refine ⟨[(q, false)], ?_, .single h hn (by simp)⟩
        simp [visit, listedName, hq.resolve_eq hp]
    choose! part hpart using hvisit
    refine ⟨(t.children p).flatMap part, ?_, .flatMap h hp fun e he => (hpart e he).2⟩
    have hall : (t.children p).mapM (visit (walk t depth) p ∘ listedName) =
        some ((t.children p).map part) := mapM_eq_some fun e he => (hpart e he).1
    rw [walk, list_ok hdir]
    simp only [List.mapM_map, hall]
    rfl

/-- The file at a place as a snapshot has it. -/
def savedAt? (t : FileTree) (p : Path) : Option SavedFile :=
  (t.node? p).bind fun n => savedFile? [] (p, n)

lemma savedAt?_eq_some_iff {f : SavedFile} : t.savedAt? p = some f ↔
    ∃ data m, t.node? p = some (.file data m) ∧ f = ⟨p.text, m, data⟩ := by
  rw [savedAt?, Option.bind_eq_some_iff]
  constructor
  · rintro ⟨n, hn, hf⟩
    obtain ⟨data, m, rfl, -, rfl⟩ := savedFile?_eq_some_iff.1 hf
    exact ⟨data, m, hn, rfl⟩
  · rintro ⟨data, m, hn, rfl⟩
    exact ⟨_, hn, savedFile?_eq_some_iff.2 ⟨data, m, rfl, by simp, rfl⟩⟩

/-- **The files of a walk from the root are those of a snapshot.** -/
lemma Met.files {visited : List (Path × Bool)} (h : t.WellFormed)
    (hv : Met t root.isAbove visited) :
    ((visited.map Prod.fst).filterMap t.savedAt?).Perm (t.snapshot []) := by
  have hmet : ((visited.map Prod.fst).filterMap t.savedAt?).Nodup := by
    refine hv.nodup.filterMap fun p q f hp hq => ?_
    obtain ⟨_, _, -, rfl⟩ := savedAt?_eq_some_iff.1 hp
    obtain ⟨_, _, -, heq⟩ := savedAt?_eq_some_iff.1 hq
    exact text_injective (congrArg SavedFile.path heq)
  have hsaved : (t.snapshot []).Nodup := (nodup_of_ascending (ascending_snapshot t [])).of_map
  refine (List.perm_ext_iff_of_nodup hmet hsaved).2 fun f => ?_
  rw [List.mem_filterMap, mem_snapshot_iff]
  constructor
  · rintro ⟨p, -, hp⟩
    obtain ⟨data, m, hn, rfl⟩ := savedAt?_eq_some_iff.1 hp
    exact ⟨p, data, m, hn, by simp, rfl⟩
  · rintro ⟨p, data, m, hn, -, rfl⟩
    refine ⟨p, hv.mem_places_iff.2 ⟨root_isAbove_iff.2 ?_, _, hn⟩,
      savedAt?_eq_some_iff.2 ⟨data, m, hn, rfl⟩⟩
    rintro rfl
    exact h.root_not_file hn

/-! ## Empty directories -/

lemma exists_removeDirectory_iff (hne : p ≠ root) (hdir : t.IsDirectory p) :
    (∃ u, removeDirectory p t = .ok () u) ↔ t.hasBelow p = false := by
  obtain ⟨m, hm⟩ := hdir
  rw [removeDirectory]
  simp only [if_neg hne, get_bind, hm]
  cases hb : t.hasBelow p with
  | true =>
    refine iff_of_false ?_ (by simp)
    rintro ⟨u, hu⟩
    cases hu
  | false => exact iff_of_true ⟨_, rfl⟩ rfl

/-- A directory has children if anything lies below it. -/
lemma children_eq_nil_iff (h : t.WellFormed) (hp : p.adrift = false) :
    t.children p = [] ↔ t.hasBelow p = false := by
  rw [hasBelow_eq_false_iff, List.eq_nil_iff_forall_not_mem]
  constructor
  · intro hnone q n hq habove
    obtain ⟨r, k, name, hr, hk, -⟩ := h.exists_child hp hq habove
    exact hnone (name, k) ((mem_children_iff hp).2 ⟨r, hk, hr⟩)
  · rintro hnone ⟨name, n⟩ he
    obtain ⟨q, hn, hq⟩ := (mem_children_iff hp).1 he
    exact hnone q n hn (isAbove_of_isChild hp hq (h.anchored hn) (covers_self q))

/-! ## Listings -/

lemma mem_map_listedName_iff (hp : p.adrift = false) {name : String} {flag : Bool} :
    (⟨name, flag⟩ : ListedName) ∈ (t.children p).map listedName ↔
      ∃ q n, IsChild p q name ∧ t.node? q = some n ∧ (flag = true ↔ ∃ m, n = .directory m) := by
  have hflag : ∀ n : Node, (listedName (name, n)).isDirectory = true ↔ ∃ m, n = .directory m := by
    rintro (⟨data, m⟩ | m | d) <;> simp [listedName]
  rw [List.mem_map]
  constructor
  · rintro ⟨⟨name', n⟩, he, heq⟩
    obtain ⟨q, hn, hq⟩ := (mem_children_iff hp).1 he
    obtain ⟨rfl, rfl⟩ := ListedName.mk.inj heq
    exact ⟨q, n, hq, hn, hflag n⟩
  · rintro ⟨q, n, hq, hn, hn'⟩
    refine ⟨(name, n), (mem_children_iff hp).2 ⟨q, hn, hq⟩, ?_⟩
    have heq : (listedName (name, n)).isDirectory = flag := by
      rw [Bool.eq_iff_iff, hflag, hn']
    rw [← heq]
    rfl

/-- **Listings and nodes agree.**  A directory is listed by a scan of the places, and what is listed
are its children, in ascending order and none twice; it can be removed exactly if nothing is listed,
unless it is the root, and that too is seen from a scan.  And a walk from the root that sees nothing
but listings meets every node once, so its files are those of a snapshot. -/
theorem listings_agree_with_nodes (h : t.WellFormed) :
    (∀ path, t.IsDirectory (ofText path) → ∃ names,
      list (ofText path) t = .ok names t ∧
      names = (t.scan (ofText path).inside).filterMap (scannedName? (ofText path).inside) ∧
      names.Pairwise (fun a b => a.name < b.name) ∧
      (∀ name flag, (⟨name, flag⟩ : ListedName) ∈ names ↔ ∃ q n, IsChild (ofText path) q name ∧
        t.node? q = some n ∧ (flag = true ↔ ∃ m, n = .directory m)) ∧
      (ofText path ≠ root → ((∃ u, removeDirectory (ofText path) t = .ok () u) ↔ names = [])) ∧
      t.hasBelow (ofText path) =
        (t.scan (ofText path).inside).any fun e => decide (e.1 ≠ ofText path)) ∧
    ∀ depth, (∀ q ∈ t.nodes.keys, q.parts.length < depth) → ∃ visited,
      walk t depth root = some visited ∧
      (visited.map Prod.fst).Nodup ∧
      (∀ q flag, (q, flag) ∈ visited ↔
        q ≠ root ∧ ∃ n, t.node? q = some n ∧ (flag = true ↔ ∃ m, n = .directory m)) ∧
      ((visited.map Prod.fst).filterMap t.savedAt?).Perm (t.snapshot []) := by
  constructor
  · intro path hdir
    have hp := adrift_ofText path
    have hlist := list_ok hdir
    refine ⟨(t.children (ofText path)).map listedName, hlist, ?_, ?_,
      fun name flag => mem_map_listedName_iff hp, fun hne => ?_, hasBelow_eq_scan hp t⟩
    · have hscan := hlist.symm.trans (list_eq_scan hp hdir)
      injection hscan
    · exact List.pairwise_map.2 (ascending_children hp t)
    · rw [exists_removeDirectory_iff hne hdir, ← children_eq_nil_iff h hp, List.map_eq_nil_iff]
  · intro depth hdepth
    have hbound : ∀ q n, t.node? q = some n → covers root q = true →
        q.parts.length < root.parts.length + depth := fun q n hq _ => by
      simpa using hdepth q (Dict.mem_keys_iff.2 ⟨n, hq⟩)
    obtain ⟨visited, hwalk, hmet⟩ := exists_walk h adrift_root h.rooted hbound
    refine ⟨visited, hwalk, hmet.nodup, fun q flag => ?_, hmet.files h⟩
    rw [hmet.mem_iff, root_isAbove_iff]

/-- A directory, a file whose text runs between those of the directory and of what is in it, and one
that lies deeper. -/
def interleaved : FileTree :=
  run [(1, .makeDirectories "/a/c"), (2, .openPath "/a.txt" ⟨true, true, true, false, false, false⟩),
    (3, .openPath "/a/b" ⟨true, true, true, false, false, false⟩),
    (4, .openPath "/a/c/d" ⟨true, true, true, false, false, false⟩)] (fresh 0)

/-- All of it is met on a walk, and the listing of the directory leaves out the other two. -/
theorem listings_agree_with_nodes_interleaved :
    interleaved.IsDirectory (ofText "/a") ∧
    (∃ names, list (ofText "/a") interleaved = .ok names interleaved ∧ ∀ name flag,
      (⟨name, flag⟩ : ListedName) ∈ names ↔ ∃ q n, IsChild (ofText "/a") q name ∧
        interleaved.node? q = some n ∧ (flag = true ↔ ∃ m, n = .directory m)) ∧
    (∀ q ∈ interleaved.nodes.keys, q.parts.length < 4) ∧
    ∃ visited, walk interleaved 4 root = some visited ∧
      visited.map (fun v => (v.1.text, v.2)) =
        [("/a", true), ("/a/b", false), ("/a/c", true), ("/a/c/d", false), ("/a.txt", false)] ∧
      ((visited.map Prod.fst).filterMap interleaved.savedAt?).Perm (interleaved.snapshot []) := by
  have hdir : interleaved.IsDirectory (ofText "/a") := ⟨1, by decide +kernel⟩
  have hdepth : ∀ q ∈ interleaved.nodes.keys, q.parts.length < 4 := by decide +kernel
  have hwell : interleaved.WellFormed := (WellFormed.fresh 0).run _
  obtain ⟨lists, walks⟩ := listings_agree_with_nodes hwell
  obtain ⟨names, hlist, -, -, hnames, -⟩ := lists "/a" hdir
  obtain ⟨visited, hwalk, -, -, hfiles⟩ := walks 4 hdepth
  refine ⟨hdir, ⟨names, hlist, hnames⟩, hdepth, visited, hwalk, ?_, hfiles⟩
  have hseen : (walk interleaved 4 root).map (List.map fun v => (v.1.text, v.2)) =
      some [("/a", true), ("/a/b", false), ("/a/c", true), ("/a/c/d", false), ("/a.txt", false)] := by
    decide +kernel
  rw [hwalk] at hseen
  exact Option.some.inj hseen

end GuestShell.FileTree
