import GuestShell.Proofs.FileTree.Transplant
import Mathlib.Logic.Relation

/-!
# Trees are well formed

Nothing in a tree links a node to its directory: there are only places, each with a node.  That every
node can be reached from the root through directories is an invariant that each operation keeps by
its own checks.

`Edit` says once what can be done to the nodes of a tree, with the check that allows it, and an edit
keeps a tree well formed (`Edit.wellFormed`).  That leaves each operation with one question: which
edits it comes to.
-/

namespace GuestShell.FileTree

open GuestShell.Path Relation

variable {t u : FileTree}

/-- A tree whose nodes can all be reached from the root. -/
structure WellFormed (t : FileTree) : Prop where
  /-- Every place has a canonical text, and the text names it. -/
  canonical : ∀ p ∈ t.nodes.keys, (ofText p.text).text = p.text
  rooted : t.IsDirectory Path.root
  /-- Every place but the root lies in a directory. -/
  held : ∀ p ∈ t.nodes.keys, p ≠ Path.root → ∃ q, p.parent? = some q ∧ t.IsDirectory q

/-- What a tree needs so that a subtree can be moved in it: all places lie in directories, whether they
have a canonical text or not. -/
structure Connected (t : FileTree) : Prop where
  rooted : t.IsDirectory Path.root
  held : ∀ p n, t.node? p = some n → t.IsHeld p

/-! ## What is known of a well-formed tree -/

lemma node?_withNode (t : FileTree) (p q : Path) (n : Node) :
    (t.withNode p n).node? q = if q = p then some n else t.node? q :=
  Dict.find?_insert t.nodes p q n

lemma node?_withoutNode (t : FileTree) (p q : Path) :
    (t.withoutNode p).node? q = if q = p then none else t.node? q :=
  Dict.find?_erase t.nodes p q

lemma hasPlace_iff {p : Path} : t.hasPlace p = true ↔ ∃ n, t.node? p = some n :=
  Option.isSome_iff_exists

lemma hasBelow_eq_false_iff {p : Path} :
    t.hasBelow p = false ↔ ∀ q n, t.node? q = some n → ¬p.isAbove q = true := by
  simp only [hasBelow, List.any_eq_false, Dict.mem_keys_iff]
  exact ⟨fun h q n hq => h q ⟨n, hq⟩, fun h q ⟨n, hq⟩ => h q n hq⟩

namespace Connected

variable (h : t.Connected)

include h

/-- What a node lies below is a directory. -/
lemma isDirectory_of_isAbove {p q : Path} {n : Node} (hp : p.adrift = false)
    (hq : t.node? q = some n) (habove : p.isAbove q = true) : t.IsDirectory p := by
  by_cases hroot : p = Path.root
  · exact hroot ▸ h.rooted
  have hqa : q.adrift = false :=
    adrift_of_covers hp hroot (covers_iff_eq_or_isAbove.2 (.inr habove))
  obtain ⟨⟨rest, hrest⟩, hne⟩ := (isAbove_iff hp hqa).1 habove
  induction rest using List.reverseRecOn generalizing q n with
  | nil => exact absurd (ext_parts hp hqa (by simpa using hrest)) hne
  | append_singleton rest name ih =>
    have hproper : ∀ s ∈ p.parts ++ rest, IsName s := fun s hs =>
      q.proper s (by rw [← hrest]; simp only [List.mem_append] at hs ⊢; tauto)
    have hparent : q.parent? = some (ofParts (p.parts ++ rest) hproper false) :=
      (parent?_eq_some_iff hqa).2
        ⟨by simp [ofParts], name, hrest.symm.trans (List.append_assoc _ _ _).symm⟩
    have hanchored : (ofParts (p.parts ++ rest) hproper false).adrift = false := by simp [ofParts]
    obtain ⟨m, hm⟩ := h.held q n hq _ hparent
    by_cases heq : p = ofParts (p.parts ++ rest) hproper false
    · exact ⟨m, heq ▸ hm⟩
    · have habove := (isAbove_iff hp hanchored).2 ⟨List.prefix_append _ _, heq⟩
      exact ih hm habove hanchored heq rfl

/-- Nothing lies below what is no directory. -/
lemma not_isAbove {p q : Path} {n : Node} (hp : p.adrift = false)
    (hno : ¬t.IsDirectory p) (hq : t.node? q = some n) : ¬p.isAbove q = true :=
  fun habove => hno (h.isDirectory_of_isAbove hp hq habove)

/-- What a rename asks is enough to move the subtree. -/
lemma transplantable {source target : Path} (hs : source.adrift = false)
    (ht : target.adrift = false) (can : t.CanMove source target) :
    t.Transplantable source target := by
  obtain ⟨hne, hpresent, houtside, -, hvacant⟩ := can
  obtain ⟨n, hn⟩ := hasPlace_iff.1 hpresent
  have hbelow : ∀ p k, t.node? p = some k → ¬target.isAbove p = true := by
    intro p k hp
    by_cases hdir : t.IsDirectory target
    · exact hasBelow_eq_false_iff.1 (hvacant hdir) p k hp
    · exact h.not_isAbove ht hdir hp
  have hroot : target ≠ Path.root := by
    rintro rfl
    exact hbelow source n hn (root_isAbove_iff.2 hne)
  exact
    { present := ⟨n, hn⟩
      source_anchored := hs
      target_anchored := ht
      target_ne_root := hroot
      outside := by simp [covers_iff_eq_or_isAbove, hne, houtside]
      above := by simp [covers_iff_eq_or_isAbove, Ne.symm hne, hbelow source n hn]
      vacant := hbelow }

/-- Moving a subtree leaves no place without its directory. -/
lemma transplanted {source target : Path} (hs : source.adrift = false)
    (ht : target.adrift = false) (can : t.CanMove source target) :
    (t.transplanted source target).Connected := by
  have hmv := h.transplantable hs ht can
  have hsource := hmv.source_ne_root
  have htarget := hmv.target_ne_root
  have hiff := fun q n => hmv.node?_transplanted_iff (q := q) (n := n)
  -- a directory that is neither below the source nor at the target is still there
  have stays : ∀ q, ¬covers source q = true → q ≠ target → t.IsDirectory q →
      (t.transplanted source target).IsDirectory q :=
    fun q hsq hne ⟨m, hm⟩ => ⟨m, (hiff q _).2 (.inr ⟨hsq, hne, hm⟩)⟩
  constructor
  case rooted =>
    exact stays _ (fun hroot => hsource (eq_root_of_covers_root hs hroot)) htarget.symm h.rooted
  case held =>
    intro q n hq r hr
    rcases (hiff q n).1 hq with ⟨p, hsp, hp, rfl⟩ | ⟨hsq, hne, hqt⟩
    · by_cases hpsource : p = source
      · -- the source itself: what holds the target is not moved
        rw [hpsource, moved_self ht htarget] at hr
        refine stays r ?_ ?_ (can.held r hr)
        · exact fun hsr => hmv.outside (covers_of_parent? hs ht hr hsr)
        · rintro rfl
          exact ((isAbove_iff ht ht).1 (isAbove_of_parent? ht hr)).2 rfl
      · obtain ⟨d, hd⟩ := exists_parent? (p := p) (by
          rintro rfl
          exact hsource (eq_root_of_covers_root hs hsp))
        have hpa := hmv.anchored_of_covers hsp
        have hsd := covers_parent? hs hpa hd hsp hpsource
        obtain ⟨m, hm⟩ := h.held p n hp d hd
        have hparent := parent?_moved hs ht htarget hpa hd hsd
        obtain rfl := Option.some.inj (hr.symm.trans hparent)
        exact ⟨m, (hiff _ _).2 (.inl ⟨d, hsd, hm, rfl⟩)⟩
    · refine stays r ?_ ?_ (h.held q n hqt r hr)
      · intro hsr
        have hroot : r ≠ Path.root := fun hroot => hsource (eq_root_of_covers_root hs (hroot ▸ hsr))
        have hqa := (adrift_of_parent? hr hroot).trans (hmv.anchored_of_covers hsr)
        exact hsq (covers_of_parent? hs hqa hr hsr)
      · rintro rfl
        exact hmv.vacant q n hqt (isAbove_of_parent? ((adrift_of_parent? hr htarget).trans ht) hr)

end Connected

namespace WellFormed

/-- The invariant, told by nodes instead of keys. -/
lemma of_nodes (anchored : ∀ p n, t.node? p = some n → p.adrift = false)
    (rooted : t.IsDirectory Path.root) (held : ∀ p n, t.node? p = some n → t.IsHeld p) :
    t.WellFormed where
  canonical p hp := by
    obtain ⟨n, hn⟩ := Dict.mem_keys_iff.1 hp
    exact ofText_text_eq_iff.2 (anchored p n hn)
  rooted := rooted
  held p hp hne := by
    obtain ⟨n, hn⟩ := Dict.mem_keys_iff.1 hp
    obtain ⟨q, hq⟩ := exists_parent? hne
    exact ⟨q, hq, held p n hn q hq⟩

/-- Only the nodes matter. -/
lemma of_nodes_eq (h : t.WellFormed) (hu : u.nodes = t.nodes) : u.WellFormed := by
  obtain ⟨canonical, ⟨m, rooted⟩, held⟩ := h
  have hnode : ∀ p, u.node? p = t.node? p := fun p => congrArg (Dict.find? · p) hu
  refine ⟨hu ▸ canonical, ⟨m, (hnode _).trans rooted⟩, fun p hp hne => ?_⟩
  obtain ⟨q, hq, m, hm⟩ := held p (hu ▸ hp) hne
  exact ⟨q, hq, m, (hnode q).trans hm⟩

variable (h : t.WellFormed)

include h

lemma anchored {p : Path} {n : Node} (hp : t.node? p = some n) : p.adrift = false :=
  ofText_text_eq_iff.1 (h.canonical p (Dict.mem_keys_iff.2 ⟨n, hp⟩))

lemma isHeld {p : Path} {n : Node} (hp : t.node? p = some n) : t.IsHeld p := by
  intro q hq
  have hne : p ≠ Path.root := by
    rintro rfl
    simp [parent?_root] at hq
  obtain ⟨r, hr, hdir⟩ := h.held p (Dict.mem_keys_iff.2 ⟨n, hp⟩) hne
  obtain rfl : r = q := Option.some.inj (hr.symm.trans hq)
  exact hdir

lemma root_not_file {data : Bytes} {m : Moment} : t.node? Path.root ≠ some (.file data m) := by
  obtain ⟨m, hm⟩ := h.rooted
  simp [hm]

lemma connected : t.Connected := ⟨h.rooted, fun _ _ => h.isHeld⟩

/-- What a node lies below is a directory. -/
lemma isDirectory_of_isAbove {p q : Path} {n : Node} (hp : p.adrift = false)
    (hq : t.node? q = some n) (habove : p.isAbove q = true) : t.IsDirectory p :=
  h.connected.isDirectory_of_isAbove hp hq habove

end WellFormed

/-! ## Edits -/

/-- What one operation can do to the nodes of a tree. -/
inductive Edit (t u : FileTree) : Prop
  | kept (hu : u.nodes = t.nodes)
  /-- A node where nothing was, in a directory. -/
  | added (p : Path) (n : Node) (hp : p.adrift = false) (absent : t.node? p = none)
      (held : t.IsHeld p) (hu : u.nodes = (t.withNode p n).nodes)
  /-- Other contents for a file. -/
  | rewritten (p : Path) (data data' : Bytes) (m m' : Moment)
      (found : t.node? p = some (.file data m)) (hu : u.nodes = (t.withNode p (.file data' m')).nodes)
  /-- No node any more where a file or an empty directory was. -/
  | removed (p : Path) (hp : p.adrift = false)
      (found : (∃ data m, t.node? p = some (.file data m)) ∨
        (p ≠ Path.root ∧ t.hasBelow p = false))
      (hu : u.nodes = (t.withoutNode p).nodes)
  /-- A subtree at another place. -/
  | moved (source target : Path) (hs : source.adrift = false) (ht : target.adrift = false)
      (can : t.CanMove source target) (hu : u.nodes = (t.transplanted source target).nodes)

namespace WellFormed

variable (h : t.WellFormed)

include h

/-- A node can be put at a held place, unless it takes a directory's place. -/
lemma withNode {p : Path} {n : Node} (hp : p.adrift = false) (held : t.IsHeld p)
    (hdir : ¬t.IsDirectory p) : (t.withNode p n).WellFormed := by
  have hne : p ≠ Path.root := by
    rintro rfl
    exact hdir h.rooted
  have keeps : ∀ q, t.IsDirectory q → (t.withNode p n).IsDirectory q := by
    rintro q ⟨m, hm⟩
    refine ⟨m, ?_⟩
    rw [node?_withNode, if_neg, hm]
    rintro rfl
    exact hdir ⟨m, hm⟩
  refine of_nodes ?_ (keeps _ h.rooted) ?_
  · intro q k hq
    rw [node?_withNode] at hq
    split_ifs at hq with heq
    · exact heq ▸ hp
    · exact h.anchored hq
  · intro q k hq r hr
    rw [node?_withNode] at hq
    split_ifs at hq with heq
    · exact keeps r (held r (heq ▸ hr))
    · exact keeps r (h.isHeld hq r hr)

/-- A node below which nothing lies can be taken away, unless it is the root. -/
lemma withoutNode {p : Path} (hp : p.adrift = false) (hne : p ≠ Path.root)
    (hbelow : t.hasBelow p = false) : (t.withoutNode p).WellFormed := by
  have hbelow := hasBelow_eq_false_iff.1 hbelow
  refine of_nodes ?_ ?_ ?_
  · intro q n hq
    rw [node?_withoutNode] at hq
    split_ifs at hq
    exact h.anchored hq
  · obtain ⟨m, hm⟩ := h.rooted
    exact ⟨m, by rw [node?_withoutNode, if_neg (Ne.symm hne), hm]⟩
  · intro q n hq r hr
    rw [node?_withoutNode] at hq
    split_ifs at hq
    obtain ⟨m, hm⟩ := h.isHeld hq r hr
    refine ⟨m, ?_⟩
    rw [node?_withoutNode, if_neg, hm]
    rintro rfl
    exact hbelow q n hq (isAbove_of_parent? (h.anchored hq) hr)

/-- A node can be put in the place of any but the root below which nothing lies. -/
lemma replaced {p : Path} {n : Node} (hp : p.adrift = false) (hne : p ≠ Path.root)
    (hbelow : t.hasBelow p = false) (held : t.IsHeld p) : (t.withNode p n).WellFormed := by
  have hwithout := h.withoutNode hp hne hbelow
  have hnode : ∀ q, ((t.withoutNode p).withNode p n).node? q = (t.withNode p n).node? q := by
    intro q
    rw [node?_withNode, node?_withNode, node?_withoutNode]
    split_ifs <;> rfl
  have hheld : (t.withoutNode p).IsHeld p := by
    intro q hq
    obtain ⟨m, hm⟩ := held q hq
    refine ⟨m, ?_⟩
    rw [node?_withoutNode, if_neg, hm]
    rintro rfl
    exact ((isAbove_iff hp hp).1 (isAbove_of_parent? hp hq)).2 rfl
  have hput := hwithout.withNode (n := n) hp hheld fun ⟨m, hm⟩ => by
    rw [node?_withoutNode, if_pos rfl] at hm
    cases hm
  refine of_nodes (fun q k hq => hput.anchored ((hnode q).trans hq)) ?_ fun q k hq r hr => ?_
  · obtain ⟨m, hm⟩ := hput.rooted
    exact ⟨m, (hnode _).symm.trans hm⟩
  · obtain ⟨m, hm⟩ := hput.isHeld ((hnode q).trans hq) r hr
    exact ⟨m, (hnode r).symm.trans hm⟩

/-- Moving a subtree keeps a tree well formed. -/
lemma transplanted {source target : Path} (hs : source.adrift = false)
    (ht : target.adrift = false) (can : t.CanMove source target) :
    (t.transplanted source target).WellFormed := by
  have hmv := h.connected.transplantable hs ht can
  have hconnected := h.connected.transplanted hs ht can
  refine of_nodes ?_ hconnected.rooted hconnected.held
  intro q n hq
  rcases hmv.node?_transplanted_iff.1 hq with ⟨p, -, -, rfl⟩ | ⟨-, -, hq⟩
  · exact hmv.anchored_moved p
  · exact h.anchored hq

end WellFormed

/-- **An edit keeps a tree well formed.** -/
theorem Edit.wellFormed (e : Edit t u) (h : t.WellFormed) : u.WellFormed := by
  cases e with
  | kept hu => exact h.of_nodes_eq hu
  | added p n hp absent held hu =>
    refine (h.withNode hp held ?_).of_nodes_eq hu
    rintro ⟨m, hm⟩
    simp [absent] at hm
  | rewritten p data data' m m' found hu =>
    refine (h.withNode (h.anchored found) (h.isHeld found) ?_).of_nodes_eq hu
    rintro ⟨m, hm⟩
    simp [found] at hm
  | removed p hp found hu =>
    rcases found with ⟨data, m, found⟩ | ⟨hne, hbelow⟩
    · refine (h.withoutNode hp ?_ ?_).of_nodes_eq hu
      · rintro rfl
        exact h.root_not_file found
      · refine hasBelow_eq_false_iff.2 fun q n hq => h.connected.not_isAbove hp ?_ hq
        rintro ⟨m, hm⟩
        simp [found] at hm
    · exact (h.withoutNode hp hne hbelow).of_nodes_eq hu
  | moved source target hs ht can hu => exact (h.transplanted hs ht can).of_nodes_eq hu

/-- Edits, one after another. -/
abbrev Edits : FileTree → FileTree → Prop := ReflTransGen Edit

theorem Edits.wellFormed (es : Edits t u) (h : t.WellFormed) : u.WellFormed := by
  induction es with
  | refl => exact h
  | tail _ e ih => exact e.wellFormed ih

end GuestShell.FileTree
