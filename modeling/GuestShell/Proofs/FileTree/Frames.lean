import GuestShell.Proofs.FileTree.Handles

/-!
# What a request leaves alone

**Open files.**  An open file is changed through its own handle, or by a rename that takes its place
along, and in no other way (`OpenedBy.get?_eq`); and no request but a rename gives it another place
(`OpenedBy.path_eq`).

**Accesses.**  An access through a handle sees the open file under this handle and the node at its
place, and nothing else of the tree (`Access.agrees`); and it changes nothing else (`Access.frame`).
That something is not found is what it says exactly if nothing that it needs is there
(`Access.ask_missing`, `Access.ask_found`).  `Access.isLocal` has all of this together.
-/

namespace GuestShell.FileTree

open GuestShell.Path

variable {α β : Type} {t u : FileTree} {now : Moment} {handle k : Nat} {f : OpenFile} {p : Path}

/-! ## Open files -/

lemma get?_withPosition_of_ne {position : Nat} (hne : handle ≠ k) :
    (t.withPosition handle position).opened.get? k = t.opened.get? k := by
  rw [withPosition, Slots.get?_modify, if_neg hne.symm]

lemma path_withPosition {position : Nat} :
    ((t.withPosition handle position).opened.get? k).map OpenFile.path =
      (t.opened.get? k).map OpenFile.path := by
  by_cases hne : handle = k
  · subst hne
    rw [withPosition, Slots.get?_modify, if_pos rfl, Option.map_map]
    rfl
  · rw [get?_withPosition_of_ne hne]

lemma get?_transplanted_of_not_covers {source target : Path} (hf : t.opened.get? k = some f)
    (hcovers : ¬covers source f.path = true) :
    (t.transplanted source target).opened.get? k = some f := by
  rw [transplanted, Slots.get?_map, hf, Option.map_some, if_neg hcovers]

namespace OpenedBy

variable {op : Operation}

/-- The numbers of open files are in order after every request. -/
lemma sound (h : OpenedBy t u op) (hs : t.opened.Sound) : u.opened.Sound := by
  cases h with
  | kept h => exact h ▸ hs
  | placed hop h => exact h ▸ hs.modify
  | inserted f h => exact h ▸ hs.insert
  | removed h => exact h ▸ hs.remove
  | carried can h => exact h ▸ hs.map

/-- What goes through other handles, or by name, leaves an open file as it is, unless its place is
moved. -/
lemma get?_eq (h : OpenedBy t u op) (hs : t.opened.Sound) (hf : t.opened.get? k = some f)
    (hop : op.handle? ≠ some k) (hmoves : ∀ source target, op = .rename source target →
      t.CanMove (ofText source) (ofText target) → ¬covers (ofText source) f.path = true) :
    u.opened.get? k = some f := by
  cases h with
  | kept h => rw [h, hf]
  | placed hplaced h =>
    have hne : _ ≠ k := fun heq => hop (heq ▸ hplaced)
    rw [h, get?_withPosition_of_ne hne, hf]
  | inserted g h =>
    have hne : k ≠ t.opened.next := by
      rintro rfl
      rw [hs.get?_next] at hf
      cases hf
    rw [h, hs.get?_insert, if_neg hne, hf]
  | removed h =>
    rw [h, Slots.get?_remove, if_neg fun heq => hop (congrArg some heq.symm), hf]
  | carried can h =>
    rw [h]
    exact get?_transplanted_of_not_covers hf (hmoves _ _ rfl can)

/-- Open files stay at their places, unless a handle is opened or closed or something moves. -/
lemma path_eq (h : OpenedBy t u op) (hturns : op.turnsHandles = false)
    (hmoves : ∀ source target, op ≠ .rename source target) (k : Nat) :
    (u.opened.get? k).map OpenFile.path = (t.opened.get? k).map OpenFile.path := by
  cases h with
  | kept h => rw [h]
  | placed hplaced h => rw [h, path_withPosition]
  | inserted f h => cases hturns
  | removed h => cases hturns
  | carried can h => exact absurd rfl (hmoves _ _)

end OpenedBy

/-! ## Accesses see one place -/

/-- What an access answers. -/
inductive Answer where
  | bytes (chunk : Bytes)
  | number (n : Nat)
  | known (m : Metadata)
  | done

/-- Uses an open file, and gives the answer. -/
def Access.ask (now : Moment) (handle : Nat) : Access → Action Answer
  | .read len => do return .bytes (← FileTree.read handle len)
  | .write chunk => do return .number (← FileTree.write now handle chunk)
  | .seek origin => do return .number (← FileTree.seek handle origin)
  | .setLength size => do
    FileTree.setLength now handle size
    return .done
  | .describe => do return .known (← handleMetadata handle)

/-- What an action answers, or why it fails. -/
def answer (a : Action α) (t : FileTree) : Except FileError α :=
  match a t with
  | .ok v _ => .ok v
  | .error e _ => .error e

/-- Two trees with the same open file under a handle, and the same at its place. -/
structure Alike (handle : Nat) (p : Path) (t u : FileTree) : Prop where
  opened : ∃ f, f.path = p ∧ t.opened.get? handle = some f ∧ u.opened.get? handle = some f
  node : t.node? p = u.node? p

/-- On trees that are alike the action gives the same answer or fails for the same reason, and the
trees are alike afterwards. -/
def Agrees (handle : Nat) (p : Path) (a : Action α) : Prop :=
  ∀ t u, Alike handle p t u → answer a t = answer a u ∧ Alike handle p (after a t) (after a u)

lemma agrees_pure (v : α) : Agrees handle p (pure v : Action α) := fun _ _ h => ⟨rfl, h⟩

lemma agrees_throw (e : FileError) : Agrees handle p (throw e : Action α) := fun _ _ h => ⟨rfl, h⟩

lemma agrees_bind {a : Action α} {g : α → Action β} (ha : Agrees handle p a)
    (hg : ∀ v, Agrees handle p (g v)) : Agrees handle p (a >>= g) := by
  intro t u h
  obtain ⟨hanswer, halike⟩ := ha t u h
  cases ht : a t with
  | ok v t' =>
    cases hu : a u with
    | error e u' => simp [answer, ht, hu] at hanswer
    | ok w u' =>
      obtain rfl : v = w := by simpa [answer, ht, hu] using hanswer
      rw [after_ok ht, after_ok hu] at halike
      simpa only [answer, after, bind_ok ht, bind_ok hu] using hg v t' u' halike
  | error e t' =>
    cases hu : a u with
    | ok w u' => simp [answer, ht, hu] at hanswer
    | error e' u' =>
      rw [after_error ht, after_error hu] at halike
      simp only [answer, after, bind_error ht, bind_error hu]
      simp only [answer, ht, hu] at hanswer
      exact ⟨by injection hanswer with he; rw [he], halike⟩

lemma agrees_guard {c : Prop} [Decidable c] {e : FileError} {a : Action α}
    (ha : Agrees handle p a) :
    Agrees handle p (if c then (throw e : Action Unit) >>= fun _ => a else a) := by
  split_ifs
  · exact agrees_bind (agrees_throw e) fun _ => ha
  · exact ha

lemma agrees_openFile_bind {g : OpenFile → Action β}
    (hg : ∀ f, f.path = p → Agrees handle p (g f)) : Agrees handle p (openFile handle >>= g) := by
  rintro t u ⟨⟨f, hp, ht, hu⟩, hnode⟩
  have halike : Alike handle p t u := ⟨⟨f, hp, ht, hu⟩, hnode⟩
  simpa only [answer, after, bind_ok (openFile_ok ht), bind_ok (openFile_ok hu)] using
    hg f hp t u halike

lemma agrees_fileAt : Agrees handle p (fileAt p) := by
  intro t u h
  simp only [answer, after, fileAt, get_bind, ← h.node]
  rcases t.node? p with _ | (_ | _ | _) <;> exact ⟨rfl, h⟩

lemma agrees_metadata : Agrees handle p (metadata p) := by
  intro t u h
  simp only [answer, after, metadata, get_bind, ← h.node]
  rcases t.node? p with _ | (_ | _ | _) <;> exact ⟨rfl, h⟩

lemma agrees_setPosition (position : Nat) : Agrees handle p (setPosition handle position) := by
  rintro t u ⟨⟨f, hp, ht, hu⟩, hnode⟩
  exact ⟨rfl, ⟨{ f with position := position }, hp, get?_withPosition ht position,
    get?_withPosition hu position⟩, hnode⟩

lemma agrees_putNode (n : Node) : Agrees handle p (modify (·.withNode p n)) := by
  rintro t u ⟨hopened, -⟩
  refine ⟨rfl, hopened, ?_⟩
  show (t.withNode p n).node? p = (u.withNode p n).node? p
  rw [node?_withNode, node?_withNode, if_pos rfl, if_pos rfl]

/-- **What an access answers and does depends on the open file under its handle and on the node at
its place, and on nothing else.** -/
theorem Access.agrees (x : Access) (now : Moment) (hp : p.adrift = false) :
    Agrees handle p (x.ask now handle) := by
  cases x with
  | read len =>
    refine agrees_bind (agrees_openFile_bind fun f hf => agrees_guard ?_) fun _ => agrees_pure _
    rw [hf]
    refine agrees_bind agrees_fileAt fun _ => ?_
    exact agrees_bind (agrees_setPosition _) fun _ => agrees_pure _
  | write chunk =>
    refine agrees_bind (agrees_openFile_bind fun f hf => agrees_guard ?_) fun _ => agrees_pure _
    rw [hf]
    refine agrees_bind agrees_fileAt fun _ => agrees_guard ?_
    refine agrees_bind (agrees_putNode _) fun _ => ?_
    exact agrees_bind (agrees_setPosition _) fun _ => agrees_pure _
  | seek origin =>
    refine agrees_bind (agrees_openFile_bind fun f hf => ?_) fun _ => agrees_pure _
    rw [hf]
    refine agrees_bind agrees_fileAt fun contents => ?_
    dsimp only
    cases Origin.position? contents.1.length f.position origin with
    | none => exact agrees_throw _
    | some position => exact agrees_bind (agrees_setPosition _) fun _ => agrees_pure _
  | setLength size =>
    refine agrees_bind ?_ fun _ => agrees_pure _
    rw [FileTree.setLength, handlePath, bind_assoc]
    refine agrees_openFile_bind fun f hf => ?_
    rw [pure_bind, hf]
    exact agrees_bind agrees_fileAt fun _ => agrees_guard (agrees_putNode _)
  | describe =>
    refine agrees_bind ?_ fun _ => agrees_pure _
    rw [handleMetadata, handlePath, bind_assoc]
    refine agrees_openFile_bind fun f hf => ?_
    rw [pure_bind, hf, anchored_eq_self hp]
    exact agrees_metadata

/-! ## Accesses change one place -/

/-- The tree `u` differs from `t` in the node at one place and the position of one open file only. -/
structure Frame (handle : Nat) (p : Path) (t u : FileTree) : Prop where
  nodes : ∀ q, q ≠ p → u.node? q = t.node? q
  opened : ∀ k, k ≠ handle → u.opened.get? k = t.opened.get? k
  path : (u.opened.get? handle).map OpenFile.path = (t.opened.get? handle).map OpenFile.path

namespace Frame

lemma refl : Frame handle p t t := ⟨fun _ _ => rfl, fun _ _ => rfl, rfl⟩

lemma withPosition {position : Nat} : Frame handle p t (t.withPosition handle position) :=
  ⟨fun _ _ => rfl, fun _ hk => get?_withPosition_of_ne hk.symm, path_withPosition⟩

lemma withNode {n : Node} : Frame handle p t (t.withNode p n) :=
  ⟨fun q hq => by rw [node?_withNode, if_neg hq], fun _ _ => rfl, rfl⟩

lemma trans {v : FileTree} (h : Frame handle p t u) (h' : Frame handle p u v) :
    Frame handle p t v :=
  ⟨fun q hq => (h'.nodes q hq).trans (h.nodes q hq),
    fun k hk => (h'.opened k hk).trans (h.opened k hk), h'.path.trans h.path⟩

end Frame

/-- **An access changes nothing but the node at its place and its position.** -/
theorem Access.frame (x : Access) (hf : t.opened.get? handle = some f) :
    Frame handle f.path t (after (x.ask now handle) t) := by
  cases x with
  | read len =>
    rw [Access.ask, after_map]
    rcases read_cases handle len t with ⟨e, h⟩ | ⟨_, _, _, -, -, h⟩
    · rw [after_error h]
      exact .refl
    · rw [after_ok h]
      exact .withPosition
  | write chunk =>
    rw [Access.ask, after_map]
    rcases write_cases now handle chunk t with ⟨e, h⟩ | ⟨g, _, _, _, hg, -, -, -, h⟩
    · rw [after_error h]
      exact .refl
    · obtain rfl := Option.some.inj (hf.symm.trans hg)
      rw [after_ok h]
      exact Frame.withNode.trans .withPosition
  | seek origin =>
    rw [Access.ask, after_map]
    rcases seek_cases handle origin t with ⟨e, h⟩ | ⟨_, _, _, _, -, -, -, h⟩
    · rw [after_error h]
      exact .refl
    · rw [after_ok h]
      exact .withPosition
  | setLength size =>
    rw [Access.ask, after_map]
    rcases setLength_cases now handle size t with ⟨e, h⟩ | ⟨g, _, _, hg, -, -, h⟩
    · rw [after_error h]
      exact .refl
    · obtain rfl := Option.some.inj (hf.symm.trans hg)
      rw [after_ok h]
      exact .withNode
  | describe =>
    rw [Access.ask, after_map, looks_handleMetadata handle t]
    exact .refl

/-! ## Accesses to what is not there -/

/-- Whether an open file may be used in this way. -/
def Access.Allowed (f : OpenFile) : Access → Prop
  | .read _ => f.readable = true
  | .write _ => f.writable = true
  | _ => True

/-- What an access needs at its place: a file, unless it only asks what is there. -/
def Access.Finds (t : FileTree) (p : Path) : Access → Prop
  | .describe => t.hasPlace p = true
  | _ => ∃ data m, t.node? p = some (.file data m)

lemma fileAt_missing (hp : ¬∃ data m, t.node? p = some (.file data m)) :
    fileAt p t = .error (.noFile p) t := by
  rcases fileAt_cases p t with h | ⟨data, m, hn, -⟩
  · exact h
  · exact absurd ⟨data, m, hn⟩ hp

/-- **What is not there is not found**, and asking for it changes nothing. -/
theorem Access.ask_missing (x : Access) (hf : t.opened.get? handle = some f)
    (hpath : f.path.adrift = false) (hallowed : x.Allowed f) (hfinds : ¬x.Finds t f.path) :
    ∃ e, x.ask now handle t = .error e t ∧ e.kind = .notFound := by
  have hopen := openFile_ok hf
  have hplace : handlePath handle t = .ok f.path t := bind_ok hopen
  cases x with
  | read len =>
    refine ⟨.noFile f.path, bind_error ?_, rfl⟩
    rw [FileTree.read, bind_ok hopen]
    simp only [show f.readable = true from hallowed, Bool.not_true, Bool.false_eq_true, if_false]
    exact bind_error (fileAt_missing hfinds)
  | write chunk =>
    refine ⟨.noFile f.path, bind_error ?_, rfl⟩
    rw [FileTree.write, bind_ok hopen]
    simp only [show f.writable = true from hallowed, Bool.not_true, Bool.false_eq_true, if_false]
    exact bind_error (fileAt_missing hfinds)
  | seek origin =>
    refine ⟨.noFile f.path, bind_error ?_, rfl⟩
    rw [FileTree.seek, bind_ok hopen]
    exact bind_error (fileAt_missing hfinds)
  | setLength size =>
    refine ⟨.noFile f.path, bind_error ?_, rfl⟩
    rw [FileTree.setLength, bind_ok hplace]
    exact bind_error (fileAt_missing hfinds)
  | describe =>
    refine ⟨.noPlace f.path, bind_error ?_, rfl⟩
    rw [handleMetadata, bind_ok hplace, anchored_eq_self hpath, metadata, get_bind]
    have hnone : t.node? f.path = none := by simpa [Access.Finds, hasPlace] using hfinds
    rw [hnone]
    rfl

/-- What is not allowed is refused, whatever is at the place. -/
theorem Access.ask_forbidden (x : Access) (hf : t.opened.get? handle = some f)
    (hallowed : ¬x.Allowed f) :
    ∃ e, x.ask now handle t = .error e t ∧ e.kind = .permissionDenied := by
  cases x with
  | read len =>
    refine ⟨.notReadable, bind_error ?_, rfl⟩
    have hreadable : f.readable = false := by simpa [Access.Allowed] using hallowed
    rw [FileTree.read, bind_ok (openFile_ok hf), hreadable]
    rfl
  | write chunk =>
    refine ⟨.notWritable, bind_error ?_, rfl⟩
    have hwritable : f.writable = false := by simpa [Access.Allowed] using hallowed
    rw [FileTree.write, bind_ok (openFile_ok hf), hwritable]
    rfl
  | seek _ => exact absurd trivial hallowed
  | setLength _ => exact absurd trivial hallowed
  | describe => exact absurd trivial hallowed

lemma error_of_map {a : Action α} {g : α → β} {e : FileError}
    (h : (a >>= fun v => pure (g v)) t = .error e u) : a t = .error e u := by
  cases ha : a t with
  | ok v t' =>
    rw [bind_ok ha] at h
    cases h
  | error e' t' =>
    rw [bind_error ha] at h
    cases h
    rfl

/-- **What is there is found**: whatever else is against an access. -/
theorem Access.ask_found (x : Access) (hf : t.opened.get? handle = some f)
    (hpath : f.path.adrift = false) (hfinds : x.Finds t f.path) {e : FileError}
    (h : x.ask now handle t = .error e u) : e.kind ≠ .notFound := by
  have hopen := openFile_ok hf
  have hplace : handlePath handle t = .ok f.path t := bind_ok hopen
  by_cases hallowed : x.Allowed f
  case neg =>
    obtain ⟨e', he', hkind⟩ : ∃ e', x.ask now handle t = .error e' t ∧
        e'.kind = .permissionDenied := x.ask_forbidden hf hallowed
    rw [he'] at h
    cases h
    simp [hkind]
  cases x with
  | read len =>
    obtain ⟨data, m, hn⟩ := hfinds
    cases (read_ok hf hallowed hn len).symm.trans (error_of_map h)
  | write chunk =>
    obtain ⟨data, m, hn⟩ := hfinds
    have h := error_of_map h
    rw [FileTree.write, bind_ok hopen] at h
    simp only [show f.writable = true from hallowed, Bool.not_true, Bool.false_eq_true, if_false,
      bind_ok (fileAt_ok hn)] at h
    by_cases hlong :
        maxLength < (if f.append then data.length else f.position) + chunk.length
    · simp only [if_pos hlong] at h
      cases h
      simp [FileError.kind]
    · simp only [if_neg hlong] at h
      cases h
  | seek origin =>
    obtain ⟨data, m, hn⟩ := hfinds
    have h := error_of_map h
    rw [FileTree.seek, bind_ok hopen, bind_ok (fileAt_ok hn)] at h
    cases hp : Origin.position? data.length f.position origin with
    | none =>
      simp only [hp] at h
      cases h
      simp [FileError.kind]
    | some p =>
      simp only [hp] at h
      cases h
  | setLength size =>
    obtain ⟨data, m, hn⟩ := hfinds
    have h := error_of_map h
    rw [FileTree.setLength, bind_ok hplace, bind_ok (fileAt_ok hn)] at h
    split_ifs at h
    · cases h
      simp [FileError.kind]
    · cases h
  | describe =>
    have h := error_of_map h
    rw [handleMetadata, bind_ok hplace, anchored_eq_self hpath, metadata, get_bind] at h
    obtain ⟨n, hn⟩ := hasPlace_iff.1 hfinds
    rw [hn] at h
    rcases n with _ | _ | _ <;> cases h

/-- Of the tree `t` the access has to do with the open file `f` under its handle and with what is at
its place, and with nothing else. -/
structure Access.Local (now : Moment) (handle : Nat) (f : OpenFile) (t : FileTree) (x : Access) :
    Prop where
  frame : Frame handle f.path t (after (x.ask now handle) t)
  /-- Another tree may be different elsewhere. -/
  agrees : ∀ u, u.opened.get? handle = some f → u.node? f.path = t.node? f.path →
    answer (x.ask now handle) u = answer (x.ask now handle) t ∧
      (after (x.ask now handle) u).node? f.path = (after (x.ask now handle) t).node? f.path
  forbidden : ¬x.Allowed f →
    ∃ e, x.ask now handle t = .error e t ∧ e.kind = .permissionDenied
  missing : x.Allowed f → ¬x.Finds t f.path →
    ∃ e, x.ask now handle t = .error e t ∧ e.kind = .notFound
  found : x.Finds t f.path →
    ∀ e u, x.ask now handle t = .error e u → e.kind ≠ .notFound

/-- **Every access is local.** -/
theorem Access.isLocal (now : Moment) (x : Access) (hf : t.opened.get? handle = some f)
    (hpath : f.path.adrift = false) : x.Local now handle f t where
  frame := x.frame hf
  agrees u hu hnode := by
    obtain ⟨hanswer, halike⟩ := x.agrees now hpath u t ⟨⟨f, rfl, hu, hf⟩, hnode⟩
    exact ⟨hanswer, halike.node⟩
  forbidden := x.ask_forbidden hf
  missing := x.ask_missing hf hpath
  found hfinds _ _ := x.ask_found hf hpath hfinds

end GuestShell.FileTree
