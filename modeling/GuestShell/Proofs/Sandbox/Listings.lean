import GuestShell.Proofs.FileTree.Scans
import GuestShell.Proofs.Sandbox.Arguments
import GuestShell.Proofs.Sandbox.Breakdown
import GuestShell.Proofs.Sandbox.ListingLines

/-!
# Reading a directory to its end

A guest lists a directory with one call after another.  It takes the lines that a call has put into
its memory as a whole and goes on after the last of them, until a call does not fill the memory
(`listAll`).

However small the memory is, as long as it has room for the longest line, this comes to an end, and
then the guest has seen itself, the parent and every child of the directory, each once and in order
(`readdir_complete`).  A call changes nothing that the next one depends on (`page?_eq`), and the calls
need not follow one another at once: what else the guest does between them makes no difference if the
directory stays as it is.

A directory is told by its place, and children are looked up by their names, which works for places
that have a canonical text.  A descriptor never stands for a directory that is adrift
(`anchored_of_course`).
-/

namespace GuestShell.Libc

open GuestShell.FileTree GuestShell.System

variable {g q : Guest} {log : Log} {p : Path} {name : String} {type : FileType}

/-! ## Directories are anchored -/

/-- A directory that a descriptor stands for has a canonical text. -/
def AnchoredDirectories (_ : FileTree) (d : Slots Descriptor) : Prop :=
  ∀ k p name, d.get? k = some (.directory p name) → p.adrift = false

/-- If what is opened is a directory, it is the one at the place. -/
lemma ran_openPlace_directory {p' : Path} {f : OpenFlags} {preopen : Option String}
    (h : Ran (openPlace p f) g log (.ok (.directory p' preopen)) q) : p' = p := by
  rcases (looks_deviceAt p).ran_bind h with ⟨_, hr, -⟩ | ⟨_ | d, -, hrest⟩
  · cases hr
  · rcases (looks_isDirectory p).ran_bind hrest with ⟨_, hr, -⟩ | ⟨_ | _, -, hrest⟩
    · cases hr
    · simp only [Bool.false_eq_true, if_false] at hrest
      split_ifs at hrest
      · rw [ran_process_bind_iff] at hrest
        split_ifs at hrest <;> cases (ran_throw_iff.1 hrest).2.1
      · rcases ran_bind_iff.1 hrest with ⟨_, hr, -⟩ | ⟨_, _, _, _, -, -, hend⟩
        · cases hr
        · cases (ran_pure_iff.1 hend).2.1
    · simp only [if_true] at hrest
      split_ifs at hrest
      · cases (ran_throw_iff.1 hrest).2.1
      · cases (ran_throw_iff.1 hrest).2.1
      · cases (ran_pure_iff.1 hrest).2.1
        rfl
  · cases (ran_pure_iff.1 hrest).2.1

lemma AnchoredDirectories.insert {t u : FileTree} {ds : Slots Descriptor} {d : Descriptor}
    (h : AnchoredDirectories t ds) (hd : ∀ p name, d = .directory p name → p.adrift = false) :
    AnchoredDirectories u (ds.insert d) := by
  intro k p name hk
  rcases Slots.get?_insert_cases hk with hnew | hold
  · exact hd p name hnew.symm
  · exact h k p name hold

lemma anchored_perform (c : LibcCall) (args : List Value)
    {r : Except (Failure LibcError) Unit} (hg : AnchoredDirectories g.tree g.descriptors)
    (h : Ran (perform c args) g log r q) : AnchoredDirectories q.tree q.descriptors := by
  by_cases hopen : c = .pathOpen
  · subst hopen
    rcases (looks_path _ _ _).ran_bind h with ⟨_, -, -, rfl⟩ | ⟨p, hpath, hrest⟩
    · exact hg
    rcases ran_bind_iff.1 hrest with ⟨e, -, hfail⟩ | ⟨d, u, _, _, -, hplace, hrest⟩
    · rcases ran_openPlace hfail with ⟨rfl, -⟩ | ⟨_, _, hr, -⟩
      · exact hg
      · cases hr
    have hsame : u.descriptors = g.descriptors := by
      rcases ran_openPlace hplace with ⟨rfl, -⟩ | ⟨_, _, -, rfl, -⟩ <;> rfl
    have hd : ∀ p' name, d = .directory p' name → p'.adrift = false := by
      rintro p' name rfl
      rw [ran_openPlace_directory hplace]
      exact adrift_of_path hpath
    rw [ran_addDescriptor_bind_iff, hsame] at hrest
    obtain ⟨-, ⟨_, -, -, rfl⟩ | ⟨_, -, -, rfl⟩⟩ := ran_writing_iff.1 hrest <;>
    exact hg.insert hd
  · refine (keeps_perform (R := AnchoredDirectories) args ?_ (absurd · hopen) ?_).ran hg h
    · exact fun op _ now t d hd => hd
    · intro _ t d k hd j p name hj
      rw [Slots.get?_remove] at hj
      split_ifs at hj
      exact hd j p name hj

/-- **All along a run, no descriptor stands for a directory that is adrift.** -/
theorem anchored_of_course {now : Moment} {environment : List (String × String)} {i : Invocation}
    (h : Course now environment i g) : AnchoredDirectories g.tree g.descriptors := by
  refine h.keeps (fun index args p hp => ?_) ?_
  · refine always_call (R := AnchoredDirectories) (fun c _ p hp => ?_) hp
    exact Task.always_iff_runs.2 fun log r hrun => anchored_perform c args hp hrun
  · have hroot : ∀ {d : Descriptor}, d ∈ initialDescriptors →
        ∀ p name, d = .directory p name → p.adrift = false := by
      simp only [initialDescriptors, List.forall_mem_cons]
      simp
    have hinsert : ∀ {ds : List Descriptor} {s : Slots Descriptor}, ds ⊆ initialDescriptors →
        AnchoredDirectories g.tree s → AnchoredDirectories g.tree (ds.foldl Slots.insert s) := by
      intro ds
      induction ds with
      | nil => exact fun _ hs => hs
      | cons d ds ih =>
        intro s hds hs
        obtain ⟨hd, hds⟩ := List.cons_subset.1 hds
        exact ih hds (hs.insert (hroot hd))
    exact hinsert (List.Subset.refl _) (by simp [AnchoredDirectories])

/-! ## What a listing is of -/

/-- The kind that a listing gives of a node. -/
def typeOf : Node → FileType
  | .directory _ => .directory
  | .device _ => .characterDevice
  | .file _ _ => .regularFile

/-- Something of a kind is in a directory under a name. -/
def HasChild (t : FileTree) (p : Path) (name : String) (type : FileType) : Prop :=
  ∃ q n, t.node? q = some n ∧ Path.IsChild p q name ∧ typeOf n = type

/-- The names of the children of a directory, with their kinds. -/
def childNames (t : FileTree) (p : Path) : List (String × FileType) :=
  (t.children p).map fun e => (e.1, typeOf e.2)

/-- The lines of a listing: the directory, its parent, and the children. -/
def entries (names : List (String × FileType)) : List (String × FileType) :=
  (".", .directory) :: ("..", .directory) :: names

section

variable {t u : FileTree} (hp : p.adrift = false)

include hp

lemma mem_childNames_iff : (name, type) ∈ childNames t p ↔ HasChild t p name type := by
  simp only [childNames, List.mem_map, Prod.exists, Prod.mk.injEq, mem_children_iff hp]
  constructor
  · rintro ⟨_, n, ⟨q, hq, hchild⟩, rfl, rfl⟩
    exact ⟨q, n, hq, hchild, rfl⟩
  · rintro ⟨q, n, hq, hchild, rfl⟩
    exact ⟨name, n, ⟨q, hq, hchild⟩, rfl, rfl⟩

lemma ascending_childNames : (childNames t p).Pairwise fun a b => a.1 < b.1 :=
  List.pairwise_map.2 (ascending_children hp t)

/-- The same children are listed the same way. -/
lemma childNames_congr (h : ∀ name type, HasChild u p name type ↔ HasChild t p name type) :
    childNames u p = childNames t p := by
  refine Dict.eq_of_ascending Prod.fst (ascending_childNames hp) (ascending_childNames hp) ?_
  rintro ⟨name, type⟩
  rw [mem_childNames_iff hp, mem_childNames_iff hp, h]

/-- A child is looked up by its name, and its kind is found. -/
lemma listedType_eq {e : String × Node} (he : e ∈ t.children p) :
    listedType t p (listedName e) = typeOf e.2 := by
  obtain ⟨name, n⟩ := e
  have hnode : t.node? (p.resolve name) = some n := node?_resolve hp he
  cases n with
  | directory m => rfl
  | device d => simp [listedType, listedName, device?, hnode, typeOf]
  | file data m => simp [listedType, listedName, device?, hnode, typeOf]

lemma listed_eq (h : g.tree.IsDirectory p) :
    listed p g = .done (.ok (entries (childNames g.tree p)), g) := by
  have hnames : ((g.tree.children p).map listedName).map
      (fun e => (e.name, listedType g.tree p e)) = childNames g.tree p := by
    rw [List.map_map, childNames]
    refine List.map_congr_left fun e he => ?_
    exact Prod.ext rfl (listedType_eq hp he)
  rw [listed]
  simp only [bind_apply, System.onTree, list_ok h, process, pure, Task.bind_done, hnames]
  rfl

end

/-! ## One call -/

/-- A call can list the directory: the descriptor stands for it, it is there, and there is memory for
the lines and, apart from them, for the number of their bytes. -/
structure Ready (fd buffer room usedAt : Value) (p : Path) (g : Guest) : Prop where
  descriptor : ∃ (k : Nat) (preopen : Option String), fd.narrow.toInt = k ∧
    g.descriptors.get? k = some (.directory p preopen)
  there : g.tree.IsDirectory p
  buffer_fits : buffer.address + room.address ≤ g.memory.size
  used_fits : usedAt.address + 4 ≤ g.memory.size
  apart : buffer.address + room.address ≤ usedAt.address ∨ usedAt.address + 4 ≤ buffer.address

/-- The directory can be listed, and its children are those it has in the tree `t`. -/
structure Unchanged (fd buffer room usedAt : Value) (p : Path) (t : FileTree) (g : Guest) : Prop
    extends Ready fd buffer room usedAt p g where
  children : ∀ name type, HasChild g.tree p name type ↔ HasChild t p name type

/-- The call writes the lines, as many as fit, and then the number of their bytes. -/
lemma perform_fdReaddir {fd buffer room usedAt : Value} {k cookie : Nat} {preopen : Option String}
    {page : Bytes} {m₁ m₂ : Memory} (hp : p.adrift = false) (hfd : fd.narrow.toInt = k)
    (hdescriptor : g.descriptors.get? k = some (.directory p preopen))
    (hthere : g.tree.IsDirectory p) (hcookie : cookie < UInt64.size)
    (hpage : (listingBytes cookie ((entries (childNames g.tree p)).drop cookie)).take room.address =
      page)
    (hlines : g.memory.write buffer.address page = .ok m₁)
    (hcount : m₁.writeWord32 usedAt.address page.length = .ok m₂) :
    perform .fdReaddir [fd, buffer, room, .i64 (Int64.ofNat cookie), usedAt] g =
      .done (.ok (), { g with memory := m₂ }) := by
  have hwide : (Int64.ofNat cookie).toUInt64.toNat = cookie := by
    rw [Int64.toUInt64_ofNat']
    exact UInt64.toNat_ofNat_of_lt hcookie
  have hdirectory : directory k g = .done (.ok p, g) := by
    rw [directory, bind_apply, descriptor_live hdescriptor]
    rfl
  show fdReaddir fd.narrow.toInt buffer.address room.address
    (Int64.ofNat cookie).toUInt64.toNat usedAt.address g = _
  rw [hfd, hwide, fdReaddir]
  simp only [bind_apply, hdirectory, listed_eq hp hthere, Task.bind_done, take_entryBytes, hpage,
    System.write, System.writing, hlines, hcount, pure]

/-- What a guest finds in its memory after it has asked for the lines from a number on, and how it
goes on. -/
def page? (fd buffer room usedAt : Value) (cookie : Nat) (g : Guest) : Option (Bytes × Guest) :=
  match call (LibcCall.all.idxOf .fdReaddir)
      [fd, buffer, room, .i64 (Int64.ofNat cookie), usedAt] g with
  | .done (.ok (some code), q) =>
    if code = .i32 0 then
      (((q.memory.readWord32 usedAt.address).bind (q.memory.read buffer.address)).toOption).map
        fun page => (page, q)
    else none
  | _ => none

/-- **A call gives the lines from a number on**, cut where the memory for them ends, and is as good
as no call for those that come after it. -/
theorem page?_eq {fd buffer room usedAt : Value} (hp : p.adrift = false)
    (h : Ready fd buffer room usedAt p g) {cookie : Nat} (hcookie : cookie < UInt64.size) :
    ∃ q, page? fd buffer room usedAt cookie g = some
        ((listingBytes cookie ((entries (childNames g.tree p)).drop cookie)).take room.address, q) ∧
      q.tree = g.tree ∧ Ready fd buffer room usedAt p q := by
  obtain ⟨⟨k, preopen, hfd, hdescriptor⟩, hthere, hbuffer, hused, hapart⟩ := h
  generalize hpage : (listingBytes cookie ((entries (childNames g.tree p)).drop cookie)).take
    room.address = page
  have hlength : page.length ≤ room.address := hpage ▸ List.length_take_le _ _
  have hword := Bytes.length_word32 page.length
  obtain ⟨m₁, hlines⟩ : ∃ m₁, g.memory.write buffer.address page = .ok m₁ :=
    Memory.exists_write (by omega)
  have hsize := Memory.size_write hlines
  obtain ⟨m₂, hcount⟩ : ∃ m₂, m₁.writeWord32 usedAt.address page.length = .ok m₂ :=
    Memory.exists_write (by omega)
  have hperform := perform_fdReaddir hp hfd hdescriptor hthere hcookie hpage hlines hcount
  have hheld : m₂.Holds buffer.address page :=
    (Memory.holds_write hlines).of_same (Memory.size_write hcount) fun i hlow hhigh =>
      Memory.byteAt_write_of_outside hcount (by omega)
  have hreported := (Memory.holds_write hcount).readWord32
  rw [Nat.mod_eq_of_lt (hlength.trans_lt room.address_lt)] at hreported
  have hsize₂ : m₂.size = g.memory.size := (Memory.size_write hcount).trans hsize
  refine ⟨{ g with memory := m₂ }, ?_, rfl, ⟨k, preopen, hfd, hdescriptor⟩, hthere,
    hsize₂ ▸ hbuffer, hsize₂ ▸ hused, hapart⟩
  rw [page?, call_of_perform hperform]
  simp only [if_true, hreported, Except.bind]
  rw [hheld]
  rfl

/-! ## One call after another -/

/-- Lists a directory from a line on, with one call after another until one does not fill the memory
for the lines.  What the guest does before each call is given; it has no more calls than that. -/
def listAll (fd buffer room usedAt : Value) : List (Guest → Guest) → Nat → Guest → Option (List Line)
  | [], _, _ => none
  | f :: meanwhile, cookie, g => do
    let (page, q) ← page? fd buffer room usedAt cookie (f g)
    let lines := linesOf page
    if page.length < room.address then return lines
    let next ← lines.getLast?.map Line.next
    return lines ++ (← listAll fd buffer room usedAt meanwhile next q)

/-- From every line on, the calls come to the end of the listing and miss nothing. -/
lemma listAll_eq {fd buffer room usedAt : Value} {t : FileTree} {names : List (String × FileType)}
    (hp : p.adrift = false) (hnames : childNames t p = names)
    (hroom : ∀ e ∈ entries names, 24 + Text.byteLength e.1 ≤ room.address)
    (hcount : (entries names).length < UInt64.size) {meanwhile : List (Guest → Guest)}
    (hmeanwhile : ∀ f ∈ meanwhile, ∀ h, Unchanged fd buffer room usedAt p t h →
      Unchanged fd buffer room usedAt p t (f h))
    (hg : Unchanged fd buffer room usedAt p t g) {cookie : Nat}
    (hcookie : cookie ≤ (entries names).length)
    (henough : (entries names).length < cookie + meanwhile.length) :
    listAll fd buffer room usedAt meanwhile cookie g =
      some (linesFrom cookie ((entries names).drop cookie)) := by
  induction meanwhile generalizing g cookie with
  | nil =>
    rw [List.length_nil] at henough
    omega
  | cons f meanwhile ih =>
    obtain ⟨hf, hmeanwhile⟩ := List.forall_mem_cons.1 hmeanwhile
    obtain ⟨hready, hchildren⟩ := hf g hg
    have hroom' : ∀ e ∈ (entries names).drop cookie, 24 + Text.byteLength e.1 ≤ room.address :=
      fun e he => hroom e (List.mem_of_mem_drop he)
    have hpositive := hroom _ (List.mem_cons_self ..)
    have hlength := List.length_drop (i := cookie) (l := entries names)
    have hlt := room.address_lt
    obtain ⟨k, hk, hlines, hsome, hall⟩ := linesOf_take ((entries names).drop cookie)
      cookie room.address (by omega) (fun e he => by
        have := hroom' e he
        omega)
    obtain ⟨q, hpage, htree, hagain⟩ := page?_eq hp hready (show cookie < UInt64.size by omega)
    rw [childNames_congr hp hchildren, hnames] at hpage
    rw [listAll, hpage]
    simp only [Option.bind_eq_bind, Option.bind_some]
    by_cases hshort : ((listingBytes cookie ((entries names).drop cookie)).take
        room.address).length < room.address
    · -- the last page: nothing was cut
      have hwhole : (listingBytes cookie ((entries names).drop cookie)).length ≤ room.address := by
        rw [List.length_take] at hshort
        omega
      rw [if_pos hshort, hlines, hall hwhole, List.take_length]
      rfl
    · -- the memory was filled: the calls that are left go on after the last line
      have hne : (entries names).drop cookie ≠ [] := by
        intro hnil
        rw [hnil] at hshort
        simp only [listingBytes, List.take_nil, List.length_nil] at hshort
        omega
      have hk' := hsome hroom' hne
      have hnonempty : ((entries names).drop cookie).take k ≠ [] := by
        simp [hk', hne]
      have htaken : (((entries names).drop cookie).take k).length = k := by
        rw [List.length_take]
        omega
      have hnext := next_getLast? cookie hnonempty
      rw [htaken] at hnext
      have hrest := @ih q hmeanwhile ⟨hagain, htree ▸ hchildren⟩ (cookie + k) (by omega) (by
        rw [List.length_cons] at henough
        omega)
      have happend := linesFrom_append cookie (((entries names).drop cookie).take k)
        (((entries names).drop cookie).drop k)
      rw [List.take_append_drop, htaken, List.drop_drop] at happend
      rw [if_neg hshort, hlines, hnext]
      simp only [Option.bind_some, hrest]
      exact congrArg some happend.symm

/-! ## The whole directory -/

/-- **Reading a directory line by line lists all of it.**  Whatever descriptor stands for it, and
however little memory there is for the lines, if only the longest has room there: the calls come to
an end, and then every child has been listed once, in ascending order, with its name and its kind,
after the directory itself and its parent.  What the guest does between the calls may be anything that
leaves the children as they are.  The numbers of the lines are words, so there must not be more
lines than those can count. -/
theorem readdir_complete {now : Moment} {environment : List (String × String)} {i : Invocation}
    (hcourse : Course now environment i g) (m : Memory) (fd buffer room usedAt : Value)
    (hready : Ready fd buffer room usedAt p { g with memory := m }) (hroom : 26 ≤ room.address)
    (hnames : ∀ name type, HasChild g.tree p name type →
      24 + Text.byteLength name ≤ room.address) :
    ∃ names : List (String × FileType), (names.Pairwise fun a b => a.1 < b.1) ∧
      (∀ name type, (name, type) ∈ names ↔ HasChild g.tree p name type) ∧
      ∀ meanwhile : List (Guest → Guest), names.length + 2 < UInt64.size →
        names.length + 2 < meanwhile.length →
        (∀ f ∈ meanwhile, ∀ h, Unchanged fd buffer room usedAt p g.tree h →
          Unchanged fd buffer room usedAt p g.tree (f h)) →
        listAll fd buffer room usedAt meanwhile 0 { g with memory := m } =
          some (linesFrom 0 ((".", .directory) :: ("..", .directory) :: names)) := by
  obtain ⟨k, preopen, -, hdescriptor⟩ := hready.descriptor
  have hp : p.adrift = false := anchored_of_course hcourse k p preopen hdescriptor
  refine ⟨childNames g.tree p, ascending_childNames hp, fun _ _ => mem_childNames_iff hp, ?_⟩
  intro meanwhile hcount henough hmeanwhile
  have hdot : Text.byteLength "." = 1 := by decide +kernel
  have hdots : Text.byteLength ".." = 2 := by decide +kernel
  have hall : ∀ e ∈ entries (childNames g.tree p), 24 + Text.byteLength e.1 ≤ room.address := by
    simp only [entries, List.forall_mem_cons, hdot, hdots]
    refine ⟨by omega, hroom, ?_⟩
    rintro ⟨name, type⟩ he
    exact hnames name type ((mem_childNames_iff hp).1 he)
  exact listAll_eq hp rfl hall hcount hmeanwhile ⟨hready, fun _ _ => Iff.rfl⟩ (Nat.zero_le _)
    (by simpa [entries] using henough)

/-- The top of the tree with memory for 27 bytes: every call gives one line, and the last line ends
where the memory does. -/
theorem readdir_complete_narrow :
    listAll (.i32 3) (.i32 1024) (.i32 27) (.i32 512) (List.replicate 5 id) 0
        { Guest.start 7 [] oneFile with memory := .zeros 1 } =
      some (linesFrom 0 [(".", .directory), ("..", .directory), ("a", .regularFile),
        ("dev", .directory)]) := by
  have hnames : childNames (Guest.start 7 [] oneFile).tree .root =
      [("a", .regularFile), ("dev", .directory)] := by decide +kernel
  have hdescriptor : (Guest.start 7 [] oneFile).descriptors.get? 3 =
      some (.directory .root (some "/")) := by decide +kernel
  have hthere : (Guest.start 7 [] oneFile).tree.node? .root = some (.directory 7) := by
    decide +kernel
  have hready : Ready (.i32 3) (.i32 1024) (.i32 27) (.i32 512) .root
      { Guest.start 7 [] oneFile with memory := .zeros 1 } :=
    ⟨⟨3, _, rfl, hdescriptor⟩, ⟨_, hthere⟩, by decide, by decide, by decide⟩
  have hmem : ∀ name type, HasChild (Guest.start 7 [] oneFile).tree .root name type ↔
      (name, type) ∈ [("a", FileType.regularFile), ("dev", .directory)] := by
    intro name type
    rw [← hnames, mem_childNames_iff Path.adrift_root]
  have hfit : ∀ name type, HasChild (Guest.start 7 [] oneFile).tree .root name type →
      24 + Text.byteLength name ≤ 27 := by
    intro name type hchild
    have hlengths : ∀ e ∈ [("a", FileType.regularFile), ("dev", .directory)],
        24 + Text.byteLength e.1 ≤ 27 := by decide +kernel
    exact hlengths (name, type) ((hmem name type).1 hchild)
  obtain ⟨names, hascending, hlisted, hall⟩ :=
    readdir_complete .start (.zeros 1) (.i32 3) (.i32 1024) (.i32 27) (.i32 512) hready (by decide)
      hfit
  obtain rfl : names = [("a", .regularFile), ("dev", .directory)] := by
    refine Dict.eq_of_ascending Prod.fst hascending (by decide) ?_
    rintro ⟨name, type⟩
    rw [hlisted, hmem]
  refine hall _ (by decide) (by decide) fun f hf h hh => ?_
  obtain rfl := List.eq_of_mem_replicate hf
  exact hh

end GuestShell.Libc
