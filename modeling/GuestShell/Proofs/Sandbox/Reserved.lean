import GuestShell.Proofs.FileTree.Reload
import GuestShell.Proofs.Sandbox.LiveDescriptors

/-!
# Files at the places of devices

What is at the place of a device is never reported, because a device should be there.  As long as
one is, no file can be there too, and so every file of the sandbox is reported.

The devices are nodes like others, and nothing but the checks of each operation keeps them.  Most of
them do: nothing is written over a device, no device is removed, and no directory that holds one
(`InPlace.apply`).  A rename has no such check.  It takes a device away, or the directory that holds
them, or puts a file in the place of a device (`Displaces`).

Where nothing of the kind happens, and the devices could be mounted to begin with, no file is lost
(`every_file_reported`).  `files_lost` has runs in which one is.
-/

namespace GuestShell.Libc

open GuestShell.System FileTree

/-! ## The places of the devices -/

/-- The directory of the devices. -/
def deviceHome : Path := Path.ofText "/dev"

/-- A device is mounted there in every tree. -/
def IsReserved (p : Path) : Prop := p.text ∈ reservedPaths

instance : DecidablePred IsReserved :=
  fun p => inferInstanceAs (Decidable (p.text ∈ reservedPaths))

/-- What has to stay if the devices are to stay: their places, and the directories above them. -/
def IsFixture (p : Path) : Prop := p = Path.root ∨ p = deviceHome ∨ IsReserved p

variable {t : FileTree} {p q : Path}

lemma text_ofText {s : String} (h : s ∈ reservedPaths) : (Path.ofText s).text = s := by
  have hall : ∀ s ∈ reservedPaths, (Path.ofText s).text = s := by decide
  exact hall s h

lemma isReserved_ofText {s : String} (h : s ∈ reservedPaths) : IsReserved (Path.ofText s) := by
  rwa [IsReserved, text_ofText h]

lemma IsReserved.ofText_text (h : IsReserved p) : Path.ofText p.text = p :=
  Path.text_injective (text_ofText h)

lemma IsReserved.parent? (h : IsReserved p) : p.parent? = some deviceHome := by
  have hall : ∀ s ∈ reservedPaths, (Path.ofText s).parent? = some deviceHome := by decide
  have hparent := hall _ h
  rwa [h.ofText_text] at hparent

lemma parent?_deviceHome : deviceHome.parent? = some Path.root := by decide

lemma deviceHome_ne_root : deviceHome ≠ Path.root := by decide

lemma IsFixture.adrift (h : IsFixture p) : p.adrift = false := by
  rcases h with rfl | rfl | h
  · rfl
  · exact Path.adrift_ofText _
  · rw [← h.ofText_text]
    exact Path.adrift_ofText _

/-- Above what has to stay there is only what has to stay. -/
lemma IsFixture.of_covers (hq : IsFixture q) (hp : p.adrift = false) (h : covers p q = true) :
    IsFixture p := by
  have above_root : covers p Path.root = true → IsFixture p := by
    intro h
    rw [covers_iff hp Path.adrift_root, Path.parts_root, List.prefix_nil] at h
    exact .inl (Path.eq_root_iff.2 h)
  have above_home : covers p deviceHome = true → IsFixture p := by
    intro h
    by_cases heq : deviceHome = p
    · exact .inr (.inl heq.symm)
    · exact above_root (covers_parent? hp (Path.adrift_ofText _) parent?_deviceHome h heq)
  rcases hq with rfl | rfl | hq
  · exact above_root h
  · exact above_home h
  · by_cases heq : q = p
    · exact .inr (.inr (heq ▸ hq))
    · exact above_home (covers_parent? hp (IsFixture.adrift (.inr (.inr hq))) hq.parent? h heq)

/-! ## Devices that are in place -/

/-- At the place of each device there is one. -/
structure InPlace (t : FileTree) : Prop where
  rooted : t.IsDirectory Path.root
  home : t.IsDirectory deviceHome
  mounted : ∀ p, IsReserved p → ∃ d, t.node? p = some (.device d)

namespace InPlace

variable (h : InPlace t)

include h

lemma not_file (hp : IsFixture p) : ∃ n, t.node? p = some n ∧ ∀ data m, n ≠ .file data m := by
  rcases hp with rfl | rfl | hp
  · obtain ⟨m, hm⟩ := h.rooted
    exact ⟨_, hm, nofun⟩
  · obtain ⟨m, hm⟩ := h.home
    exact ⟨_, hm, nofun⟩
  · obtain ⟨d, hd⟩ := h.mounted p hp
    exact ⟨_, hd, nofun⟩

/-- A file is nowhere where something has to stay. -/
lemma not_isFixture {data : Bytes} {m : Moment} (hp : t.node? p = some (.file data m)) :
    ¬IsFixture p := by
  intro hfix
  obtain ⟨n, hn, hno⟩ := h.not_file hfix
  exact hno data m (Option.some.inj (hn.symm.trans hp))

/-- A directory that has to stay is not empty. -/
lemma not_isFixture_of_empty (hp : t.IsDirectory p) (hempty : t.hasBelow p = false) :
    ¬IsFixture p := by
  have hbelow := hasBelow_eq_false_iff.1 hempty
  rintro (rfl | rfl | hfix)
  · obtain ⟨m, hm⟩ := h.home
    exact hbelow _ _ hm (Path.root_isAbove_iff.2 deviceHome_ne_root)
  · have hreserved : IsReserved (Path.ofText "/dev/tty") := by decide
    obtain ⟨d, hd⟩ := h.mounted _ hreserved
    exact hbelow _ _ hd (Path.isAbove_of_parent? (Path.adrift_ofText _) hreserved.parent?)
  · obtain ⟨m, hm⟩ := hp
    obtain ⟨d, hd⟩ := h.mounted p hfix
    rw [hm] at hd
    cases hd

/-- **Every file is reported.** -/
theorem snapshot_eq : t.snapshot reservedPaths = t.snapshot [] := by
  refine Dict.eq_of_ascending SavedFile.path (ascending_snapshot _ _) (ascending_snapshot _ _)
    fun f => ?_
  rw [mem_snapshot_iff, mem_snapshot_iff]
  refine exists_congr fun p => exists_congr fun data => exists_congr fun m => ?_
  refine and_congr_right fun hp => and_congr_left' ?_
  exact iff_of_true (fun hmem => h.not_isFixture hp (.inr (.inr hmem))) List.not_mem_nil

/-! ## What leaves them in place -/

lemma of_same {u : FileTree} (hu : ∀ p, IsFixture p → u.node? p = t.node? p) : InPlace u := by
  obtain ⟨⟨m, hroot⟩, ⟨m', hhome⟩, hmounted⟩ := h
  refine ⟨⟨m, (hu _ (.inl rfl)).trans hroot⟩, ⟨m', (hu _ (.inr (.inl rfl))).trans hhome⟩, ?_⟩
  intro p hp
  obtain ⟨d, hd⟩ := hmounted p hp
  exact ⟨d, (hu p (.inr (.inr hp))).trans hd⟩

lemma withNode {n : Node} (hp : ¬IsFixture p) : InPlace (t.withNode p n) := by
  refine h.of_same fun q hq => ?_
  rw [node?_withNode, if_neg]
  rintro rfl
  exact hp hq

lemma withoutNode (hp : ¬IsFixture p) : InPlace (t.withoutNode p) := by
  refine h.of_same fun q hq => ?_
  rw [node?_withoutNode, if_neg]
  rintro rfl
  exact hp hq

lemma not_isFixture_of_absent (hp : t.node? p = none) : ¬IsFixture p := by
  intro hfix
  obtain ⟨n, hn, -⟩ := h.not_file hfix
  rw [hp] at hn
  cases hn

/-- A rename leaves the devices in place, unless it takes one of them away, or all of them, or puts
something in the place of one. -/
lemma transplanted {source target : Path} (hs : source.adrift = false) (ht : target.adrift = false)
    (can : t.CanMove source target) (hhome : source ≠ deviceHome) (hsource : ¬IsReserved source)
    (htarget : ¬IsReserved target) : InPlace (t.transplanted source target) := by
  have hfixt : ¬IsFixture target := by
    intro hfix
    have hdir : t.IsDirectory target := by
      rcases hfix with rfl | rfl | hfix
      · exact h.rooted
      · exact h.home
      · exact absurd hfix htarget
    exact h.not_isFixture_of_empty hdir (can.vacant hdir) hfix
  have hroot : target ≠ Path.root := fun heq => hfixt (.inl heq)
  have hfixs : ¬IsFixture source := by
    rintro (rfl | heq | hfix)
    · exact can.outside (Path.root_isAbove_iff.2 hroot)
    · exact hhome heq
    · exact hsource hfix
  exact h.of_same fun q hq => node?_transplanted_of_not_covers ht hroot
    (fun hc => hfixs (hq.of_covers hs hc)) fun hc => hfixt (hq.of_covers ht hc)

lemma of_leftBy {c : LibcCall} {op : Operation} {u : FileTree} {now : Moment}
    (hc : c ≠ .pathRename) (hop : Asks c op) (hleft : LeftBy now t op u) : InPlace u := by
  cases hleft with
  | kept => exact h
  | loaded | wayMade => cases c <;> cases hop
  | moved => cases c <;> first | exact absurd rfl hc | cases hop
  | resized _ file => exact h.withNode (h.not_isFixture file)
  | found file =>
    split_ifs
    · exact (h.withNode (h.not_isFixture file)).of_same fun _ _ => rfl
    · exact h.of_same fun _ _ => rfl
  | created absent => exact (h.withNode (h.not_isFixture_of_absent absent)).of_same fun _ _ => rfl
  | closed | read | sought => exact h.of_same fun _ _ => rfl
  | written _ file => exact (h.withNode (h.not_isFixture file)).of_same fun _ _ => rfl
  | directoryMade absent => exact h.withNode (h.not_isFixture_of_absent absent)
  | fileRemoved file => exact h.withoutNode (h.not_isFixture file)
  | directoryRemoved _ directory vacant =>
    exact h.withoutNode (h.not_isFixture_of_empty directory vacant)

/-- **What else a function asks of the tree leaves them in place.** -/
theorem apply {c : LibcCall} {op : Operation} (hc : c ≠ .pathRename) (hop : Asks c op)
    (now : Moment) : InPlace (op.apply now t) :=
  h.of_leftBy hc hop (leftBy_apply now op t)

end InPlace

/-! ## Mounting -/

lemma not_isReserved_root : ¬IsReserved Path.root := by decide

lemma not_isReserved_deviceHome : ¬IsReserved deviceHome := by decide

/-- There is a directory for the devices, or room for it. -/
def Mountable (t : FileTree) : Prop :=
  ∀ n, t.node? deviceHome = some n → ∃ m, n = .directory m

section Mounting

variable {now : Moment} {s : String} {d : Device} {ds : List (String × Device)}

lemma makeWay_of_reserved (hs : s ∈ reservedPaths) :
    makeWay now (Path.ofText s) = makeMissing now [deviceHome] := by
  rw [makeWay, (isReserved_ofText hs).parent?]
  rfl

lemma withDevice_of_way {u : FileTree} (hs : s ∈ reservedPaths)
    (hway : makeMissing now [deviceHome] t = .ok () u) :
    withDevice now t (s, d) = u.withNode (Path.ofText s) (.device d) := by
  rw [← makeWay_of_reserved hs] at hway
  exact after_mount_ok hway

lemma makeMissing_home (h : t.IsDirectory deviceHome) :
    makeMissing now [deviceHome] t = .ok () t := by
  obtain ⟨m, hm⟩ := h
  rw [makeMissing, get_bind, hm]
  rfl

/-- Where there is a directory for them, all devices are mounted, and nothing else changes. -/
lemma node?_mounted (now : Moment) (h : t.IsDirectory deviceHome)
    (hds : ∀ d ∈ ds, d.1 ∈ reservedPaths) (p : Path) :
    (p.text ∈ ds.map Prod.fst →
      ∃ d, (ds.foldl (withDevice now) t).node? p = some (.device d)) ∧
    (p.text ∉ ds.map Prod.fst → (ds.foldl (withDevice now) t).node? p = t.node? p) := by
  induction ds generalizing t with
  | nil => exact ⟨fun hp => absurd hp List.not_mem_nil, fun _ => rfl⟩
  | cons e ds ih =>
    obtain ⟨s, d⟩ := e
    have hs : s ∈ reservedPaths := hds (s, d) List.mem_cons_self
    have htext : (Path.ofText s).text = s := text_ofText hs
    have hhome : (t.withNode (Path.ofText s) (.device d)).IsDirectory deviceHome := by
      obtain ⟨m, hm⟩ := h
      refine ⟨m, ?_⟩
      rw [node?_withNode, if_neg, hm]
      intro heq
      exact not_isReserved_deviceHome (heq ▸ isReserved_ofText hs)
    obtain ⟨hin, hout⟩ := ih hhome fun e he => hds e (List.mem_cons_of_mem _ he)
    rw [List.foldl_cons, withDevice_of_way hs (makeMissing_home h), List.map_cons, List.mem_cons]
    by_cases hp : p.text ∈ ds.map Prod.fst
    · exact ⟨fun _ => hin hp, fun hno => absurd (.inr hp) hno⟩
    · rw [hout hp, node?_withNode]
      constructor
      · rintro (heq | hmem)
        · exact ⟨d, if_pos (Path.text_injective (heq.trans htext.symm))⟩
        · exact absurd hmem hp
      · intro hno
        refine if_neg ?_
        rintro rfl
        exact hno (.inl htext)

/-- With anything but a directory in its place, no device is mounted. -/
lemma foldl_withDevice_of_blocked {n : Node} (hn : t.node? deviceHome = some n)
    (hno : ∀ m, n ≠ .directory m) (hds : ∀ d ∈ ds, d.1 ∈ reservedPaths) :
    ds.foldl (withDevice now) t = t := by
  induction ds with
  | nil => rfl
  | cons e ds ih =>
    obtain ⟨s, d⟩ := e
    have hway : makeWay now (Path.ofText s) t = .error .partIsNoDirectory t := by
      rw [makeWay_of_reserved (hds (s, d) List.mem_cons_self), makeMissing, get_bind, hn]
      cases n with
      | file data m => rfl
      | directory m => exact absurd rfl (hno m)
      | device d => rfl
    have hstep : withDevice now t (s, d) = t := after_mount_error hway
    rw [List.foldl_cons, hstep]
    exact ih fun e he => hds e (List.mem_cons_of_mem _ he)

lemma reserved_of_mem_devices {d : String × Device} (h : d ∈ devices) : d.1 ∈ reservedPaths :=
  List.mem_map_of_mem h

/-- Where there is room, all four devices are mounted, and nothing else is new but perhaps their
directory. -/
lemma Mountable.node?_devices (h : Mountable t) (now : Moment) (p : Path) :
    (IsReserved p → ∃ d, (devices.foldl (withDevice now) t).node? p = some (.device d)) ∧
    (¬IsReserved p → ∀ n, (devices.foldl (withDevice now) t).node? p = some n ↔
      t.node? p = some n ∨ t.node? p = none ∧ p = deviceHome ∧ n = .directory now) := by
  obtain ⟨u, hu⟩ : ∃ u, makeMissing now [deviceHome] t = .ok () u :=
    exists_makeMissing now fun p hp => List.mem_singleton.1 hp ▸ h
  obtain ⟨hdirs, hnode⟩ := makeMissing_ok hu
  have hhome : u.IsDirectory deviceHome := hdirs _ List.mem_cons_self
  -- the first device makes the directory, and the others find it
  have hfirst : devices.foldl (withDevice now) t = devices.foldl (withDevice now) u := by
    have hs : "/dev/stdin" ∈ reservedPaths := by decide
    have hone : withDevice now t ("/dev/stdin", .stdin) = withDevice now u ("/dev/stdin", .stdin) :=
      (withDevice_of_way hs hu).trans (withDevice_of_way hs (makeMissing_home hhome)).symm
    simp only [devices, List.foldl_cons, hone]
  obtain ⟨hin, hout⟩ := node?_mounted now hhome (fun d => reserved_of_mem_devices) p
  rw [hfirst]
  refine ⟨hin, fun hp n => ?_⟩
  rw [hout hp, hnode, List.mem_singleton]

lemma Mountable.inPlace (h : Mountable t) (hroot : t.IsDirectory Path.root) :
    InPlace (devices.foldl (withDevice now) t) := by
  have hnode := h.node?_devices now
  have hhome : (devices.foldl (withDevice now) t).IsDirectory deviceHome := by
    cases hn : t.node? deviceHome with
    | none => exact ⟨now, ((hnode _).2 not_isReserved_deviceHome _).2 (.inr ⟨hn, rfl, rfl⟩)⟩
    | some n =>
      obtain ⟨m, rfl⟩ := h n hn
      exact ⟨m, ((hnode _).2 not_isReserved_deviceHome _).2 (.inl hn)⟩
  obtain ⟨m, hm⟩ := hroot
  exact ⟨⟨m, ((hnode _).2 not_isReserved_root _).2 (.inl hm)⟩, hhome, fun p => (hnode p).1⟩

/-! ### Room for them -/

lemma Mountable.withNode (h : Mountable t) {n : Node}
    (hp : p = deviceHome → ∃ m, n = .directory m) : Mountable (t.withNode p n) := by
  intro k hk
  rw [node?_withNode] at hk
  split_ifs at hk with heq
  · obtain rfl := Option.some.inj hk
    exact hp heq.symm
  · exact h k hk

/-- Only a file at the place of their directory keeps the devices from being mounted. -/
lemma Mountable.load (h : Mountable t) {files : List SavedFile}
    (hfiles : ∀ f ∈ files, Path.ofText f.path ≠ deviceHome) : Mountable (load now files t) :=
  load_keeps (fun _ h => h.withNode fun _ => ⟨_, rfl⟩)
    (fun f hf _ h => h.withNode fun heq => absurd heq (hfiles f hf)) h

end Mounting

/-! ## Renames -/

variable {g q : Guest} {log : Log}

/-- The two places that a guest names to have something renamed. -/
def Names (args : List Value) (g : Guest) (source target : Path) : Prop :=
  let int (k : Nat) : Int := (args.getD k (.i32 0)).narrow.toInt
  let nat (k : Nat) : Nat := (args.getD k (.i32 0)).address
  Ran (path (int 0) (nat 1) (nat 2)) g [] (.ok source) g ∧
    Ran (path (int 3) (nat 4) (nat 5)) g [] (.ok target) g

/-- Moving one place to the other takes devices away, or puts something in the place of one. -/
def Unseats (source target : Path) : Prop :=
  source = deviceHome ∨ IsReserved source ∨ IsReserved target

lemma InPlace.pathRename {args : List Value} {r : Except (Failure LibcError) Unit}
    (h : InPlace g.tree) (hrun : Ran (perform .pathRename args) g log r q)
    (hcalm : ∀ source target, Names args g source target → g.tree.CanMove source target →
      ¬Unseats source target) : InPlace q.tree := by
  rcases (looks_path _ _ _).ran_bind hrun with ⟨_, -, -, rfl⟩ | ⟨source, hsource, hrest⟩
  · exact h
  rcases (looks_path _ _ _).ran_bind hrest with ⟨_, -, -, rfl⟩ | ⟨target, htarget, hrest⟩
  · exact h
  rcases (ran_onTree_iff.1 hrest).2 with ⟨_, u, hok, -, rfl⟩ | ⟨_, u, herror, -, rfl⟩
  · rcases rename_cases source target g.tree with ⟨e, hfail⟩ | ⟨-, hsame⟩ | ⟨can, hmove⟩
    · rw [hfail] at hok
      cases hok
    · rw [hsame] at hok
      cases hok
      exact h
    · rw [hmove] at hok
      cases hok
      have hseated := hcalm source target ⟨hsource, htarget⟩ can
      simp only [Unseats, not_or] at hseated
      exact h.transplanted (adrift_of_path hsource) (adrift_of_path htarget) can hseated.1
        hseated.2.1 hseated.2.2
  · obtain rfl := atomic_rename _ _ _ _ _ herror
    exact h

/-! ## A whole run -/

/-- The request is for a rename that goes through and unseats a device. -/
def Displaces (r : Engine.Request) (g : Guest) : Prop :=
  match r with
  | .call index args m => LibcCall.all[index]? = some .pathRename ∧
      ∃ source target, Names args { g with memory := m } source target ∧
        g.tree.CanMove source target ∧ Unseats source target
  | _ => False

/-- What a guest can come to be in a run in which no device is displaced. -/
inductive CalmCourse (now : Moment) (environment : List (String × String)) (i : Invocation) :
    Guest → Prop
  | start : CalmCourse now environment i (Guest.start now environment i)
  | served {g q : Guest} (r : Engine.Request) {a : Engine.Answer r} {log : Log} :
      CalmCourse now environment i g → ¬Displaces r g →
      Task.Runs (Runnable.serve call (fun exports _ m => (enter exports, m)) r g) log (a, q) →
      CalmCourse now environment i q

/-- Whatever is asked, the devices stay in place, unless that displaces one. -/
lemma InPlace.always_serve (h : InPlace g.tree) {r : Engine.Request} (hr : ¬Displaces r g) :
    (Runnable.serve call (fun exports _ m => (enter exports, m)) r g).Always fun s =>
      InPlace s.2.tree := by
  cases r with
  | epoch => exact fun _ => h
  | note o => exact fun _ => h
  | entry exports m => exact h
  | call index args m =>
    refine Task.always_bind.2 (always_call_of_perform (P := fun q => InPlace q.tree)
      (g := { g with memory := m }) (fun c hc => ?_) h)
    by_cases hrename : c = .pathRename
    · subst hrename
      refine Task.always_iff_runs.2 fun log r hrun => ?_
      exact InPlace.pathRename (g := { g with memory := m }) h hrun
        fun source target hnames can hunseats => hr ⟨hc, source, target, hnames, can, hunseats⟩
    · have hkeeps : Keeps (fun t _ => InPlace t) (perform c args) :=
        keeps_perform args (fun op hop now t _ ht => ht.apply hrename hop now)
          (fun _ _ _ _ ht => ht) fun _ _ _ _ ht => ht
      exact hkeeps { g with memory := m } h

variable {now : Moment} {environment : List (String × String)} {i : Invocation}

lemma tree_start : (Guest.start now environment i).tree =
    devices.foldl (withDevice now) (load now i.files (fresh now)) := by
  rw [Guest.start]

lemma rooted_load (files : List SavedFile) : (load now files (fresh now)).IsDirectory Path.root :=
  ((edits_load now files (WellFormed.fresh now)).wellFormed (WellFormed.fresh now)).rooted

/-- If the run begins with a directory for the devices, it begins with the devices in it. -/
lemma inPlace_start (hhome : (Guest.start now environment i).tree.IsDirectory deviceHome) :
    InPlace (Guest.start now environment i).tree := by
  rw [tree_start] at hhome ⊢
  refine Mountable.inPlace (fun n hn => ?_) (rooted_load i.files)
  by_contra hno
  rw [foldl_withDevice_of_blocked hn (fun m hm => hno ⟨m, hm⟩) fun d => reserved_of_mem_devices]
    at hhome
  obtain ⟨m, hm⟩ := hhome
  rw [hn] at hm
  exact hno ⟨m, Option.some.inj hm⟩

/-- And so it does, unless a file takes the place of that directory. -/
lemma isDirectory_deviceHome_start (hfiles : ∀ f ∈ i.files, Path.ofText f.path ≠ deviceHome) :
    (Guest.start now environment i).tree.IsDirectory deviceHome := by
  have hfresh : Mountable (fresh now) := by
    intro n hn
    have hnode : (fresh now).node? deviceHome = none :=
      Dict.find?_insert Dict.empty Path.root deviceHome _
    rw [hnode] at hn
    cases hn
  rw [tree_start]
  exact ((hfresh.load hfiles).inPlace (rooted_load i.files)).home

/-- **No file is lost in a run that displaces no device**: where it begins with a directory for its
devices, every file of the tree is reported wherever the run has come to, and none is at the place of
a device. -/
theorem every_file_reported (hhome : (Guest.start now environment i).tree.IsDirectory deviceHome)
    (h : CalmCourse now environment i g) :
    g.tree.snapshot reservedPaths = g.tree.snapshot [] ∧
      ∀ p data m, g.tree.node? p = some (.file data m) →
        ¬IsReserved p ∧ ⟨p.text, m, data⟩ ∈ g.tree.snapshot reservedPaths := by
  have hg : InPlace g.tree := by
    induction h with
    | start => exact inPlace_start hhome
    | served r _ hr hrun ih => exact Task.always_iff_runs.1 (ih.always_serve hr) _ _ hrun
  refine ⟨hg.snapshot_eq, fun p data m hp => ?_⟩
  have hfree : ¬IsReserved p := fun hreserved => hg.not_isFixture hp (.inr (.inr hreserved))
  exact ⟨hfree, mem_snapshot_iff.2 ⟨p, data, m, hp, hfree, rfl⟩⟩

/-- A call with a text in memory, from address 0 on. -/
def calling (c : LibcCall) (args : List Value) (text : String) : Engine.Request :=
  .call (LibcCall.all.idxOf c) args (.ofList (Text.encode text))

/-- What requests make of a guest when nothing happens around it. -/
def afterAll (requests : List Engine.Request) (g : Guest) : Guest :=
  requests.foldl (fun g r => afterServing call (fun exports _ m => (enter exports, m)) r g) g

lemma course_afterAll (h : Course now environment i g) (requests : List Engine.Request) :
    Course now environment i (afterAll requests g) := by
  induction requests generalizing g with
  | nil => exact h
  | cons r requests ih => exact ih (h.next r)

/-- The file gets another name. -/
def renameFile : Engine.Request :=
  calling .pathRename [.i32 3, .i32 0, .i32 1, .i32 3, .i32 1, .i32 1] "ab"

theorem every_file_reported_renamed :
    (Guest.start 7 [] oneFile).tree.IsDirectory deviceHome ∧
    CalmCourse 7 [] oneFile (afterAll [renameFile] (Guest.start 7 [] oneFile)) ∧
    (afterAll [renameFile] (Guest.start 7 [] oneFile)).tree.snapshot reservedPaths =
      [⟨"/b", 5, [104, 105]⟩] := by
  have hhome : (Guest.start 7 [] oneFile).tree.IsDirectory deviceHome :=
    isDirectory_deviceHome_start (by decide)
  have hcalm : ¬Displaces renameFile (Guest.start 7 [] oneFile) := by
    rintro ⟨-, source, target, ⟨hsource, htarget⟩, -, hunseats⟩
    obtain ⟨-, hsource, -⟩ := Task.runs_done_pair_iff.1 hsource
    obtain ⟨-, htarget, -⟩ := Task.runs_done_pair_iff.1 htarget
    obtain rfl : source = Path.ofText "/a" := Except.ok.inj hsource
    obtain rfl : target = Path.ofText "/b" := Except.ok.inj htarget
    revert hunseats
    rw [Unseats]
    decide
  have hcourse : CalmCourse 7 [] oneFile (afterAll [renameFile] (Guest.start 7 [] oneFile)) :=
    CalmCourse.start.served renameFile hcalm (Task.runs_trace (fun _ => Runnable.stillness) _)
  refine ⟨hhome, hcourse, ?_⟩
  rw [(every_file_reported hhome hcourse).1]
  decide +kernel

/-! ## Files that are lost -/

/-- A run that is given a file where the directory of the devices should be. -/
def fileAsHome : Invocation := ⟨"cat", [], [⟨"/dev", 5, [104, 105]⟩], none⟩

/-- A file is made at the place of a device. -/
def openInPlace : Engine.Request :=
  calling .pathOpen [.i32 3, .i32 0, .i32 0, .i32 9, .i32 1, .i64 64, .i64 0, .i32 0, .i32 0]
    "dev/stdin"

/-- The sandbox has a file that is not reported. -/
def Loses (i : Invocation) (requests : List Engine.Request) (f : SavedFile) : Prop :=
  let g := afterAll requests (Guest.start 7 [] i)
  Course 7 [] i g ∧ f ∈ g.tree.snapshot [] ∧ f ∉ g.tree.snapshot reservedPaths

/-- **Files can get to the place of a device, and are lost there**: when a rename puts one in the
place of a device, when one is made after a rename took the device away, and when the device could
not be mounted. -/
theorem files_lost :
    Loses oneFile
      [calling .pathRename [.i32 3, .i32 0, .i32 1, .i32 3, .i32 1, .i32 9] "adev/stdin"]
      ⟨"/dev/stdin", 5, [104, 105]⟩ ∧
    Loses oneFile
      [calling .pathRename [.i32 3, .i32 0, .i32 9, .i32 3, .i32 9, .i32 1] "dev/stdinb",
        openInPlace]
      ⟨"/dev/stdin", 7, []⟩ ∧
    Loses fileAsHome
      [calling .pathUnlinkFile [.i32 3, .i32 0, .i32 3] "dev",
        calling .pathCreateDirectory [.i32 3, .i32 0, .i32 3] "dev", openInPlace]
      ⟨"/dev/stdin", 7, []⟩ :=
  ⟨⟨course_afterAll .start _, by decide +kernel, by decide +kernel⟩,
    ⟨course_afterAll .start _, by decide +kernel, by decide +kernel⟩,
    ⟨course_afterAll .start _, by decide +kernel, by decide +kernel⟩⟩

end GuestShell.Libc
