import GuestShell.Proofs.FileTree.Loaded
import GuestShell.Proofs.Sandbox.Reserved

/-!
# The tree that a run begins with

A run loads its files and then mounts its devices.  Loading looks at what is in the way of a file,
and gives a well-formed tree (`wellFormed_load`).  Mounting looks only at the directory of the
devices: where that is none, nothing is mounted, but whatever is at the place of a device is
replaced, a directory with files in it too.

So the files that were accepted are all still there, but for those at the place of a device, and the
tree is well formed unless one of them lies below such a place (`tree_at_start`).  `orphan_at_start`
has a tree in which a file lies in a device.
-/

namespace GuestShell.Libc

open FileTree

variable {now : Moment} {t : FileTree} {p q : Path} {n : Node}

/-! ## Mounting into a well-formed tree -/

/-- A tree with its devices, where they can be mounted. -/
def withDevices (now : Moment) (t : FileTree) : FileTree := devices.foldl (withDevice now) t

/-- All devices are mounted, or none, since there is no directory for them. -/
lemma mountable_or_blocked (now : Moment) (t : FileTree) :
    Mountable t ∨ ¬t.IsDirectory deviceHome ∧ withDevices now t = t := by
  by_cases h : Mountable t
  · exact .inl h
  simp only [Mountable, not_forall] at h
  obtain ⟨n, hn, hno⟩ := h
  refine .inr ⟨fun ⟨m, hm⟩ => hno ⟨m, Option.some.inj (hn.symm.trans hm)⟩, ?_⟩
  exact foldl_withDevice_of_blocked hn (fun m hm => hno ⟨m, hm⟩) fun d => reserved_of_mem_devices

/-- What was there is still there, or a device is. -/
lemma exists_node?_withDevices (now : Moment) (hp : t.node? p = some n) :
    ∃ k, (withDevices now t).node? p = some k := by
  rcases mountable_or_blocked now t with hm | ⟨-, hsame⟩
  · by_cases hreserved : IsReserved p
    · obtain ⟨d, hd⟩ := (hm.node?_devices now p).1 hreserved
      exact ⟨_, hd⟩
    · exact ⟨n, ((hm.node?_devices now p).2 hreserved n).2 (.inl hp)⟩
  · exact ⟨n, by rw [hsame, hp]⟩

/-- A directory is replaced only at the place of a device. -/
lemma isDirectory_withDevices (now : Moment) (hp : t.IsDirectory p) (hfree : ¬IsReserved p) :
    (withDevices now t).IsDirectory p := by
  obtain ⟨m, hm⟩ := hp
  rcases mountable_or_blocked now t with hcan | ⟨-, hsame⟩
  · exact ⟨m, ((hcan.node?_devices now p).2 hfree _).2 (.inl hm)⟩
  · exact ⟨m, by rw [hsame, hm]⟩

section Mounting

variable (h : t.WellFormed)

include h

/-- Without a directory for the devices there is nothing at their places. -/
lemma not_isReserved_of_blocked (hno : ¬t.IsDirectory deviceHome) (hp : t.node? p = some n) :
    ¬IsReserved p :=
  fun hreserved => hno (h.isHeld hp _ hreserved.parent?)

/-- **Mounting takes no file away** that is not at the place of a device. -/
lemma file?_withDevices (now : Moment) (p : Path) :
    (withDevices now t).file? p = if IsReserved p then none else t.file? p := by
  ext ⟨data, m⟩
  rw [file?_eq_some_iff]
  rcases mountable_or_blocked now t with hcan | ⟨hno, hsame⟩
  · obtain ⟨hin, hout⟩ := hcan.node?_devices now p
    split_ifs with hreserved
    · obtain ⟨d, hd⟩ := hin hreserved
      simp [withDevices, hd]
    · rw [file?_eq_some_iff]
      simpa [withDevices] using hout hreserved (.file data m)
  · rw [hsame]
    split_ifs with hreserved
    · exact iff_of_false (fun hp => not_isReserved_of_blocked h hno hp hreserved) nofun
    · exact file?_eq_some_iff.symm

/-- Every node is in a directory, or in a device that took the place of one. -/
lemma held_withDevices (hp : (withDevices now t).node? p = some n) (hq : p.parent? = some q) :
    (withDevices now t).IsDirectory q ∨
      IsReserved q ∧ t.IsDirectory q ∧ ∃ d, (withDevices now t).node? q = some (.device d) := by
  rcases mountable_or_blocked now t with hcan | ⟨-, hsame⟩
  · have hplaces : InPlace (withDevices now t) := hcan.inPlace h.rooted
    by_cases hreserved : IsReserved p
    · obtain rfl : deviceHome = q := Option.some.inj (hreserved.parent?.symm.trans hq)
      exact .inl hplaces.home
    rcases ((hcan.node?_devices now p).2 hreserved n).1 hp with hold | ⟨-, rfl, -⟩
    · have hdir : t.IsDirectory q := h.isHeld hold q hq
      by_cases hfree : IsReserved q
      · exact .inr ⟨hfree, hdir, hplaces.mounted q hfree⟩
      · exact .inl (isDirectory_withDevices now hdir hfree)
    · obtain rfl : Path.root = q := Option.some.inj (parent?_deviceHome.symm.trans hq)
      exact .inl hplaces.rooted
  · rw [hsame] at hp ⊢
    exact .inl (h.isHeld hp q hq)

lemma anchored_withDevices (hp : (withDevices now t).node? p = some n) : p.adrift = false := by
  rcases mountable_or_blocked now t with hcan | ⟨-, hsame⟩
  · by_cases hreserved : IsReserved p
    · exact IsFixture.adrift (.inr (.inr hreserved))
    rcases ((hcan.node?_devices now p).2 hreserved n).1 hp with hold | ⟨-, rfl, -⟩
    · exact h.anchored hold
    · exact IsFixture.adrift (.inr (.inl rfl))
  · exact h.anchored (hsame ▸ hp)

/-- A device takes the place of a directory, and what is in that directory stays. -/
lemma wellFormed_withDevices_iff (ho : t.Occupied) (now : Moment) :
    (withDevices now t).WellFormed ↔ ∀ p, IsReserved p → ¬t.IsDirectory p := by
  constructor
  · intro hmounted p hreserved hdir
    have hp : p.adrift = false := IsFixture.adrift (.inr (.inr hreserved))
    have hne : p ≠ Path.root := fun heq => not_isReserved_root (heq ▸ hreserved)
    obtain ⟨q, data, m, habove, hq⟩ := ho p hdir hne
    obtain ⟨k, hk⟩ := exists_node?_withDevices now hq
    obtain ⟨m', hm'⟩ := hmounted.isDirectory_of_isAbove hp hk habove
    rcases mountable_or_blocked now t with hcan | ⟨hno, -⟩
    · obtain ⟨d, hd⟩ := (hcan.node?_devices now p).1 hreserved
      cases hd.symm.trans hm'
    · obtain ⟨m, hm⟩ := hdir
      exact not_isReserved_of_blocked h hno hm hreserved
  · intro hfree
    refine WellFormed.of_nodes (fun p n => anchored_withDevices h)
      (isDirectory_withDevices now h.rooted not_isReserved_root) fun p n hp q hq => ?_
    rcases held_withDevices h hp hq with hdir | ⟨hreserved, hdir, -⟩
    · exact hdir
    · exact absurd hdir (hfree q hreserved)

end Mounting

/-! ## The beginning of a run -/

/-- **What a run begins with.**  There is a root.  Every other node lies in a directory or in a device,
and in a directory if none of the accepted files lies below the place of a device.  At the place of a
device there is no file; at any other place there is the file that was accepted for it last, with its
bytes and its time. -/
theorem tree_at_start (now : Moment) (environment : List (String × String)) (i : Invocation) :
    let t := (Guest.start now environment i).tree
    let kept := accepted now i.files (fresh now)
    t.IsDirectory Path.root ∧
    (∀ p n, t.node? p = some n → p ≠ Path.root → ∃ q, p.parent? = some q ∧
      (t.IsDirectory q ∨ IsReserved q ∧ ∃ d, t.node? q = some (.device d))) ∧
    (t.WellFormed ↔ ∀ p, IsReserved p → ∀ f ∈ kept, ¬p.isAbove (Path.ofText f.path) = true) ∧
    ∀ p, t.file? p = if IsReserved p then none else (latest p kept).map contents := by
  intro t kept
  have hloaded : (load now i.files (fresh now)).WellFormed := wellFormed_load now i.files
  have hoccupied : (load now i.files (fresh now)).Occupied :=
    Occupied.load (WellFormed.fresh now) (Occupied.fresh now) i.files
  have ht : t = withDevices now (load now i.files (fresh now)) := tree_start
  rw [ht]
  refine ⟨isDirectory_withDevices now hloaded.rooted not_isReserved_root, ?_, ?_, ?_⟩
  · intro p n hp hne
    obtain ⟨q, hq⟩ := Path.exists_parent? hne
    refine ⟨q, hq, (held_withDevices hloaded hp hq).imp_right ?_⟩
    rintro ⟨hreserved, -, hdevice⟩
    exact ⟨hreserved, hdevice⟩
  · rw [wellFormed_withDevices_iff hloaded hoccupied]
    refine forall_congr' fun p => forall_congr' fun hreserved => ?_
    have hp : p.adrift = false := IsFixture.adrift (.inr (.inr hreserved))
    have hne : p ≠ Path.root := fun heq => not_isReserved_root (heq ▸ hreserved)
    rw [isDirectory_load_iff i.files hp hne]
    exact not_exists.trans (forall_congr' fun f => not_and)
  · intro p
    rw [file?_withDevices hloaded, file?_load_fresh]

/-- A run that is given a file below the place of a device. -/
def fileBelowDevice : Invocation := ⟨"cat", [], [⟨"/dev/stdin/x", 5, [104, 105]⟩], none⟩

/-- **A run can begin with a file that lies in no directory.** -/
theorem orphan_at_start :
    let t := (Guest.start 7 [] fileBelowDevice).tree
    accepted 7 fileBelowDevice.files (fresh 7) = fileBelowDevice.files ∧
      t.node? (Path.ofText "/dev/stdin/x") = some (.file [104, 105] 5) ∧
      (Path.ofText "/dev/stdin/x").parent? = some (Path.ofText "/dev/stdin") ∧
      t.node? (Path.ofText "/dev/stdin") = some (.device .stdin) ∧ ¬t.WellFormed := by
  intro t
  have hchild : t.node? (Path.ofText "/dev/stdin/x") = some (.file [104, 105] 5) := by
    decide +kernel
  have hparent : (Path.ofText "/dev/stdin/x").parent? = some (Path.ofText "/dev/stdin") := by
    decide +kernel
  have hdevice : t.node? (Path.ofText "/dev/stdin") = some (.device .stdin) := by decide +kernel
  refine ⟨by decide +kernel, hchild, hparent, hdevice, fun hwell => ?_⟩
  obtain ⟨m, hm⟩ := hwell.isHeld hchild _ hparent
  rw [hdevice] at hm
  cases hm

end GuestShell.Libc
