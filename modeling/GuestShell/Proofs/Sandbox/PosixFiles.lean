import GuestShell.Sandbox.Posix
import GuestShell.Proofs.Sandbox.Keeps

/-!
# What the smaller interface does to files

Two facts about the fourteen functions, both read off one walk through them (`keeps_perform`).

Whatever a guest calls, the tree it leaves is one that operations lead to (`keeps_reached`).

And as long as a guest calls none of the functions that open, make, remove or rename something, its
tree stays what it was (`keeps_untouched`).  Reading, writing, seeking and closing are harmless then:
they go through a descriptor, and there is none.
-/

namespace GuestShell.Posix

open GuestShell.System FileTree

variable {R : FileTree → Slots Nat → Prop} {α : Type}

/-- The functions that can give a guest a descriptor or change what is at a place. -/
def changers : List PosixCall := [.open_, .mkdir, .rmdir, .unlink, .rename]

/-- A descriptor may be open where the relation holds. -/
def HasOpen (R : FileTree → Slots Nat → Prop) : Prop :=
  ∃ t d, R t d ∧ d ≠ Slots.empty

/-- What a function asks of the tree. -/
def Asks : PosixCall → Operation → Prop
  | .read, .read .. | .write, .write .. | .open_, .openPath .. | .close, .close _
  | .seek, .seek .. | .mkdir, .makeDirectory _ | .rmdir, .removeDirectory _
  | .unlink, .removeFile _ | .rename, .rename .. => True
  | _, _ => False

/-! ## Descriptors and paths -/

lemma handle_cases (fd : Int) (g : Guest) :
    (∃ e, handle fd g = .done (.error e, g)) ∨
      ∃ h, (firstFile : Int) ≤ fd ∧ g.descriptors.get? (fd - firstFile).toNat = some h ∧
        handle fd g = .done (.ok h, g) := by
  rw [handle]
  by_cases hfd : fd < firstFile
  · rw [if_pos hfd]
    exact .inl ⟨_, rfl⟩
  · simp only [if_neg hfd, bind_apply, process, pure, Task.bind_done]
    cases hget : g.descriptors.get? (fd - firstFile).toNat with
    | none => exact .inl ⟨_, rfl⟩
    | some h => exact .inr ⟨h, Int.not_lt.1 hfd, rfl, rfl⟩

/-- What goes through a descriptor matters only if one may be open. -/
lemma keeps_handle_bind {fd : Int} {f : Nat → Sys α} (hf : HasOpen R → ∀ h, Keeps R (f h)) :
    Keeps R (handle fd >>= f) := by
  intro g hg
  rw [bind_apply]
  rcases handle_cases fd g with ⟨e, hrun⟩ | ⟨h, -, hget, hrun⟩
  · rw [hrun]
    exact hg
  · have hopen : g.descriptors ≠ Slots.empty := by
      intro hempty
      simp [hempty] at hget
    rw [hrun]
    exact hf ⟨_, _, hg, hopen⟩ h g hg

lemma resolve_workingDirectory (s : String) : workingDirectory.resolve s = Path.ofText s := by
  rw [Path.resolve]
  split_ifs <;> rfl

lemma keeps_path_bind {address size : Nat} {f : Path → Sys α}
    (hf : ∀ s, Keeps R (f (Path.ofText s))) : Keeps R (path address size >>= f) := by
  rw [path, bind_assoc]
  refine keeps_bind (keeps_reading _) fun s => ?_
  rw [pure_bind, resolve_workingDirectory]
  exact hf s

/-! ## The functions -/

lemma keeps_read (fd : Int) (address size : Nat)
    (hR : HasOpen R → ∀ h, Tolerates R (.read h size)) : Keeps R (read fd address size) := by
  refine keeps_bind (keeps_reading _) fun _ => ?_
  have rest (data : Bytes) : Keeps R (do
      System.write address data
      return (data.length : Int) : Sys Int) :=
    keeps_bind (System.keeps_write _ _) fun _ => keeps_pure _
  refine keeps_ite (fun _ => keeps_bind (keeps_readInput _) rest) fun _ => ?_
  refine keeps_ite (fun _ => keeps_bind (keeps_fail _) rest) fun _ => ?_
  refine keeps_handle_bind fun hopen h => keeps_bind (keeps_onTree fun t d => ?_) rest
  exact hR hopen h 0 t d

lemma keeps_write (fd : Int) (address size : Nat)
    (hR : HasOpen R → ∀ h chunk, Tolerates R (.write h chunk)) : Keeps R (write fd address size) := by
  refine keeps_bind (keeps_reading _) fun data => ?_
  refine keeps_ite (fun _ => keeps_bind (keeps_ask _) fun _ => keeps_pure _) fun _ => ?_
  refine keeps_ite (fun _ => keeps_bind (keeps_ask _) fun _ => keeps_pure _) fun _ => ?_
  refine keeps_ite (fun _ => keeps_bind (keeps_fail _) fun _ => keeps_pure _) fun _ => ?_
  refine keeps_handle_bind fun hopen h => keeps_bind ?_ fun _ => keeps_pure _
  exact keeps_onTreeNow fun now t d => hR hopen h data now t d

lemma keeps_open (s : String) (flags : Nat) (hR : Tolerates R (.openPath s (openMode flags)))
    (hadd : ∀ t d h, R t d → R t (d.insert h)) : Keeps R (open_ (Path.ofText s) flags) := by
  refine keeps_bind ?_ fun h => keeps_bind ?_ fun _ => keeps_pure _
  · exact keeps_onTreeNow fun now t => hR now t
  · exact keeps_addDescriptor fun t ds => hadd t ds h

lemma keeps_close (fd : Int) (hR : HasOpen R → ∀ h, Tolerates R (.close h))
    (hdrop : ∀ t d k, R t d → R t (d.remove k)) : Keeps R (close fd) := by
  refine keeps_ite (fun _ => keeps_pure _) fun _ => keeps_handle_bind fun hopen h => ?_
  refine keeps_bind (keeps_dropDescriptor fun t d => hdrop t d _) fun _ => ?_
  refine keeps_bind (keeps_onTree fun t d => ?_) fun _ => keeps_pure _
  exact hR hopen h 0 t d

lemma keeps_seek (fd offset whence : Int) (hR : HasOpen R → ∀ h o, Tolerates R (.seek h o)) :
    Keeps R (seek fd offset whence) := by
  refine keeps_handle_bind fun hopen h => keeps_bind ?_ fun o => ?_
  · refine keeps_ite (fun _ => keeps_pure _) fun _ => ?_
    refine keeps_ite (fun _ => keeps_pure _) fun _ => ?_
    exact keeps_ite (fun _ => keeps_pure _) fun _ => keeps_fail _
  · refine keeps_bind (keeps_onTree fun t d => ?_) fun _ => keeps_pure _
    exact hR hopen h o 0 t d

lemma keeps_stat (p : Path) (address : Nat) : Keeps R (stat p address) :=
  keeps_bind (keeps_onTree_of_looks (looks_metadata p)) fun _ =>
    keeps_bind (System.keeps_write _ _) fun _ => keeps_pure _

lemma keeps_readdir (p : Path) (address room : Nat) : Keeps R (readdir p address room) :=
  keeps_bind (keeps_onTree_of_looks (looks_list p)) fun _ =>
    keeps_bind (System.keeps_write _ _) fun _ => keeps_pure _

lemma keeps_copyOut (address room : Nat) (bytes : Bytes) : Keeps R (copyOut address room bytes) :=
  keeps_bind (System.keeps_write _ _) fun _ => keeps_pure _

lemma keeps_getenv (name : String) (address room : Nat) : Keeps R (getenv name address room) := by
  refine keeps_bind keeps_process fun g => ?_
  split
  · exact keeps_copyOut _ _ _
  · exact keeps_pure _

lemma keeps_getcwd (address room : Nat) : Keeps R (getcwd address room) := by
  refine keeps_ite (fun _ => ?_) fun _ => keeps_copyOut _ _ _
  exact keeps_bind (keeps_fail _) fun _ => keeps_copyOut _ _ _

lemma keeps_change (op : Operation) {a : Moment → FileTree.Action Unit}
    (ha : ∀ now t, after (a now) t = op.apply now t) (hR : Tolerates R op) :
    Keeps R (change a) := by
  refine keeps_bind (keeps_onTreeNow fun now t d hRt => ?_) fun _ => keeps_pure _
  rw [ha]
  exact hR now t d hRt

/-- **A function keeps what the requests it makes keep**, and if it is none of those that change
places, it does so even where requests do not, unless a descriptor is open. -/
theorem keeps_perform {c : PosixCall} (args : List Value)
    (hR : c ∈ changers ∨ HasOpen R → ∀ op, Asks c op → Tolerates R op)
    (hadd : c = .open_ → ∀ t d h, R t d → R t (d.insert h))
    (hdrop : c = .close → ∀ t d k, R t d → R t (d.remove k)) : Keeps R (perform c args) := by
  have hopen : HasOpen R → ∀ op, Asks c op → Tolerates R op := fun h => hR (.inr h)
  cases c with
  | read => exact keeps_read _ _ _ fun h _ => hopen h _ trivial
  | write => exact keeps_write _ _ _ fun h _ _ => hopen h _ trivial
  | open_ =>
    have hc : PosixCall.open_ ∈ changers := by decide
    exact keeps_path_bind fun s => keeps_open _ _ (hR (.inl hc) _ trivial) (hadd rfl)
  | close => exact keeps_close _ (fun h _ => hopen h _ trivial) (hdrop rfl)
  | seek => exact keeps_seek _ _ _ fun h _ _ => hopen h _ trivial
  | exit => exact keeps_throw _
  | getenv => exact keeps_bind (keeps_reading _) fun name => keeps_getenv _ _ _
  | getcwd => exact keeps_getcwd _ _
  | stat => exact keeps_path_bind fun s => keeps_stat _ _
  | mkdir =>
    refine keeps_path_bind fun s => ?_
    exact keeps_change (.makeDirectory s) (fun _ _ => rfl) (hR (.inl (by decide)) _ trivial)
  | readdir => exact keeps_path_bind fun s => keeps_readdir _ _ _
  | rmdir =>
    refine keeps_path_bind fun s => ?_
    exact keeps_change (.removeDirectory s) (fun _ _ => rfl) (hR (.inl (by decide)) _ trivial)
  | unlink =>
    refine keeps_path_bind fun s => ?_
    exact keeps_change (.removeFile s) (fun _ _ => rfl) (hR (.inl (by decide)) _ trivial)
  | rename =>
    refine keeps_path_bind fun s => keeps_path_bind fun s' => ?_
    exact keeps_change (.rename s s') (fun _ _ => rfl) (hR (.inl (by decide)) _ trivial)

/-! ## Calls -/

/-- A call keeps what the function it is for keeps. -/
lemma always_call {index : Nat} {args : List Value} {g : Guest}
    (h : ∀ c, PosixCall.all[index]? = some c → Keeps R (perform c args))
    (hg : R g.tree g.descriptors) :
    (call index args g).Always fun r => R r.2.tree r.2.descriptors := by
  rw [call]
  cases hc : PosixCall.all[index]? with
  | none => exact hg
  | some c =>
    refine Task.always_bind.2 ((h c hc g hg).imp fun r hr => ?_)
    obtain ⟨(e | s) | n, g'⟩ := r <;> exact hr

/-- The tree is what requests have made of a fresh one. -/
def Reached (t : FileTree) : Prop := ∃ born calls, t = FileTree.run calls (fresh born)

lemma Reached.apply {t : FileTree} (h : Reached t) (now : Moment) (op : Operation) :
    Reached (op.apply now t) := by
  obtain ⟨born, calls, rfl⟩ := h
  exact ⟨born, calls ++ [(now, op)], by rw [FileTree.run, FileTree.run, List.foldl_concat]⟩

/-- **Whatever is called, the tree is one that requests lead to.** -/
theorem keeps_reached (c : PosixCall) (args : List Value) :
    Keeps (fun t _ => Reached t) (perform c args) :=
  keeps_perform args (fun _ op _ now _ _ h => h.apply now op) (fun _ _ _ _ h => h)
    fun _ _ _ _ h => h

/-- **Without a function that changes places, and with no descriptor open, nothing happens.** -/
theorem keeps_untouched {c : PosixCall} (args : List Value) (hc : c ∉ changers) (t : FileTree) :
    Keeps (fun u d => u = t ∧ d = Slots.empty) (perform c args) := by
  refine keeps_perform args ?_ ?_ ?_
  · rintro (h | ⟨u, d, ⟨-, hd⟩, hne⟩)
    · exact absurd h hc
    · exact absurd hd hne
  · rintro rfl
    exact absurd (by decide) hc
  · rintro - u d k ⟨hu, rfl⟩
    exact ⟨hu, rfl⟩

end GuestShell.Posix
