import GuestShell.Sandbox.Libc
import GuestShell.Proofs.Sandbox.Keeps

/-!
# What the larger interface does to files

One walk through the functions (`keeps_perform`): whatever relation between tree and descriptors
survives the requests that a function makes, survives the function.
-/

namespace GuestShell.Libc

open GuestShell.System FileTree

variable {R : FileTree → Slots Descriptor → Prop} {α : Type}

/-- What a function asks of the tree. -/
def Asks : LibcCall → Operation → Prop
  | .fdRead, .read .. | .fdWrite, .write .. | .fdSeek, .seek .. | .fdTell, .seek ..
  | .fdClose, .close _ | .fdFilestatSetSize, .setLength .. | .pathOpen, .openPath ..
  | .pathCreateDirectory, .makeDirectory _ | .pathRemoveDirectory, .removeDirectory _
  | .pathRename, .rename .. | .pathUnlinkFile, .removeFile _ => True
  | _, _ => False

/-! ## Descriptors and paths -/

lemma descriptor_cases (fd : Int) (g : Guest) :
    (∃ e, descriptor fd g = .done (.error e, g)) ∨
      ∃ d, 0 ≤ fd ∧ g.descriptors.get? fd.toNat = some d ∧
        descriptor fd g = .done (.ok d, g) := by
  rw [descriptor]
  by_cases hfd : fd < 0
  · rw [if_pos hfd]
    exact .inl ⟨_, rfl⟩
  · simp only [if_neg hfd, bind_apply, process, pure, Task.bind_done]
    cases hget : g.descriptors.get? fd.toNat with
    | none => exact .inl ⟨_, rfl⟩
    | some d => exact .inr ⟨d, Int.not_lt.1 hfd, rfl, rfl⟩

lemma keeps_descriptor (fd : Int) : Keeps R (descriptor fd) := by
  intro g hg
  rcases descriptor_cases fd g with ⟨e, hrun⟩ | ⟨d, -, -, hrun⟩ <;>
  · rw [hrun]
    exact hg

lemma keeps_directory (fd : Int) : Keeps R (directory fd) := by
  refine keeps_bind (keeps_descriptor fd) fun d => ?_
  cases d with
  | directory p name => exact keeps_pure _
  | device d => exact keeps_fail _
  | file h append => exact keeps_fail _

/-- A place seen from a directory is a place that some text names. -/
lemma resolve_eq_ofText (base : Path) (s : String) :
    base.resolve s = Path.ofText (base.resolve s).text := by
  have hadrift : (base.resolve s).adrift = false := by
    rw [Path.resolve]
    split_ifs <;> simp [Path.ofText, Path.walk, Path.ofParts]
  rw [Path.ofText_text, Path.anchored_eq_self hadrift]

lemma keeps_path_bind {fd : Int} {address size : Nat} {f : Path → Sys α}
    (hf : ∀ s, Keeps R (f (Path.ofText s))) : Keeps R (path fd address size >>= f) := by
  rw [path, bind_assoc]
  refine keeps_bind (keeps_directory fd) fun base => ?_
  rw [bind_assoc]
  refine keeps_bind (keeps_reading _) fun s => ?_
  rw [pure_bind, resolve_eq_ofText]
  exact hf _

lemma keeps_deviceAt (p : Path) : Keeps R (deviceAt? p) :=
  keeps_bind keeps_process fun _ => keeps_pure _

/-! ## Arguments and environment -/

lemma keeps_writeTexts (texts : List String) (pointers target : Nat) :
    Keeps R (writeTexts pointers target texts) := by
  induction texts generalizing pointers target with
  | nil => exact keeps_pure _
  | cons s rest ih =>
    refine keeps_bind (keeps_writing _) fun _ => keeps_bind (System.keeps_write _ _) fun _ => ?_
    exact keeps_bind (System.keeps_write _ _) fun _ => ih _ _

lemma keeps_writeSizes (countAt sizeAt : Nat) (texts : List String) :
    Keeps R (writeSizes countAt sizeAt texts) :=
  keeps_bind (keeps_writing _) fun _ => keeps_writing _

/-! ## Streams and files -/

lemma keeps_areas (address count : Nat) : Keeps R (areas address count) := by
  have hread : Keeps R (do return areasOf (← System.reading (·.read address (count * 8))) :
      Sys (List Area)) := keeps_bind (keeps_reading _) fun _ => keeps_pure _
  exact keeps_ite (fun _ => keeps_bind (keeps_fail _) fun _ => hread) fun _ => hread

lemma keeps_readFrom (d : Descriptor) (size : Nat) (hR : ∀ h, Tolerates R (.read h size)) :
    Keeps R (readFrom d size) := by
  cases d with
  | device d =>
    cases d with
    | stdin => exact keeps_readInput _
    | tty => exact keeps_readInput _
    | stdout => exact keeps_fail _
    | stderr => exact keeps_fail _
  | directory p name => exact keeps_fail _
  | file h append => exact keeps_onTree fun t d => hR h 0 t d

lemma keeps_readAreas (hR : ∀ h len, Tolerates R (.read h len)) (d : Descriptor)
    (areas : List Area) (total : Nat) : Keeps R (readAreas d total areas) := by
  induction areas generalizing total with
  | nil => exact keeps_pure _
  | cons a rest ih =>
    refine keeps_ite (fun _ => ih total) fun _ => keeps_bind (keeps_reading _) fun _ => ?_
    refine keeps_bind (keeps_readFrom d a.size fun h => hR h a.size) fun data => ?_
    refine keeps_bind (System.keeps_write _ _) fun _ => ?_
    exact keeps_ite (fun _ => keeps_pure _) fun _ => ih _

lemma keeps_fdRead (fd : Int) (vector count resultAt : Nat)
    (hR : ∀ h len, Tolerates R (.read h len)) : Keeps R (fdRead fd vector count resultAt) := by
  refine keeps_bind (keeps_descriptor fd) fun d => keeps_bind (keeps_areas _ _) fun as => ?_
  exact keeps_bind (keeps_readAreas hR d as 0) fun _ => keeps_writing _

lemma keeps_gather (areas : List Area) : Keeps R (gather areas) := by
  induction areas with
  | nil => exact keeps_pure _
  | cons a rest ih =>
    exact keeps_bind (keeps_reading _) fun _ => keeps_bind ih fun _ => keeps_pure _

lemma keeps_writeTo (d : Descriptor) (data : Bytes) (hR : ∀ h, Tolerates R (.write h data)) :
    Keeps R (writeTo d data) := by
  cases d with
  | device d =>
    cases d with
    | stdout => exact keeps_ask _
    | tty => exact keeps_ask _
    | stderr => exact keeps_ask _
    | stdin => exact keeps_fail _
  | directory p name => exact keeps_fail _
  | file h append =>
    exact keeps_bind (keeps_onTreeNow fun now t d => hR h now t d) fun _ => keeps_pure _

lemma keeps_fdWrite (fd : Int) (vector count resultAt : Nat)
    (hR : ∀ h chunk, Tolerates R (.write h chunk)) :
    Keeps R (fdWrite fd vector count resultAt) := by
  refine keeps_bind (keeps_descriptor fd) fun d => keeps_bind (keeps_areas _ _) fun as => ?_
  refine keeps_bind (keeps_gather as) fun data => ?_
  exact keeps_bind (keeps_writeTo d data fun h => hR h data) fun _ => keeps_writing _

lemma keeps_origin (whence : Nat) (offset : Int) : Keeps R (origin whence offset) := by
  refine keeps_ite (fun _ => keeps_pure _) fun _ => ?_
  refine keeps_ite (fun _ => keeps_pure _) fun _ => ?_
  exact keeps_ite (fun _ => keeps_pure _) fun _ => keeps_fail _

lemma keeps_fdSeek (fd offset : Int) (whence : Nat) (hR : ∀ h o, Tolerates R (.seek h o)) :
    Keeps R (fdSeek fd offset whence) := by
  refine keeps_bind (keeps_descriptor fd) fun d => ?_
  cases d with
  | device d => exact keeps_fail _
  | directory p name => exact keeps_fail _
  | file h append =>
    exact keeps_bind (keeps_origin _ _) fun o => keeps_onTree fun t d => hR h o 0 t d

lemma keeps_fdClose (fd : Int) (hR : ∀ h, Tolerates R (.close h))
    (hdrop : ∀ t d k, R t d → R t (d.remove k)) : Keeps R (fdClose fd) := by
  refine keeps_bind (keeps_descriptor fd) fun d => ?_
  refine keeps_bind (keeps_dropDescriptor fun t d => hdrop t d _) fun _ => ?_
  cases d with
  | device d => exact keeps_pure _
  | directory p name => exact keeps_pure _
  | file h append => exact keeps_onTree fun t d => hR h 0 t d

/-! ## Records -/

lemma keeps_fdFdstatGet (fd : Int) (address : Nat) : Keeps R (fdFdstatGet fd address) :=
  keeps_bind (keeps_descriptor fd) fun _ => System.keeps_write _ _

lemma keeps_fdFilestatGet (fd : Int) (address : Nat) : Keeps R (fdFilestatGet fd address) := by
  refine keeps_bind (keeps_descriptor fd) fun d => ?_
  cases d with
  | device d => exact keeps_bind (keeps_pure _) fun _ => System.keeps_write _ _
  | directory p name =>
    have hlook := keeps_onTree_of_looks (ε := LibcError) (R := R) (looks_metadata p)
    exact keeps_bind (keeps_map _ hlook) fun _ => System.keeps_write _ _
  | file h append =>
    have hlook := keeps_onTree_of_looks (ε := LibcError) (R := R) (looks_handleMetadata h)
    exact keeps_bind (keeps_map _ hlook) fun _ => System.keeps_write _ _

lemma keeps_fdFilestatSetSize (fd : Int) (size : Nat) (hR : ∀ h, Tolerates R (.setLength h size)) :
    Keeps R (fdFilestatSetSize fd size) := by
  refine keeps_bind (keeps_descriptor fd) fun d => ?_
  cases d with
  | device d => exact keeps_fail _
  | directory p name => exact keeps_fail _
  | file h append => exact keeps_onTreeNow fun now t d => hR h now t d

lemma keeps_preopenName (fd : Int) : Keeps R (preopenName fd) := by
  refine keeps_bind (keeps_descriptor fd) fun d => ?_
  split
  · exact keeps_pure _
  · exact keeps_fail _

lemma keeps_pathFilestatGet (p : Path) (address : Nat) : Keeps R (pathFilestatGet p address) := by
  refine keeps_bind (keeps_deviceAt p) fun d => ?_
  cases d with
  | some d => exact keeps_bind (keeps_pure _) fun _ => System.keeps_write _ _
  | none =>
    refine keeps_bind (keeps_onTree_of_looks (looks_metadata p)) fun _ => ?_
    exact keeps_bind (keeps_pure _) fun _ => System.keeps_write _ _

/-! ## Places -/

lemma keeps_listed (p : Path) : Keeps R (listed p) :=
  keeps_bind (keeps_onTree_of_looks (looks_list p)) fun _ =>
    keeps_bind keeps_process fun _ => keeps_pure _

lemma keeps_fdReaddir (fd : Int) (address room cookie usedAt : Nat) :
    Keeps R (fdReaddir fd address room cookie usedAt) := by
  refine keeps_bind (keeps_directory fd) fun p => keeps_bind (keeps_listed p) fun entries => ?_
  exact keeps_bind (System.keeps_write _ _) fun _ => keeps_writing _

lemma keeps_isDirectory (p : Path) : Keeps R (isDirectory p) := by
  refine keeps_bind keeps_process fun g => ?_
  split <;> exact keeps_pure _

lemma keeps_openPlace (s : String) (f : OpenFlags)
    (hR : ∀ mode, Tolerates R (.openPath s mode)) : Keeps R (openPlace (Path.ofText s) f) := by
  refine keeps_bind (keeps_deviceAt _) fun d => ?_
  cases d with
  | some d => exact keeps_pure _
  | none =>
    refine keeps_bind (keeps_isDirectory _) fun _ => keeps_ite (fun _ => ?_) fun _ => ?_
    · refine keeps_ite (fun _ => keeps_fail _) fun _ => ?_
      exact keeps_ite (fun _ => keeps_fail _) fun _ => keeps_pure _
    · refine keeps_ite (fun _ => keeps_bind keeps_process fun _ => ?_) fun _ => ?_
      · exact keeps_ite (fun _ => keeps_fail _) fun _ => keeps_fail _
      · refine keeps_bind (keeps_onTreeNow fun now t d => ?_) fun h => keeps_pure _
        exact hR _ now t d

lemma keeps_pathOpen (s : String) (f : OpenFlags) (resultAt : Nat)
    (hR : ∀ mode, Tolerates R (.openPath s mode)) (hadd : ∀ t ds d, R t ds → R t (ds.insert d)) :
    Keeps R (pathOpen (Path.ofText s) f resultAt) := by
  refine keeps_bind (keeps_openPlace s f hR) fun d => ?_
  exact keeps_bind (keeps_addDescriptor fun t ds => hadd t ds d) fun _ => keeps_writing _

lemma keeps_pathUnlinkFile (s : String) (hR : Tolerates R (.removeFile s)) :
    Keeps R (pathUnlinkFile (Path.ofText s)) := by
  refine keeps_bind (keeps_deviceAt _) fun d => ?_
  cases d with
  | some d => exact keeps_fail _
  | none => exact keeps_onTree fun t d => hR 0 t d

/-! ## All together -/

lemma keeps_randomGet (address size : Nat) : Keeps R (randomGet address size) := by
  refine keeps_bind (keeps_reading _) fun _ => keeps_bind keeps_process fun g => ?_
  exact keeps_bind (keeps_update fun _ => ⟨rfl, rfl⟩) fun _ => System.keeps_write _ _

/-- **A function keeps what the requests it makes keep.** -/
theorem keeps_perform {c : LibcCall} (args : List Value)
    (hR : ∀ op, Asks c op → Tolerates R op)
    (hadd : c = .pathOpen → ∀ t ds d, R t ds → R t (ds.insert d))
    (hdrop : c = .fdClose → ∀ t d k, R t d → R t (d.remove k)) : Keeps R (perform c args) := by
  cases c with
  | argsGet => exact keeps_bind keeps_process fun _ => keeps_writeTexts _ _ _
  | argsSizesGet => exact keeps_bind keeps_process fun _ => keeps_writeSizes _ _ _
  | environGet => exact keeps_bind keeps_process fun _ => keeps_writeTexts _ _ _
  | environSizesGet => exact keeps_bind keeps_process fun _ => keeps_writeSizes _ _ _
  | clockResGet => exact keeps_ite (fun _ => keeps_writing _) fun _ => keeps_fail _
  | clockTimeGet =>
    refine keeps_ite (fun _ => ?_) fun _ => keeps_fail _
    exact keeps_bind (keeps_ask _) fun _ => keeps_writing _
  | fdAdvise => exact keeps_bind (keeps_descriptor _) fun _ => keeps_pure _
  | fdDatasync => exact keeps_bind (keeps_descriptor _) fun _ => keeps_pure _
  | fdSync => exact keeps_bind (keeps_descriptor _) fun _ => keeps_pure _
  | fdFdstatSetFlags => exact keeps_bind (keeps_descriptor _) fun _ => keeps_pure _
  | fdClose => exact keeps_fdClose _ (fun _ => hR _ trivial) (hdrop rfl)
  | fdFdstatGet => exact keeps_fdFdstatGet _ _
  | fdFilestatGet => exact keeps_fdFilestatGet _ _
  | fdFilestatSetSize => exact keeps_fdFilestatSetSize _ _ fun _ => hR _ trivial
  | fdPrestatGet => exact keeps_bind (keeps_preopenName _) fun _ => System.keeps_write _ _
  | fdPrestatDirName => exact keeps_bind (keeps_preopenName _) fun _ => System.keeps_write _ _
  | fdRead => exact keeps_fdRead _ _ _ _ fun _ _ => hR _ trivial
  | fdReaddir => exact keeps_fdReaddir _ _ _ _ _
  | fdSeek =>
    exact keeps_bind (keeps_fdSeek _ _ _ fun _ _ => hR _ trivial) fun _ => keeps_writing _
  | fdTell =>
    exact keeps_bind (keeps_fdSeek _ _ _ fun _ _ => hR _ trivial) fun _ => keeps_writing _
  | fdWrite => exact keeps_fdWrite _ _ _ _ fun _ _ => hR _ trivial
  | pathCreateDirectory =>
    refine keeps_path_bind fun s => keeps_onTreeNow fun now t d => ?_
    exact hR (.makeDirectory s) trivial now t d
  | pathFilestatGet => exact keeps_path_bind fun s => keeps_pathFilestatGet _ _
  | pathOpen =>
    exact keeps_path_bind fun s => keeps_pathOpen s _ _ (fun _ => hR _ trivial) (hadd rfl)
  | pathRemoveDirectory =>
    refine keeps_path_bind fun s => keeps_onTree fun t d => ?_
    exact hR (.removeDirectory s) trivial 0 t d
  | pathRename =>
    refine keeps_path_bind fun s => keeps_path_bind fun s' => keeps_onTree fun t d => ?_
    exact hR (.rename s s') trivial 0 t d
  | pathUnlinkFile => exact keeps_path_bind fun s => keeps_pathUnlinkFile s (hR _ trivial)
  | procExit => exact keeps_throw _
  | randomGet => exact keeps_randomGet _ _
  | schedYield => exact keeps_pure _
  | pollOneoff => exact keeps_fail _
  | sockAccept => exact keeps_fail _
  | sockRecv => exact keeps_fail _
  | sockSend => exact keeps_fail _
  | sockShutdown => exact keeps_fail _

/-! ## Calls -/

/-- What holds of a guest, and after whatever function it calls, holds after the call. -/
lemma always_call_of_perform {P : Guest → Prop} {index : Nat} {args : List Value} {g : Guest}
    (h : ∀ c, LibcCall.all[index]? = some c → (perform c args g).Always fun r => P r.2) (hg : P g) :
    (call index args g).Always fun r => P r.2 := by
  rw [call]
  cases hc : LibcCall.all[index]? with
  | none => exact hg
  | some c =>
    refine Task.always_bind.2 ((h c hc).imp fun r hr => ?_)
    obtain ⟨(e | s) | n, g'⟩ := r <;> exact hr

lemma always_call {index : Nat} {args : List Value} {g : Guest}
    (h : ∀ c, LibcCall.all[index]? = some c → Keeps R (perform c args))
    (hg : R g.tree g.descriptors) :
    (call index args g).Always fun r => R r.2.tree r.2.descriptors :=
  always_call_of_perform (P := fun g => R g.tree g.descriptors) (fun c hc => h c hc g hg) hg

end GuestShell.Libc
