import GuestShell.Proofs.Sandbox.PosixFailures

/-!
# What a failing call leaves behind under the larger interface

Under the larger interface a function that fails with a code has changed nothing but the memory
(`Tidy`), with one exception.  Four functions tell their result at the end, by putting it into
memory, and when there is no memory where it is to go, the function fails although all else is done:
input is read, bytes are written, a position is moved, or a descriptor is open (`Unheard`).  Reading
into several areas also gives up at the first one that does not fit, with what was read for those
before it.

The main statement is `perform_failure`; `failures_with_traces` has one call of each kind.
-/

namespace GuestShell

open FileTree (Action)

namespace System

variable {ε δ α β : Type} {p q : Process δ} {log : Log}

/-- If the function fails with a code, it has changed nothing but the memory and asked nobody but
the clock. -/
def Tidy (a : System ε δ α) (p : Process δ) : Prop :=
  ∀ log e q, Ran a p log (.error (.code e)) q →
    q = { p with memory := q.memory } ∧ ∀ r ∈ log, r.1 = .clock

/-- The function changes nothing but the memory and asks nobody. -/
def Scribbles (a : System ε δ α) : Prop :=
  ∀ p log r q, Ran a p log r q → log = [] ∧ q = { p with memory := q.memory }

lemma Spotless.tidy {a : System ε δ α} (h : Spotless a p) : Tidy a p := by
  intro log e q hrun
  obtain ⟨rfl, hlog⟩ := h log e q hrun
  exact ⟨rfl, hlog⟩

lemma Scribbles.tidy {a : System ε δ α} (h : Scribbles a) : Tidy a p := by
  intro log e q hrun
  obtain ⟨rfl, hq⟩ := h p log _ q hrun
  exact ⟨hq, by simp⟩

lemma Looks.scribbles {a : System ε δ α} (h : Looks a) : Scribbles a := by
  intro p log r q hrun
  obtain ⟨rfl, rfl⟩ := h p log r q hrun
  exact ⟨rfl, rfl⟩

lemma scribbles_writing [ErrorCode ε] (a : Memory → Except EngineError Memory) :
    Scribbles (writing a : System ε δ Unit) := by
  intro p log r q hrun
  obtain ⟨rfl, ⟨m, -, -, rfl⟩ | ⟨e, -, -, rfl⟩⟩ := ran_writing_iff.1 hrun
  · exact ⟨rfl, rfl⟩
  · exact ⟨rfl, rfl⟩

lemma scribbles_bind {a : System ε δ α} {f : α → System ε δ β} (ha : Scribbles a)
    (hf : ∀ v, Scribbles (f v)) : Scribbles (a >>= f) := by
  intro p log r q hrun
  rcases ran_bind_iff.1 hrun with ⟨e, rfl, hfail⟩ | ⟨v, u, before, after, rfl, hfirst, hrest⟩
  · exact ha p log _ q hfail
  · obtain ⟨rfl, hu⟩ := ha p before _ u hfirst
    obtain ⟨rfl, hq⟩ := hf v u after r q hrest
    rw [hu] at hq
    exact ⟨rfl, hq⟩

lemma tidy_ite {c : Prop} [Decidable c] {a b : System ε δ α} (ha : Tidy a p) (hb : Tidy b p) :
    Tidy (if c then a else b) p := by
  split_ifs
  · exact ha
  · exact hb

/-- First a look at the clock, then something tidy. -/
lemma tidy_clock_bind {f : Moment → System ε δ β} (hf : ∀ now, Tidy (f now) p) :
    Tidy ((ask .clock : System ε δ Moment) >>= f) p := by
  intro log e q hrun
  rcases ran_bind_iff.1 hrun with ⟨_, hr, hfail⟩ | ⟨now, u, before, after, rfl, hask, hrest⟩
  · obtain ⟨_, -, hr', -⟩ := ran_ask_iff.1 hfail
    cases hr'
  · obtain ⟨_, rfl, -, rfl⟩ := ran_ask_iff.1 hask
    obtain ⟨hq, hlog⟩ := hf now _ _ _ hrest
    exact ⟨hq, List.forall_mem_cons.2 ⟨rfl, hlog⟩⟩

lemma looks_map {f : α → β} {a : System ε δ α} (ha : Looks a) : Looks (f <$> a) := by
  rw [map_eq_pure_bind]
  exact looks_bind ha fun _ => looks_pure _

/-- The function does not write to the memory. -/
def KeepsMemory (a : System ε δ α) : Prop := ∀ p log r q, Ran a p log r q → q.memory = p.memory

lemma Looks.keepsMemory {a : System ε δ α} (h : Looks a) : KeepsMemory a := by
  intro p log r q hrun
  rw [(h p log r q hrun).2]

lemma keepsMemory_ask (r : Run.Request) : KeepsMemory (ask r : System ε δ (Run.Answer r)) := by
  intro p log r q hrun
  obtain ⟨_, -, -, rfl⟩ := ran_ask_iff.1 hrun
  rfl

lemma keepsMemory_onTree [ErrorCode ε] (a : Action α) : KeepsMemory (onTree a : System ε δ α) := by
  intro p log r q hrun
  obtain ⟨-, ⟨_, _, -, -, rfl⟩ | ⟨_, _, -, -, rfl⟩⟩ := ran_onTree_iff.1 hrun
  · rfl
  · rfl

lemma keepsMemory_bind {a : System ε δ α} {f : α → System ε δ β} (ha : KeepsMemory a)
    (hf : ∀ v, KeepsMemory (f v)) : KeepsMemory (a >>= f) := by
  intro p log r q hrun
  rcases ran_bind_iff.1 hrun with ⟨e, rfl, hfail⟩ | ⟨v, u, before, after, rfl, hfirst, hrest⟩
  · exact ha p log _ q hfail
  · exact (hf v u after r q hrest).trans (ha p before _ u hfirst)

lemma keepsMemory_onTreeNow [ErrorCode ε] (a : Moment → Action α) :
    KeepsMemory (onTreeNow a : System ε δ α) :=
  keepsMemory_bind (keepsMemory_ask .clock) fun _ => keepsMemory_onTree _

/-- Something spotless, the result of which is put into memory at the end: if it fails with a code,
it has changed nothing, or there is no memory where the result is to go. -/
lemma Spotless.tell [ErrorCode ε] {a : System ε δ α} {w : α → Memory → Except EngineError Memory}
    {bound : Nat} {e : ε} (ha : Spotless a p) (hmemory : KeepsMemory a)
    (hw : ∀ v m f, w v m = .error f → m.size < bound)
    (h : Ran (a >>= fun v => writing (w v)) p log (.error (.code e)) q) :
    (q = p ∧ ∀ r ∈ log, r.1 = .clock) ∨ e = ErrorCode.badAddress ∧ p.memory.size < bound := by
  rcases ran_bind_iff.1 h with ⟨_, hr, hfail⟩ | ⟨v, u, before, _, -, hfirst, hrest⟩
  · cases hr
    exact .inl (ha _ _ _ hfail)
  · obtain ⟨-, ⟨_, -, hr, -⟩ | ⟨f, herror, hr, -⟩⟩ := ran_writing_iff.1 hrest
    · cases hr
    · cases hr
      rw [← hmemory _ _ _ _ hfirst]
      exact .inr ⟨rfl, hw v u.memory f herror⟩

end System

namespace Libc

open GuestShell.System FileTree

variable {g q : Guest} {log : Log}

/-! ## Functions that leave no trace -/

lemma scribbles_writeTexts (pointers target : Nat) (texts : List String) :
    Scribbles (writeTexts pointers target texts) := by
  induction texts generalizing pointers target with
  | nil => exact (looks_pure _).scribbles
  | cons s rest ih =>
    refine scribbles_bind (scribbles_writing _) fun _ => ?_
    refine scribbles_bind (scribbles_writing _) fun _ => ?_
    exact scribbles_bind (scribbles_writing _) fun _ => ih _ _

lemma scribbles_writeSizes (countAt sizeAt : Nat) (texts : List String) :
    Scribbles (writeSizes countAt sizeAt texts) :=
  scribbles_bind (scribbles_writing _) fun _ => scribbles_writing _

lemma scribbles_fdFdstatGet (fd : Int) (address : Nat) : Scribbles (fdFdstatGet fd address) :=
  scribbles_bind (looks_descriptor fd).scribbles fun _ => scribbles_writing _

lemma scribbles_fdFilestatGet (fd : Int) (address : Nat) :
    Scribbles (fdFilestatGet fd address) := by
  refine scribbles_bind (looks_descriptor fd).scribbles fun d => ?_
  cases d with
  | device d => exact scribbles_bind (looks_pure _).scribbles fun _ => scribbles_writing _
  | directory p name =>
    have hlook := looks_onTree (ε := LibcError) (δ := Descriptor) (looks_metadata p)
    exact scribbles_bind (looks_map hlook).scribbles fun _ => scribbles_writing _
  | file h append =>
    have hlook := looks_onTree (ε := LibcError) (δ := Descriptor) (looks_handleMetadata h)
    exact scribbles_bind (looks_map hlook).scribbles fun _ => scribbles_writing _

lemma looks_preopenName (fd : Int) : Looks (preopenName fd) := by
  refine looks_bind (looks_descriptor fd) fun d => ?_
  split
  · exact looks_pure _
  · exact looks_fail _

lemma scribbles_pathFilestatGet (p : Path) (address : Nat) :
    Scribbles (pathFilestatGet p address) := by
  refine scribbles_bind (looks_deviceAt p).scribbles fun d => ?_
  cases d with
  | some d => exact scribbles_bind (looks_pure _).scribbles fun _ => scribbles_writing _
  | none =>
    have hlook : Looks (System.onTree (FileTree.metadata p) : Sys _) :=
      looks_onTree (looks_metadata p)
    exact scribbles_bind hlook.scribbles fun _ =>
      scribbles_bind (looks_pure _).scribbles fun _ => scribbles_writing _

lemma scribbles_fdReaddir (fd : Int) (address room cookie usedAt : Nat) :
    Scribbles (fdReaddir fd address room cookie usedAt) := by
  have hlisted (p : Path) : Looks (listed p) :=
    looks_bind (looks_onTree (looks_list p)) fun _ => looks_bind looks_process fun _ => looks_pure _
  refine scribbles_bind (looks_directory fd).scribbles fun p => ?_
  refine scribbles_bind (hlisted p).scribbles fun entries => ?_
  exact scribbles_bind (scribbles_writing _) fun _ => scribbles_writing _

lemma spotless_fdFilestatSetSize (fd : Int) (size : Nat) :
    Spotless (fdFilestatSetSize fd size) g := by
  refine (looks_descriptor fd).spotless_bind fun d _ => ?_
  cases d with
  | device d => exact (looks_fail _).spotless
  | directory p name => exact (looks_fail _).spotless
  | file h append => exact spotless_onTreeNow fun _ => atomic_setLength h size

lemma spotless_pathUnlinkFile (p : Path) : Spotless (pathUnlinkFile p) g := by
  refine (looks_deviceAt p).spotless_bind fun d _ => ?_
  cases d with
  | some d => exact (looks_fail _).spotless
  | none => exact spotless_onTree (atomic_removeFile p)

lemma get?_of_ran_descriptor {fd : Int} {d : Descriptor}
    (h : Ran (descriptor fd) g log (.ok d) q) : g.descriptors.get? fd.toNat = some d := by
  rcases descriptor_cases fd g with ⟨e, hrun⟩ | ⟨d', -, hget, hrun⟩
  · rw [Ran, hrun] at h
    cases (Task.runs_done_pair_iff.1 h).2.1
  · rw [Ran, hrun] at h
    cases (Task.runs_done_pair_iff.1 h).2.1
    exact hget

/-- The descriptor is gone before its handle is closed, but the handle of a descriptor is open. -/
lemma spotless_fdClose (hm : Matched handle? g.tree g.descriptors) (fd : Int) :
    Spotless (fdClose fd) g := by
  refine (looks_descriptor fd).spotless_bind fun d hd => ?_
  intro log e q hrun
  rw [ran_dropDescriptor_bind_iff] at hrun
  cases d with
  | device d => exact absurd (ran_pure_iff.1 hrun).2.1 (by simp)
  | directory p name => exact absurd (ran_pure_iff.1 hrun).2.1 (by simp)
  | file h append =>
    have hat : handleAt handle? g.descriptors fd.toNat = some h := by
      rw [handleAt, get?_of_ran_descriptor hd]
      rfl
    have hclosed := ran_closeHandle hrun (hm.live fd.toNat h hat)
    exact absurd hclosed.1 (by simp)

lemma looks_origin (whence : Nat) (offset : Int) : Looks (origin whence offset) :=
  looks_ite (looks_pure _) (looks_ite (looks_pure _) (looks_ite (looks_pure _) (looks_fail _)))

lemma spotless_fdSeek (fd offset : Int) (whence : Nat) : Spotless (fdSeek fd offset whence) g := by
  refine (looks_descriptor fd).spotless_bind fun d _ => ?_
  cases d with
  | device d => exact (looks_fail _).spotless
  | directory p name => exact (looks_fail _).spotless
  | file h append =>
    exact (looks_origin _ _).spotless_bind fun o _ => spotless_onTree (atomic_seek h o)

lemma keepsMemory_fdSeek (fd offset : Int) (whence : Nat) :
    KeepsMemory (fdSeek fd offset whence) := by
  refine keepsMemory_bind (looks_descriptor fd).keepsMemory fun d => ?_
  cases d with
  | device d => exact (looks_fail _).keepsMemory
  | directory p name => exact (looks_fail _).keepsMemory
  | file h append =>
    exact keepsMemory_bind (looks_origin _ _).keepsMemory fun o => keepsMemory_onTree _

lemma spotless_openPlace (p : Path) (f : OpenFlags) : Spotless (openPlace p f) g := by
  refine (looks_deviceAt p).spotless_bind fun d _ => ?_
  cases d with
  | some d => exact (looks_pure _).spotless
  | none =>
    refine (looks_isDirectory p).spotless_bind fun b _ => ?_
    refine spotless_ite (fun _ => ?_) fun _ => spotless_ite (fun _ => ?_) fun _ => ?_
    · exact (looks_ite (looks_fail _) (looks_ite (looks_fail _) (looks_pure _))).spotless
    · exact (looks_bind looks_process fun _ => looks_ite (looks_fail _) (looks_fail _)).spotless
    · exact (spotless_onTreeNow fun now => atomic_openPath p _).bind_sure fun _ _ _ _ => sure_pure _

lemma keepsMemory_openPlace (p : Path) (f : OpenFlags) : KeepsMemory (openPlace p f) := by
  intro g log r q h
  rcases ran_openPlace h with ⟨rfl, -⟩ | ⟨_, _, -, rfl, -⟩
  · rfl
  · rfl

lemma spotless_writeTo (d : Descriptor) (data : Bytes) : Spotless (writeTo d data) g := by
  cases d with
  | device d =>
    cases d with
    | stdin => exact (looks_fail _).spotless
    | stdout => exact (sure_ask (.stdout data)).spotless
    | stderr => exact (sure_ask (.stderr data)).spotless
    | tty => exact (sure_ask (.stdout data)).spotless
  | directory p name => exact (looks_fail _).spotless
  | file h append =>
    exact (spotless_onTreeNow fun now => atomic_write h data).bind_sure fun _ _ _ _ => sure_pure _

lemma keepsMemory_writeTo (d : Descriptor) (data : Bytes) : KeepsMemory (writeTo d data) := by
  cases d with
  | device d =>
    cases d with
    | stdin => exact (looks_fail _).keepsMemory
    | stdout => exact keepsMemory_ask (.stdout data)
    | stderr => exact keepsMemory_ask (.stderr data)
    | tty => exact keepsMemory_ask (.stdout data)
  | directory p name => exact (looks_fail _).keepsMemory
  | file h append =>
    exact keepsMemory_bind (keepsMemory_onTreeNow _) fun _ => (looks_pure _).keepsMemory

/-- The area was checked before the source moved on, so the bytes can be stored. -/
lemma spotless_randomGet (address size : Nat) : Spotless (randomGet address size) g := by
  refine (looks_reading _).spotless_bind fun _ hcheck => looks_process.spotless_bind fun g' _ => ?_
  have hsize := fits_of_ran_check hcheck
  refine Sure.spotless (sure_bind (sure_update _) fun log v u hupdate => sure_write ?_)
  obtain ⟨-, -, rfl⟩ := Task.runs_done_pair_iff.1 hupdate
  have hlength := List.length_take_le size (randomWords g'.random ((size + 7) / 8)).1
  exact (Nat.add_le_add_left hlength address).trans hsize

lemma looks_areas (address count : Nat) : Looks (areas address count) := by
  have hread : Looks (do return areasOf (← System.reading (·.read address (count * 8))) :
      Sys (List Area)) := looks_bind (looks_reading _) fun _ => looks_pure _
  exact looks_ite (looks_bind (looks_fail _) fun _ => hread) hread

/-- The areas are those that the vector in memory names. -/
lemma areasOf_of_ran_areas {address count : Nat} {as : List Area}
    (h : Ran (areas address count) g log (.ok as) q) :
    ∃ bytes, g.memory.read address (count * 8) = .ok bytes ∧ as = areasOf bytes := by
  rw [areas] at h
  split_ifs at h
  · rcases ran_bind_iff.1 h with ⟨_, hr, -⟩ | ⟨_, _, _, _, -, hfail, -⟩
    · cases hr
    · cases (ran_throw_iff.1 hfail).2.1
  · rcases ran_bind_iff.1 h with ⟨_, hr, -⟩ | ⟨bytes, _, _, _, -, hread, hend⟩
    · cases hr
    · obtain ⟨-, -, ⟨_, hok, hv⟩ | ⟨_, -, hv⟩⟩ := ran_reading_iff.1 hread
      · cases hv
        exact ⟨bytes, hok, Except.ok.inj (ran_pure_iff.1 hend).2.1⟩
      · cases hv

lemma looks_gather (as : List Area) : Looks (gather as) := by
  induction as with
  | nil => exact looks_pure _
  | cons a rest ih =>
    exact looks_bind (looks_reading _) fun _ => looks_bind ih fun _ => looks_pure _

/-! ## Reading into areas -/

/-- A handle that bytes can be read from. -/
def Readable (h : Nat) (t : FileTree) : Prop :=
  ∃ f data m, t.opened.get? h = some f ∧ f.readable = true ∧ t.node? f.path = some (.file data m)

lemma Readable.read {h : Nat} {t : FileTree} (hr : Readable h t) (len : Nat) :
    ∃ data t', FileTree.read h len t = .ok data t' := by
  obtain ⟨f, data, m, hf, hreadable, hn⟩ := hr
  have hfile : fileAt f.path t = .ok (data, m) t := by
    rw [fileAt, get_bind, hn]
    rfl
  rw [FileTree.read, bind_ok (openFile_ok hf), hreadable]
  exact ⟨_, _, bind_ok hfile⟩

/-- A handle that was read from can be read from again. -/
lemma readable_of_read {h len : Nat} {t t' : FileTree} {data : Bytes}
    (hread : FileTree.read h len t = .ok data t') : Readable h t' := by
  rw [FileTree.read] at hread
  rcases openFile_cases h t with hopen | ⟨f, hf, hopen⟩
  · rw [bind_error hopen] at hread
    cases hread
  rw [bind_ok hopen] at hread
  cases hreadable : f.readable with
  | false =>
    rw [hreadable] at hread
    cases hread
  | true =>
    rw [hreadable] at hread
    rcases fileAt_cases f.path t with hfile | ⟨contents, m, hn, hfile⟩
    · cases (bind_error hfile).symm.trans hread
    · cases (bind_ok hfile).symm.trans hread
      refine ⟨{ f with position := f.position + ((contents.drop f.position).take len).length },
        contents, m, ?_, hreadable, hn⟩
      rw [Slots.get?_modify, if_pos rfl, hf]
      rfl

lemma spotless_readFrom (d : Descriptor) (size : Nat) : Spotless (readFrom d size) g := by
  cases d with
  | device d =>
    have hinput : Spotless (System.readInput size : Sys Bytes) g := by
      refine Sure.spotless fun log e q h => ?_
      rcases ran_readInput h with ⟨_, hr⟩ | ⟨_, hr, -⟩
      · cases hr
      · cases hr
    cases d with
    | stdin => exact hinput
    | tty => exact hinput
    | stdout => exact (looks_fail _).spotless
    | stderr => exact (looks_fail _).spotless
  | directory p name => exact (looks_fail _).spotless
  | file h append => exact spotless_onTree (atomic_read h size)

/-- What is read is no more than there was room for, and the memory is left alone. -/
lemma ran_readFrom_ok {d : Descriptor} {size : Nat} {data : Bytes}
    (h : Ran (readFrom d size) g log (.ok data) q) :
    data.length ≤ size ∧ q.memory = g.memory ∧
      ∀ handle append, d = .file handle append → Readable handle q.tree := by
  cases d with
  | device d =>
    have hinput (hread : Ran (System.readInput size : Sys Bytes) g log (.ok data) q) :
        data.length ≤ size ∧ q.memory = g.memory ∧
          ∀ handle append, Descriptor.device d = .file handle append → Readable handle q.tree := by
      rcases ran_readInput hread with ⟨_, hr⟩ | ⟨chunk, hr, hlength, hmemory⟩
      · cases hr
      · cases hr
        exact ⟨hlength, hmemory, nofun⟩
    cases d with
    | stdin => exact hinput h
    | tty => exact hinput h
    | stdout => cases (ran_throw_iff.1 h).2.1
    | stderr => cases (ran_throw_iff.1 h).2.1
  | directory p name => cases (ran_throw_iff.1 h).2.1
  | file handle append =>
    have hlength := length_of_ran_read h
    obtain ⟨-, ⟨_, t, hok, hr, rfl⟩ | ⟨_, _, -, hr, -⟩⟩ := ran_onTree_iff.1 h
    · cases hr
      refine ⟨hlength, rfl, fun handle' append' heq => ?_⟩
      cases heq
      exact readable_of_read hok
    · cases hr

/-- An area in use for which there is no memory. -/
def Unfit (m : Memory) (a : Area) : Prop := a.size ≠ 0 ∧ m.size < a.address + a.size

/-- Reading into areas, told by the first one: there is no memory for it, or nothing can be read, or
what was read is stored and that was all, or there is more to read. -/
lemma ran_readAreas_cons {d : Descriptor} {total : Nat} {a : Area} {rest : List Area}
    {r : Except (Failure LibcError) Nat} (ha : a.size ≠ 0)
    (h : Ran (readAreas d total (a :: rest)) g log r q) :
    (Unfit g.memory a ∧ r = .error (.code .fault) ∧ log = [] ∧ q = g) ∨
      (∃ e, r = .error e ∧ Ran (readFrom d a.size) g log (.error e) q) ∨
      ∃ data before u m, Ran (readFrom d a.size) g before (.ok data) u ∧
        m.size = g.memory.size ∧
        ((∃ n, r = .ok n ∧ q = { u with memory := m }) ∨
          (∀ k, d ≠ .device k) ∧ ∃ total' after,
            Ran (readAreas d total' rest) { u with memory := m } after r q) := by
  rw [readAreas, if_neg ha] at h
  rcases ran_bind_iff.1 h with ⟨e, rfl, hcheck⟩ | ⟨_, g', before, after, rfl, hcheck, hread⟩
  · obtain ⟨rfl, rfl, ⟨_, -, hr⟩ | ⟨_, herror, hr⟩⟩ := ran_reading_iff.1 hcheck
    · cases hr
    · cases hr
      refine .inl ⟨⟨ha, ?_⟩, rfl, rfl, rfl⟩
      by_contra hfit
      rw [Memory.check, if_pos (by omega)] at herror
      cases herror
  have hsize := fits_of_ran_check hcheck
  obtain ⟨rfl, rfl⟩ := looks_reading _ _ _ _ _ hcheck
  rcases ran_bind_iff.1 hread with ⟨e, rfl, hfail⟩ | ⟨data, u, before, after, rfl, hfrom, hstore⟩
  · exact .inr (.inl ⟨e, rfl, hfail⟩)
  obtain ⟨hlength, hmemory, -⟩ := ran_readFrom_ok hfrom
  have hfits : ∃ m, u.memory.write a.address data = .ok m := by
    rw [Memory.write, if_pos (by rw [hmemory]; omega)]
    exact ⟨_, rfl⟩
  obtain ⟨m, hm⟩ := hfits
  refine .inr (.inr ⟨data, before, u, m, hfrom, (Memory.size_write hm).trans (by rw [hmemory]), ?_⟩)
  rcases ran_bind_iff.1 hstore with ⟨e, rfl, hfail⟩ | ⟨_, u', before, after, rfl, hwrite, hrest⟩
  · obtain ⟨-, ⟨_, -, hr, -⟩ | ⟨_, herror, -⟩⟩ := ran_writing_iff.1 hfail
    · cases hr
    · cases herror.symm.trans hm
  obtain ⟨rfl, ⟨m', hm', -, rfl⟩ | ⟨_, -, hr, -⟩⟩ := ran_writing_iff.1 hwrite
  · cases hm'.symm.trans hm
    split_ifs at hrest with hlast
    · obtain ⟨-, rfl, rfl⟩ := ran_pure_iff.1 hrest
      exact .inl ⟨_, rfl, rfl⟩
    · refine .inr ⟨?_, _, after, hrest⟩
      rintro k rfl
      exact hlast rfl
  · cases hr

lemma size_of_ran_readAreas {d : Descriptor} {total n : Nat} {as : List Area}
    (h : Ran (readAreas d total as) g log (.ok n) q) : q.memory.size = g.memory.size := by
  induction as generalizing g total log with
  | nil =>
    obtain ⟨-, -, rfl⟩ := ran_pure_iff.1 h
    rfl
  | cons a rest ih =>
    by_cases ha : a.size = 0
    · rw [readAreas, if_pos ha] at h
      exact ih h
    · rcases ran_readAreas_cons ha h with ⟨-, hr, -⟩ | ⟨_, hr, -⟩ | ⟨_, _, u, m, -, hm, hrest⟩
      · cases hr
      · cases hr
      · rcases hrest with ⟨_, -, rfl⟩ | ⟨-, _, _, hmore⟩
        · exact hm
        · exact (ih hmore).trans hm

/-- From a file that can be read from, reading fails at an area without memory only. -/
lemma unfit_of_readable {handle total : Nat} {append : Bool} {as : List Area} {e : LibcError}
    (hr : Readable handle g.tree)
    (h : Ran (readAreas (.file handle append) total as) g log (.error (.code e)) q) :
    e = .fault ∧ ∃ a ∈ as, Unfit g.memory a := by
  induction as generalizing g total log with
  | nil => cases (ran_pure_iff.1 h).2.1
  | cons a rest ih =>
    by_cases ha : a.size = 0
    · rw [readAreas, if_pos ha] at h
      obtain ⟨he, a', hmem, hunfit⟩ := ih hr h
      exact ⟨he, a', List.mem_cons_of_mem a hmem, hunfit⟩
    · rcases ran_readAreas_cons ha h with ⟨hunfit, hr', -⟩ | ⟨_, -, hfail⟩ |
        ⟨_, _, u, m, hread, hm, hrest⟩
      · cases hr'
        exact ⟨rfl, a, List.mem_cons_self, hunfit⟩
      · obtain ⟨data, t, hok⟩ := hr.read a.size
        obtain ⟨-, ⟨_, _, -, hr', -⟩ | ⟨_, _, herror, -⟩⟩ := ran_onTree_iff.1 hfail
        · cases hr'
        · cases hok.symm.trans herror
      · rcases hrest with ⟨_, hr', -⟩ | ⟨-, _, _, hmore⟩
        · cases hr'
        · have hu := (ran_readFrom_ok hread).2.2 handle append rfl
          obtain ⟨he, a', hmem, hsize, hunfit⟩ := ih (g := { u with memory := m }) hu hmore
          exact ⟨he, a', List.mem_cons_of_mem a hmem, hsize, hm ▸ hunfit⟩

/-- Reading into areas fails with nothing done, or at an area without memory. -/
lemma ran_readAreas_failed {d : Descriptor} {total : Nat} {as : List Area} {e : LibcError}
    (h : Ran (readAreas d total as) g log (.error (.code e)) q) :
    (q = g ∧ ∀ r ∈ log, r.1 = .clock) ∨ e = .fault ∧ ∃ a ∈ as, Unfit g.memory a := by
  induction as generalizing total with
  | nil => cases (ran_pure_iff.1 h).2.1
  | cons a rest ih =>
    by_cases ha : a.size = 0
    · rw [readAreas, if_pos ha] at h
      refine (ih h).imp_right ?_
      rintro ⟨he, a', hmem, hunfit⟩
      exact ⟨he, a', List.mem_cons_of_mem a hmem, hunfit⟩
    · rcases ran_readAreas_cons ha h with ⟨hunfit, hr, -⟩ | ⟨_, hr, hfail⟩ |
        ⟨_, _, u, m, hread, hm, hrest⟩
      · cases hr
        exact .inr ⟨rfl, a, List.mem_cons_self, hunfit⟩
      · cases hr
        exact .inl (spotless_readFrom d a.size _ _ _ hfail)
      · rcases hrest with ⟨_, hr, -⟩ | ⟨hdevice, _, _, hmore⟩
        · cases hr
        cases d with
        | device k => exact absurd rfl (hdevice k)
        | directory p name => cases (ran_throw_iff.1 hread).2.1
        | file handle append =>
          have hu := (ran_readFrom_ok hread).2.2 handle append rfl
          obtain ⟨he, a', hmem, hsize, hunfit⟩ :=
            unfit_of_readable (g := { u with memory := m }) hu hmore
          exact .inr ⟨he, a', List.mem_cons_of_mem a hmem, hsize, hm ▸ hunfit⟩

/-! ## Functions that tell their result at the end -/

/-- There is no memory where the result is to go or, for reading, where one of the areas should be.
Asking for a position sets it to what it is, so this one counts only where a position is no 64-bit
number. -/
def Unheard (c : LibcCall) (args : List Value) (g : Guest) : Prop :=
  let address (k : Nat) : Nat := (args.getD k (.i32 0)).address
  match c with
  | .fdRead => g.memory.size < address 3 + 4 ∨
      ∃ bytes, g.memory.read (address 1) (address 2 * 8) = .ok bytes ∧
        ∃ a ∈ areasOf bytes, Unfit g.memory a
  | .fdWrite => g.memory.size < address 3 + 4
  | .fdSeek => g.memory.size < address 3 + 8
  | .fdTell => g.memory.size < address 1 + 8 ∧
      ∃ handle f, g.tree.opened.get? handle = some f ∧ UInt64.size ≤ f.position
  | .pathOpen => g.memory.size < address 8 + 4
  | _ => False

lemma lt_of_writeWord32_error {m : Memory} {address value : Nat} {f : EngineError}
    (h : m.writeWord32 address value = .error f) : m.size < address + 4 := by
  by_contra hfit
  rw [Memory.writeWord32, Memory.write, if_pos (by simpa [Bytes.word32] using hfit)] at h
  cases h

lemma lt_of_writeWord64_error {m : Memory} {address value : Nat} {f : EngineError}
    (h : m.writeWord64 address value = .error f) : m.size < address + 8 := by
  by_contra hfit
  rw [Memory.writeWord64, Memory.write, if_pos (by simpa [Bytes.word64] using hfit)] at h
  cases h

lemma failed_fdRead {fd : Int} {vector count resultAt : Nat} {e : LibcError}
    (h : Ran (fdRead fd vector count resultAt) g log (.error (.code e)) q) :
    (q = g ∧ ∀ r ∈ log, r.1 = .clock) ∨ e = .fault ∧ (g.memory.size < resultAt + 4 ∨
      ∃ bytes, g.memory.read vector (count * 8) = .ok bytes ∧
        ∃ a ∈ areasOf bytes, Unfit g.memory a) := by
  rcases (looks_descriptor fd).ran_bind h with ⟨_, -, rfl, rfl⟩ | ⟨d, -, hrest⟩
  · exact .inl ⟨rfl, by simp⟩
  rcases (looks_areas vector count).ran_bind hrest with ⟨_, -, rfl, rfl⟩ | ⟨as, hareas, hrest⟩
  · exact .inl ⟨rfl, by simp⟩
  rcases ran_bind_iff.1 hrest with ⟨_, hr, hfail⟩ | ⟨n, u, _, _, -, hread, htell⟩
  · cases hr
    refine (ran_readAreas_failed hfail).imp_right ?_
    rintro ⟨he, hunfit⟩
    obtain ⟨bytes, hbytes, rfl⟩ := areasOf_of_ran_areas hareas
    exact ⟨he, .inr ⟨bytes, hbytes, hunfit⟩⟩
  · obtain ⟨-, ⟨_, -, hr, -⟩ | ⟨_, herror, hr, -⟩⟩ := ran_writing_iff.1 htell
    · cases hr
    · cases hr
      rw [← size_of_ran_readAreas hread]
      exact .inr ⟨rfl, .inl (lt_of_writeWord32_error herror)⟩

lemma failed_fdWrite {fd : Int} {vector count resultAt : Nat} {e : LibcError}
    (h : Ran (fdWrite fd vector count resultAt) g log (.error (.code e)) q) :
    (q = g ∧ ∀ r ∈ log, r.1 = .clock) ∨ e = .fault ∧ g.memory.size < resultAt + 4 := by
  rcases (looks_descriptor fd).ran_bind h with ⟨_, -, rfl, rfl⟩ | ⟨d, -, hrest⟩
  · exact .inl ⟨rfl, by simp⟩
  rcases (looks_areas vector count).ran_bind hrest with ⟨_, -, rfl, rfl⟩ | ⟨as, -, hrest⟩
  · exact .inl ⟨rfl, by simp⟩
  rcases (looks_gather as).ran_bind hrest with ⟨_, -, rfl, rfl⟩ | ⟨data, -, hrest⟩
  · exact .inl ⟨rfl, by simp⟩
  exact (spotless_writeTo d data).tell (keepsMemory_writeTo d data)
    (fun _ _ _ => lt_of_writeWord32_error) hrest

lemma failed_seek {fd offset : Int} {whence resultAt : Nat} {e : LibcError}
    (h : Ran (do
      let position ← fdSeek fd offset whence
      System.writing (·.writeWord64 resultAt position)) g log (.error (.code e)) q) :
    (q = g ∧ ∀ r ∈ log, r.1 = .clock) ∨ e = .fault ∧ g.memory.size < resultAt + 8 :=
  (spotless_fdSeek fd offset whence).tell (keepsMemory_fdSeek fd offset whence)
    (fun _ _ _ => lt_of_writeWord64_error) h

/-- Asking for the position of a file is no more than a look, unless the position is beyond all
numbers of 64 bits. -/
lemma ran_fdSeek_current {fd : Int} {r : Except (Failure LibcError) Nat}
    (h : Ran (fdSeek fd 0 1) g log r q) : log = [] ∧
      (q = g ∨ ∃ handle f, g.tree.opened.get? handle = some f ∧ UInt64.size ≤ f.position) := by
  rcases (looks_descriptor fd).ran_bind h with ⟨_, -, rfl, rfl⟩ | ⟨d, -, hrest⟩
  · exact ⟨rfl, .inl rfl⟩
  cases d with
  | device d =>
    obtain ⟨rfl, -, rfl⟩ := ran_throw_iff.1 hrest
    exact ⟨rfl, .inl rfl⟩
  | directory p name =>
    obtain ⟨rfl, -, rfl⟩ := ran_throw_iff.1 hrest
    exact ⟨rfl, .inl rfl⟩
  | file handle append =>
    have hseek : Ran (System.onTree (FileTree.seek handle (.current 0)) : Sys Nat) g log r q :=
      hrest
    obtain ⟨rfl, ⟨n, t, hok, -, rfl⟩ | ⟨_, t, herror, -, rfl⟩⟩ := ran_onTree_iff.1 hseek
    · refine ⟨rfl, ?_⟩
      rcases seek_cases handle (.current 0) g.tree with ⟨_, herror⟩ | ⟨f, -, -, -, hf, -⟩
      · cases herror.symm.trans hok
      · by_cases hposition : f.position < UInt64.size
        · rw [seek_current hf hposition hok]
          exact .inl rfl
        · exact .inr ⟨handle, f, hf, Nat.not_lt.1 hposition⟩
    · obtain rfl := atomic_seek _ _ _ _ _ herror
      exact ⟨rfl, .inl rfl⟩

lemma failed_tell {fd : Int} {resultAt : Nat} {e : LibcError}
    (h : Ran (do
      let position ← fdSeek fd 0 1
      System.writing (·.writeWord64 resultAt position)) g log (.error (.code e)) q) :
    (q = g ∧ ∀ r ∈ log, r.1 = .clock) ∨ e = .fault ∧ g.memory.size < resultAt + 8 ∧
      ∃ handle f, g.tree.opened.get? handle = some f ∧ UInt64.size ≤ f.position := by
  rcases failed_seek h with hundone | ⟨he, hsize⟩
  · exact .inl hundone
  rcases ran_bind_iff.1 h with ⟨_, -, hfail⟩ | ⟨n, u, _, _, rfl, hseek, htell⟩
  · obtain ⟨rfl, rfl | hbeyond⟩ := ran_fdSeek_current hfail
    · exact .inl ⟨rfl, by simp⟩
    · exact .inr ⟨he, hsize, hbeyond⟩
  · obtain ⟨rfl, ⟨_, -, hr, -⟩ | ⟨_, -, -, rfl⟩⟩ := ran_writing_iff.1 htell
    · cases hr
    obtain ⟨rfl, rfl | hbeyond⟩ := ran_fdSeek_current hseek
    · exact .inl ⟨rfl, by simp⟩
    · exact .inr ⟨he, hsize, hbeyond⟩

lemma failed_pathOpen {p : Path} {f : OpenFlags} {resultAt : Nat} {e : LibcError}
    (h : Ran (pathOpen p f resultAt) g log (.error (.code e)) q) :
    (q = g ∧ ∀ r ∈ log, r.1 = .clock) ∨ e = .fault ∧ g.memory.size < resultAt + 4 := by
  rcases ran_bind_iff.1 h with ⟨_, hr, hfail⟩ | ⟨d, u, _, _, -, hopen, hrest⟩
  · cases hr
    exact .inl (spotless_openPlace p f _ _ _ hfail)
  · rw [ran_addDescriptor_bind_iff] at hrest
    obtain ⟨-, ⟨_, -, hr, -⟩ | ⟨_, herror, hr, -⟩⟩ := ran_writing_iff.1 hrest
    · cases hr
    · cases hr
      have hmemory : u.memory = g.memory := keepsMemory_openPlace p f _ _ _ _ hopen
      rw [← hmemory]
      exact .inr ⟨rfl, lt_of_writeWord32_error herror⟩

/-! ## All together -/

/-- The functions that put a result into memory after they have done something else, or read into
areas one after another. -/
def TellsLate (c : LibcCall) : Prop :=
  c = .fdRead ∨ c = .fdWrite ∨ c = .fdSeek ∨ c = .fdTell ∨ c = .pathOpen

theorem tidy_perform (hm : Matched handle? g.tree g.descriptors) {c : LibcCall} (args : List Value)
    (hc : ¬TellsLate c) : Tidy (perform c args) g := by
  cases c with
  | argsGet =>
    exact (scribbles_bind looks_process.scribbles fun _ => scribbles_writeTexts _ _ _).tidy
  | argsSizesGet =>
    exact (scribbles_bind looks_process.scribbles fun _ => scribbles_writeSizes _ _ _).tidy
  | environGet =>
    exact (scribbles_bind looks_process.scribbles fun _ => scribbles_writeTexts _ _ _).tidy
  | environSizesGet =>
    exact (scribbles_bind looks_process.scribbles fun _ => scribbles_writeSizes _ _ _).tidy
  | clockResGet => exact tidy_ite (scribbles_writing _).tidy (looks_fail _).scribbles.tidy
  | clockTimeGet =>
    refine tidy_ite ?_ (looks_fail _).scribbles.tidy
    exact tidy_clock_bind fun now => (scribbles_writing _).tidy
  | fdAdvise => exact (looks_bind (looks_descriptor _) fun _ => looks_pure _).spotless.tidy
  | fdDatasync => exact (looks_bind (looks_descriptor _) fun _ => looks_pure _).spotless.tidy
  | fdSync => exact (looks_bind (looks_descriptor _) fun _ => looks_pure _).spotless.tidy
  | fdFdstatSetFlags => exact (looks_bind (looks_descriptor _) fun _ => looks_pure _).spotless.tidy
  | fdClose => exact (spotless_fdClose hm _).tidy
  | fdFdstatGet => exact (scribbles_fdFdstatGet _ _).tidy
  | fdFilestatGet => exact (scribbles_fdFilestatGet _ _).tidy
  | fdFilestatSetSize => exact (spotless_fdFilestatSetSize _ _).tidy
  | fdPrestatGet =>
    exact (scribbles_bind (looks_preopenName _).scribbles fun _ => scribbles_writing _).tidy
  | fdPrestatDirName =>
    exact (scribbles_bind (looks_preopenName _).scribbles fun _ => scribbles_writing _).tidy
  | fdRead => exact absurd (.inl rfl) hc
  | fdReaddir => exact (scribbles_fdReaddir _ _ _ _ _).tidy
  | fdSeek => exact absurd (.inr (.inr (.inl rfl))) hc
  | fdTell => exact absurd (.inr (.inr (.inr (.inl rfl)))) hc
  | fdWrite => exact absurd (.inr (.inl rfl)) hc
  | pathCreateDirectory =>
    refine ((looks_path _ _ _).spotless_bind fun p _ => ?_).tidy
    exact spotless_onTreeNow fun _ => atomic_makeDirectory p
  | pathFilestatGet =>
    exact (scribbles_bind (looks_path _ _ _).scribbles fun p => scribbles_pathFilestatGet p _).tidy
  | pathOpen => exact absurd (.inr (.inr (.inr (.inr rfl)))) hc
  | pathRemoveDirectory =>
    refine ((looks_path _ _ _).spotless_bind fun p _ => ?_).tidy
    exact spotless_onTree (atomic_removeDirectory p)
  | pathRename =>
    refine ((looks_path _ _ _).spotless_bind fun source _ => ?_).tidy
    exact (looks_path _ _ _).spotless_bind fun target _ =>
      spotless_onTree (atomic_rename source target)
  | pathUnlinkFile =>
    exact ((looks_path _ _ _).spotless_bind fun p _ => spotless_pathUnlinkFile p).tidy
  | procExit => exact (sure_stop _).spotless.tidy
  | randomGet => exact (spotless_randomGet _ _).tidy
  | schedYield => exact (looks_pure _).spotless.tidy
  | pollOneoff => exact (looks_fail _).spotless.tidy
  | sockAccept => exact (looks_fail _).spotless.tidy
  | sockRecv => exact (looks_fail _).spotless.tidy
  | sockSend => exact (looks_fail _).spotless.tidy
  | sockShutdown => exact (looks_fail _).spotless.tidy

/-- **If a call fails with a code, it has changed nothing but the memory**, wherever the run has
come to, whatever the arguments and the memory are; or else there was no memory for what it tells or
reads. -/
theorem perform_failure {now : Moment} {environment : List (String × String)} {i : Invocation}
    (hg : Course now environment i g) (c : LibcCall) (args : List Value) (m : Memory) {log : Log}
    {e : LibcError} {q : Guest}
    (h : Ran (perform c args) { g with memory := m } log (.error (.code e)) q) :
    (q = { g with memory := q.memory } ∧ ∀ r ∈ log, r.1 = .clock) ∨
      e = .fault ∧ Unheard c args { g with memory := m } := by
  have hm : Matched handle? g.tree g.descriptors := matched_of_course hg
  have undone (h : (q = { g with memory := m } ∧ ∀ r ∈ log, r.1 = .clock) ∨
      e = .fault ∧ Unheard c args { g with memory := m }) :
      (q = { g with memory := q.memory } ∧ ∀ r ∈ log, r.1 = .clock) ∨
        e = .fault ∧ Unheard c args { g with memory := m } := by
    refine h.imp_left ?_
    rintro ⟨rfl, hlog⟩
    exact ⟨rfl, hlog⟩
  by_cases hc : TellsLate c
  · rcases hc with rfl | rfl | rfl | rfl | rfl
    · exact undone (failed_fdRead h)
    · exact undone (failed_fdWrite h)
    · exact undone (failed_seek h)
    · exact undone (failed_tell h)
    · rcases (looks_path _ _ _).ran_bind h with ⟨_, -, rfl, rfl⟩ | ⟨p, -, hrest⟩
      · exact .inl ⟨rfl, by simp⟩
      · exact undone (failed_pathOpen hrest)
  · exact .inl (tidy_perform (g := { g with memory := m }) hm args hc log e q h)

/-! ## Calls that fail too late -/

/-- A run that is given a file and an input. -/
def fileAndInput : Invocation := ⟨"cat", [], [⟨"/a", 5, [104, 105]⟩], some "abc"⟩

/-- A process that has opened the file, as descriptor 5. -/
def writer : Guest :=
  afterServing call (fun exports _ m => (enter exports, m))
    (.call 23 [.i32 3, .i32 0, .i32 0, .i32 1, .i32 0, .i64 66, .i64 0, .i32 0, .i32 4]
      (.ofList [97, 0, 0, 0, 0, 0, 0, 0])) (Guest.start 7 [] fileAndInput)

lemma course_writer : Course 7 [] fileAndInput writer := Runnable.Course.start.next _

/-- A memory with a vector of one area, and the area behind it. -/
def oneArea : Memory := .ofList [8, 0, 0, 0, 4, 0, 0, 0, 120, 120, 120, 120]

/-- An offset that is counted from nothing. -/
theorem perform_failure_writer :
    Course 7 [] fileAndInput writer ∧ ∃ log q,
      Ran (perform .fdSeek [.i32 5, .i64 1, .i32 9, .i32 0]) { writer with memory := oneArea } log
        (.error (.code .invalid)) q ∧
      q = { writer with memory := q.memory } ∧ ∀ r ∈ log, r.1 = .clock := by
  have hrun : Ran (perform .fdSeek [.i32 5, .i64 1, .i32 9, .i32 0])
      { writer with memory := oneArea } _ (.error (.code .invalid)) _ :=
    ran_trace (fun _ => Runnable.stillness) _ _
  rcases perform_failure course_writer _ _ _ hrun with ⟨hq, hlog⟩ | ⟨he, -⟩
  · exact ⟨course_writer, _, _, hrun, hq, hlog⟩
  · cases he

/-- **Calls that fail and leave more than a trace in memory**, because the result is to go where
there is no memory: input is gone, a file is written, a position is moved, a descriptor is open. -/
theorem failures_with_traces :
    Course 7 [] fileAndInput writer ∧
      (∃ log q, Ran (perform .fdRead [.i32 0, .i32 0, .i32 1, .i32 99])
        { writer with memory := oneArea } log (.error (.code .fault)) q ∧ q.stdin ≠ writer.stdin) ∧
      (∃ log q, Ran (perform .fdWrite [.i32 5, .i32 0, .i32 1, .i32 99])
        { writer with memory := oneArea } log (.error (.code .fault)) q ∧
          q.tree.snapshot reservedPaths ≠ writer.tree.snapshot reservedPaths) ∧
      (∃ log q, Ran (perform .fdSeek [.i32 5, .i64 1, .i32 0, .i32 99])
        { writer with memory := oneArea } log (.error (.code .fault)) q ∧
          (q.tree.opened.get? 0).map (·.position) ≠ (writer.tree.opened.get? 0).map (·.position)) ∧
      ∃ log q, Ran (perform .pathOpen
          [.i32 3, .i32 0, .i32 0, .i32 0, .i32 0, .i64 66, .i64 0, .i32 0, .i32 99])
        { writer with memory := oneArea } log (.error (.code .fault)) q ∧
          q.descriptors.get? 6 ≠ writer.descriptors.get? 6 := by
  have hrun (c : LibcCall) (args : List Value) :=
    ran_trace (fun _ => Runnable.stillness) (perform c args) { writer with memory := oneArea }
  refine ⟨course_writer, ⟨_, _, hrun _ _, ?_⟩, ⟨_, _, hrun _ _, ?_⟩, ⟨_, _, hrun _ _, ?_⟩,
    ⟨_, _, hrun _ _, ?_⟩⟩
  · decide +kernel
  · decide +kernel
  · decide +kernel
  · decide +kernel

end Libc

end GuestShell
