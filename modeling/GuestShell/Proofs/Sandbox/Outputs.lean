import GuestShell.Proofs.Engine.Memory
import GuestShell.Proofs.Sandbox.LibcFailures

/-!
# Where a call writes

A guest tells each function where its results are to go.  `Posix.outputs` and `Libc.outputs` list
these areas, for most functions none at all, and a call changes no other byte of memory, whether it
succeeds, fails with a code or is stopped (`calls_write_where_told`).

What puts bytes into an area never puts more than there is room for (`Confined`), and that is closed
under sequencing, also where a function gives up half-way.  Only texts that are laid out one after
another need a bound on the memory, because the sums of their addresses are cut to 32 bits.
-/

namespace GuestShell

open FileTree (Action)

namespace System

variable {ε δ α β : Type} {p q : Process δ} {log : Log} {areas : List (Nat × Nat)}

/-- The function changes no byte of memory but in the areas. -/
def Confined (areas : List (Nat × Nat)) (a : System ε δ α) (p : Process δ) : Prop :=
  ∀ log r q, Ran a p log r q → p.memory.SameBut areas q.memory

/-! ## What writes nothing -/

lemma KeepsMemory.confined {a : System ε δ α} (h : KeepsMemory a) : Confined areas a p := by
  intro log r q hrun
  rw [h p log r q hrun]
  exact .refl

lemma Looks.confined {a : System ε δ α} (h : Looks a) : Confined areas a p := h.keepsMemory.confined

lemma keepsMemory_stop (s : HostStop) : KeepsMemory (stop s : System ε δ α) := by
  intro p log r q h
  rw [(ran_throw_iff.1 h).2.2]

lemma keepsMemory_update {f : Process δ → Process δ} (hf : ∀ p, (f p).memory = p.memory) :
    KeepsMemory (update f : System ε δ Unit) := by
  intro p log r q h
  obtain ⟨-, -, rfl⟩ := Task.runs_done_pair_iff.1 h
  exact hf p

lemma keepsMemory_addDescriptor (d : δ) : KeepsMemory (addDescriptor d : System ε δ Nat) := by
  intro p log r q h
  obtain ⟨-, -, rfl⟩ := Task.runs_done_pair_iff.1 h
  rfl

lemma keepsMemory_readInput (max : Nat) : KeepsMemory (readInput max : System ε δ Bytes) := by
  intro p log r q h
  obtain ⟨⟨result, s⟩, _, _, -, -, hend⟩ := Task.runs_bind_iff.1 h
  cases result with
  | error stop =>
    obtain ⟨-, -, rfl⟩ := Task.runs_done_pair_iff.1 hend
    rfl
  | ok chunk =>
    obtain ⟨-, -, rfl⟩ := Task.runs_done_pair_iff.1 hend
    rfl

lemma keepsMemory_ite {c : Prop} [Decidable c] {a b : System ε δ α} (ha : KeepsMemory a)
    (hb : KeepsMemory b) : KeepsMemory (if c then a else b) := by
  split_ifs
  · exact ha
  · exact hb

/-! ## What writes -/

lemma confined_bind {a : System ε δ α} {f : α → System ε δ β} (ha : Confined areas a p)
    (hf : ∀ log v u, Ran a p log (.ok v) u → Confined areas (f v) u) :
    Confined areas (a >>= f) p := by
  intro log r q hrun
  rcases ran_bind_iff.1 hrun with ⟨e, rfl, hfail⟩ | ⟨v, u, before, after, rfl, hfirst, hrest⟩
  · exact ha log _ q hfail
  · exact (ha before _ u hfirst).trans (hf before v u hfirst after r q hrest)

/-- First a look, then something confined. -/
lemma Looks.confined_bind {a : System ε δ α} {f : α → System ε δ β} (ha : Looks a)
    (hf : ∀ v, Ran a p [] (.ok v) p → Confined areas (f v) p) : Confined areas (a >>= f) p := by
  intro log r q hrun
  rcases ha.ran_bind hrun with ⟨_, -, -, rfl⟩ | ⟨v, hlook, hrest⟩
  · exact .refl
  · exact hf v hlook log r q hrest

lemma confined_ite {c : Prop} [Decidable c] {a b : System ε δ α} (ha : Confined areas a p)
    (hb : Confined areas b p) : Confined areas (if c then a else b) p := by
  split_ifs
  · exact ha
  · exact hb

/-- Bytes are put inside one of the areas. -/
lemma confined_write [ErrorCode ε] {start size address : Nat} {bytes : Bytes}
    (hmem : (start, size) ∈ areas) (hlow : start ≤ address)
    (hhigh : address + bytes.length ≤ start + size) :
    Confined areas (write address bytes : System ε δ Unit) p := by
  intro log r q hrun
  obtain ⟨-, ⟨m, hwrite, -, rfl⟩ | ⟨_, -, -, rfl⟩⟩ := ran_writing_iff.1 hrun
  · exact .of_write hwrite hmem hlow hhigh
  · exact .refl

/-- Bytes are put at the beginning of one of the areas. -/
lemma confined_write_at [ErrorCode ε] {size address : Nat} {bytes : Bytes}
    (hmem : (address, size) ∈ areas) (hroom : bytes.length ≤ size) :
    Confined areas (write address bytes : System ε δ Unit) p :=
  confined_write hmem le_rfl (Nat.add_le_add_left hroom address)

lemma confined_word32 [ErrorCode ε] {address : Nat} (value : Nat) (hmem : (address, 4) ∈ areas) :
    Confined areas (writing (·.writeWord32 address value) : System ε δ Unit) p :=
  confined_write_at hmem (Bytes.length_word32 value).le

lemma confined_word64 [ErrorCode ε] {address : Nat} (value : Nat) (hmem : (address, 8) ∈ areas) :
    Confined areas (writing (·.writeWord64 address value) : System ε δ Unit) p :=
  confined_write_at hmem (Bytes.length_littleEndian 8 value).le

/-- What could be put into memory lies in it, and the memory has the size that it had. -/
lemma fits_of_ran_write [ErrorCode ε] {address : Nat} {bytes : Bytes}
    (h : Ran (write address bytes : System ε δ Unit) p log (.ok ()) q) :
    address + bytes.length ≤ p.memory.size ∧ q.memory.size = p.memory.size := by
  obtain ⟨-, ⟨m, hwrite, -, rfl⟩ | ⟨_, -, hr, -⟩⟩ := ran_writing_iff.1 h
  · exact ⟨Memory.le_size_of_write hwrite, Memory.size_write hwrite⟩
  · cases hr

/-- What is made of the result afterwards leaves the process alone. -/
lemma Confined.sameBut {a : System ε δ α}
    {k : Except (Failure ε) α × Process δ → Running (β × Process δ)} {v : β}
    (ha : Confined areas a p) (hk : ∀ r, ∃ v, k r = .done (v, r.2))
    (h : Task.Runs ((a p).bind k) log (v, q)) : p.memory.SameBut areas q.memory := by
  obtain ⟨⟨r, u⟩, before, after, -, hrun, hend⟩ := Task.runs_bind_iff.1 h
  obtain ⟨v', hv⟩ := hk (r, u)
  rw [hv] at hend
  obtain ⟨-, -, rfl⟩ := Task.runs_done_pair_iff.1 hend
  exact ha before r _ hrun

end System

open GuestShell.System

/-! ## The smaller interface -/

namespace Posix

variable {areas : List (Nat × Nat)} {g : Guest}

/-- The areas, by address and size, where the results of a function are to go. -/
def outputs (c : PosixCall) (args : List Value) : List (Nat × Nat) :=
  let nat (k : Nat) : Nat := (argument args k).address
  match c with
  | .read => [(nat 1, nat 2)]
  | .getenv => [(nat 2, nat 3)]
  | .getcwd => [(nat 0, nat 1)]
  | .stat => [(nat 2, 32)]
  | .readdir => [(nat 2, nat 3)]
  | .write | .open_ | .close | .seek | .exit | .mkdir | .rmdir | .unlink | .rename => []

lemma confined_read (fd : Int) (address size : Nat) :
    Confined [(address, size)] (read fd address size) g := by
  have stored {data : Bytes} {u : Guest} (hdata : data.length ≤ size) :
      Confined [(address, size)] (do
        System.write address data
        return (data.length : Int) : Sys Int) u :=
    confined_bind (confined_write_at (by simp) hdata) fun _ _ _ _ => (looks_pure _).confined
  refine confined_bind (looks_reading _).confined fun _ _ u _ => ?_
  refine confined_ite ?_ (confined_ite ?_ ?_)
  · refine confined_bind (keepsMemory_readInput size).confined fun log v u hread => ?_
    rcases ran_readInput hread with ⟨_, hr⟩ | ⟨chunk, hr, hlength, -⟩
    · cases hr
    · cases hr
      exact stored hlength
  · refine confined_bind (looks_fail _).confined fun _ _ _ hfail => ?_
    cases (ran_throw_iff.1 hfail).2.1
  · refine confined_bind (looks_handle fd).confined fun _ h u' _ => ?_
    exact confined_bind (keepsMemory_onTree _).confined fun log data u'' hread =>
      stored (length_of_ran_read hread)

lemma keepsMemory_write (fd : Int) (address size : Nat) : KeepsMemory (write fd address size) := by
  refine keepsMemory_bind (looks_reading _).keepsMemory fun data => ?_
  have done {a : Sys Unit} (ha : KeepsMemory a) : KeepsMemory (do
      a
      return (data.length : Int) : Sys Int) :=
    keepsMemory_bind ha fun _ => (looks_pure _).keepsMemory
  refine keepsMemory_ite (done (keepsMemory_ask _)) (keepsMemory_ite (done (keepsMemory_ask _)) ?_)
  refine keepsMemory_ite (done (looks_fail _).keepsMemory) ?_
  refine keepsMemory_bind (looks_handle fd).keepsMemory fun h => ?_
  exact keepsMemory_bind (keepsMemory_onTreeNow _) fun _ => (looks_pure _).keepsMemory

lemma keepsMemory_open (p : Path) (flags : Nat) : KeepsMemory (open_ p flags) :=
  keepsMemory_bind (keepsMemory_onTreeNow _) fun h =>
    keepsMemory_bind (keepsMemory_addDescriptor h) fun _ => (looks_pure _).keepsMemory

lemma keepsMemory_close (fd : Int) : KeepsMemory (close fd) := by
  refine keepsMemory_ite (looks_pure _).keepsMemory ?_
  refine keepsMemory_bind (looks_handle fd).keepsMemory fun h => ?_
  refine keepsMemory_bind (keepsMemory_update fun _ => rfl) fun _ => ?_
  exact keepsMemory_bind (keepsMemory_onTree _) fun _ => (looks_pure _).keepsMemory

lemma keepsMemory_seek (fd offset whence : Int) : KeepsMemory (seek fd offset whence) := by
  have horigin : Looks (origin whence offset) :=
    looks_ite (looks_pure _) (looks_ite (looks_pure _) (looks_ite (looks_pure _) (looks_fail _)))
  refine keepsMemory_bind (looks_handle fd).keepsMemory fun h => ?_
  refine keepsMemory_bind horigin.keepsMemory fun o => ?_
  exact keepsMemory_bind (keepsMemory_onTree _) fun _ => (looks_pure _).keepsMemory

lemma keepsMemory_change (a : Moment → Action Unit) : KeepsMemory (change a) :=
  keepsMemory_bind (keepsMemory_onTreeNow a) fun _ => (looks_pure _).keepsMemory

lemma confined_copyOut (address room : Nat) (bytes : Bytes) :
    Confined [(address, room)] (copyOut address room bytes) g :=
  confined_bind (confined_write_at (by simp) (List.length_take_le room bytes)) fun _ _ _ _ =>
    (looks_pure _).confined

lemma length_statRecord (m : Metadata) : (statRecord m).length = 32 := by
  simp [statRecord, Bytes.word64]

lemma length_listing_le (names : List ListedName) (room : Nat) :
    (listing room names).length ≤ room := by
  induction names generalizing room with
  | nil => exact Nat.zero_le room
  | cons e es ih =>
    rw [listing]
    split_ifs with h
    · rw [List.length_append]
      have := ih (room - (Text.encode e.name ++ [0]).length)
      omega
    · exact Nat.zero_le room

/-- **A function writes nowhere but where it was told.** -/
theorem confined_perform (c : PosixCall) (args : List Value) :
    Confined (outputs c args) (perform c args) g := by
  cases c with
  | read => exact confined_read _ _ _
  | write => exact (keepsMemory_write _ _ _).confined
  | open_ => exact (keepsMemory_bind (looks_path _ _).keepsMemory fun p =>
      keepsMemory_open p _).confined
  | close => exact (keepsMemory_close _).confined
  | seek => exact (keepsMemory_seek _ _ _).confined
  | exit => exact (keepsMemory_stop _).confined
  | getenv =>
    refine confined_bind (looks_reading _).confined fun _ name _ _ => ?_
    refine confined_bind looks_process.confined fun _ g' _ _ => ?_
    split
    · exact confined_copyOut _ _ _
    · exact (looks_pure _).confined
  | getcwd =>
    refine confined_ite ?_ (confined_copyOut _ _ _)
    exact confined_bind (looks_fail _).confined fun _ _ _ _ => confined_copyOut _ _ _
  | stat =>
    refine confined_bind (looks_path _ _).confined fun _ p _ _ => ?_
    refine confined_bind (keepsMemory_onTree _).confined fun _ m _ _ => ?_
    refine confined_bind ?_ fun _ _ _ _ => (looks_pure _).confined
    exact confined_write_at (by simp [outputs]) (length_statRecord m).le
  | mkdir => exact (keepsMemory_bind (looks_path _ _).keepsMemory fun _ =>
      keepsMemory_change _).confined
  | readdir =>
    refine confined_bind (looks_path _ _).confined fun _ p _ _ => ?_
    refine confined_bind (keepsMemory_onTree _).confined fun _ names _ _ => ?_
    refine confined_bind ?_ fun _ _ _ _ => (looks_pure _).confined
    exact confined_write_at (by simp [outputs]) (length_listing_le names _)
  | rmdir => exact (keepsMemory_bind (looks_path _ _).keepsMemory fun _ =>
      keepsMemory_change _).confined
  | unlink => exact (keepsMemory_bind (looks_path _ _).keepsMemory fun _ =>
      keepsMemory_change _).confined
  | rename => exact (keepsMemory_bind (looks_path _ _).keepsMemory fun _ =>
      keepsMemory_bind (looks_path _ _).keepsMemory fun _ => keepsMemory_change _).confined

/-- The areas where the results of a function of the table are to go. -/
def callOutputs (index : Nat) (args : List Value) : List (Nat × Nat) :=
  match PosixCall.all[index]? with
  | none => []
  | some c => outputs c args

lemma sameBut_of_call {index : Nat} {args : List Value} {log : Log}
    {r : Except HostStop (Option Value)} {q : Guest}
    (h : Task.Runs (call index args g) log (r, q)) :
    g.memory.SameBut (callOutputs index args) q.memory := by
  rw [call] at h
  rw [callOutputs]
  cases hc : PosixCall.all[index]? with
  | none =>
    rw [hc] at h
    obtain ⟨-, -, rfl⟩ := Task.runs_done_pair_iff.1 h
    exact .refl
  | some c =>
    rw [hc] at h
    refine (confined_perform c args).sameBut (fun r => ?_) h
    rcases r with ⟨(e | s) | n, u⟩ <;> exact ⟨_, rfl⟩

end Posix

/-! ## The larger interface -/

namespace Libc

variable {areas : List (Nat × Nat)} {g : Guest}

/-- The areas of texts and of their addresses. -/
def textAreas (pointers target : Nat) (texts : List String) : List (Nat × Nat) :=
  [(pointers, 4 * texts.length), (target, Text.terminatedLength texts)]

/-- The areas that a vector names; a vector for which there is no memory names none. -/
def vectorAreas (m : Memory) (address count : Nat) : List (Nat × Nat) :=
  match m.read address (count * 8) with
  | .ok bytes => (areasOf bytes).map fun a => (a.address, a.size)
  | .error _ => []

/-- The areas, by address and size, where the results of a function are to go. -/
def outputs (c : LibcCall) (args : List Value) (g : Guest) : List (Nat × Nat) :=
  let nat (k : Nat) : Nat := (args.getD k (.i32 0)).address
  match c with
  | .argsGet => textAreas (nat 0) (nat 1) g.argv
  | .environGet => textAreas (nat 0) (nat 1) (environmentTexts g.environment)
  | .argsSizesGet | .environSizesGet => [(nat 0, 4), (nat 1, 4)]
  | .clockResGet | .fdTell | .fdPrestatGet => [(nat 1, 8)]
  | .clockTimeGet => [(nat 2, 8)]
  | .fdFdstatGet => [(nat 1, 24)]
  | .fdFilestatGet => [(nat 1, 64)]
  | .fdPrestatDirName => [(nat 1, nat 2)]
  | .fdRead => (nat 3, 4) :: vectorAreas g.memory (nat 1) (nat 2)
  | .fdReaddir => [(nat 1, nat 2), (nat 4, 4)]
  | .fdSeek => [(nat 3, 8)]
  | .fdWrite => [(nat 3, 4)]
  | .pathFilestatGet => [(nat 4, 64)]
  | .pathOpen => [(nat 8, 4)]
  | .randomGet => [(nat 0, nat 1)]
  | .fdAdvise | .fdClose | .fdDatasync | .fdFdstatSetFlags | .fdFilestatSetSize | .fdSync
  | .pathCreateDirectory | .pathRemoveDirectory | .pathRename | .pathUnlinkFile | .pollOneoff
  | .procExit | .schedYield | .sockAccept | .sockRecv | .sockSend | .sockShutdown => []

/-! ### Texts -/

/-- What was written lies in the memory, so in less than 4 GiB no sum of addresses is cut. -/
lemma confined_writeTexts {texts : List String} {pointers target start size start' size' : Nat}
    (hsize : g.memory.size < UInt32.size) (hp : (start, size) ∈ areas) (hplow : start ≤ pointers)
    (hphigh : pointers + 4 * texts.length ≤ start + size) (ht : (start', size') ∈ areas)
    (htlow : start' ≤ target) (hthigh : target + Text.terminatedLength texts ≤ start' + size') :
    Confined areas (writeTexts pointers target texts) g := by
  induction texts generalizing pointers target g with
  | nil => exact (looks_pure _).confined
  | cons s texts ih =>
    rw [List.length_cons] at hphigh
    rw [Text.terminatedLength, Text.byteLength] at hthigh
    have hword : pointers + (Bytes.word32 target).length ≤ start + size := by
      rw [Bytes.length_word32]
      omega
    refine confined_bind (confined_write hp hplow hword) fun _ _ g₁ h₁ => ?_
    obtain ⟨hfit₁, hsize₁⟩ := fits_of_ran_write h₁
    rw [Bytes.length_word32] at hfit₁
    refine confined_bind (confined_write ht htlow (by omega)) fun _ _ g₂ h₂ => ?_
    obtain ⟨hfit₂, hsize₂⟩ := fits_of_ran_write h₂
    have hsum : sum target (Text.encode s).length = target + (Text.encode s).length :=
      Nat.mod_eq_of_lt (by omega)
    rw [hsum]
    refine confined_bind (confined_write ht (by omega) (by rw [List.length_singleton]; omega))
      fun _ _ g₃ h₃ => ?_
    obtain ⟨hfit₃, hsize₃⟩ := fits_of_ran_write h₃
    rw [List.length_singleton] at hfit₃
    have hpointers : sum pointers 4 = pointers + 4 := Nat.mod_eq_of_lt (by omega)
    have htarget : sum target ((Text.encode s).length + 1) =
        target + ((Text.encode s).length + 1) := Nat.mod_eq_of_lt (by omega)
    rw [hpointers, htarget]
    exact ih (by omega) (by omega) (by omega) (by omega) (by omega)

lemma confined_texts {texts : List String} {pointers target : Nat}
    (hsize : g.memory.size < UInt32.size) :
    Confined (textAreas pointers target texts) (writeTexts pointers target texts) g :=
  confined_writeTexts hsize (by simp [textAreas]) le_rfl le_rfl (by simp [textAreas]) le_rfl le_rfl

lemma confined_writeSizes (countAt sizeAt : Nat) (texts : List String) :
    Confined [(countAt, 4), (sizeAt, 4)] (writeSizes countAt sizeAt texts) g :=
  confined_bind (confined_word32 _ (by simp)) fun _ _ _ _ => confined_word32 _ (by simp)

/-! ### Streams and files -/

lemma keepsMemory_readFrom (d : Descriptor) (size : Nat) : KeepsMemory (readFrom d size) := by
  cases d with
  | device d =>
    cases d with
    | stdin => exact keepsMemory_readInput size
    | tty => exact keepsMemory_readInput size
    | stdout => exact (looks_fail _).keepsMemory
    | stderr => exact (looks_fail _).keepsMemory
  | directory p name => exact (looks_fail _).keepsMemory
  | file h append => exact keepsMemory_onTree _

lemma confined_readAreas {d : Descriptor} {total : Nat} {as : List Area}
    (has : ∀ a ∈ as, (a.address, a.size) ∈ areas) : Confined areas (readAreas d total as) g := by
  induction as generalizing total g with
  | nil => exact (looks_pure _).confined
  | cons a rest ih =>
    obtain ⟨ha, hrest⟩ := List.forall_mem_cons.1 has
    rw [readAreas]
    refine confined_ite (ih hrest) ?_
    refine confined_bind (looks_reading _).confined fun _ _ g₁ _ => ?_
    refine confined_bind (keepsMemory_readFrom d a.size).confined fun _ data g₂ hread => ?_
    have hlength := (ran_readFrom_ok hread).1
    refine confined_bind (confined_write_at ha hlength) fun _ _ g₃ _ => ?_
    exact confined_ite (looks_pure _).confined (ih hrest)

lemma confined_fdRead (fd : Int) (vector count resultAt : Nat) :
    Confined ((resultAt, 4) :: vectorAreas g.memory vector count)
      (fdRead fd vector count resultAt) g := by
  refine (looks_descriptor fd).confined_bind fun d _ => ?_
  refine (looks_areas vector count).confined_bind fun as has => ?_
  obtain ⟨bytes, hbytes, rfl⟩ := areasOf_of_ran_areas has
  have hvector : vectorAreas g.memory vector count =
      (areasOf bytes).map fun a => (a.address, a.size) := by
    rw [vectorAreas, hbytes]
  refine confined_bind (confined_readAreas fun a ha => ?_) fun _ _ _ _ => ?_
  · rw [hvector]
    exact List.mem_cons_of_mem _ (List.mem_map_of_mem ha)
  · exact confined_word32 _ List.mem_cons_self

lemma confined_fdWrite (fd : Int) (vector count resultAt : Nat) :
    Confined [(resultAt, 4)] (fdWrite fd vector count resultAt) g := by
  refine (looks_descriptor fd).confined_bind fun d _ => ?_
  refine (looks_areas vector count).confined_bind fun as _ => ?_
  refine (looks_gather as).confined_bind fun data _ => ?_
  refine confined_bind (keepsMemory_writeTo d data).confined fun _ _ _ _ => ?_
  exact confined_word32 _ List.mem_cons_self

lemma confined_seek (fd offset : Int) (whence resultAt : Nat) :
    Confined [(resultAt, 8)] (do
      let position ← fdSeek fd offset whence
      System.writing (·.writeWord64 resultAt position)) g :=
  confined_bind (keepsMemory_fdSeek fd offset whence).confined fun _ _ _ _ =>
    confined_word64 _ List.mem_cons_self

lemma keepsMemory_fdClose (fd : Int) : KeepsMemory (fdClose fd) := by
  refine keepsMemory_bind (looks_descriptor fd).keepsMemory fun d => ?_
  refine keepsMemory_bind (keepsMemory_update fun _ => rfl) fun _ => ?_
  cases d with
  | device d => exact (looks_pure _).keepsMemory
  | directory p name => exact (looks_pure _).keepsMemory
  | file h append => exact keepsMemory_onTree _

lemma keepsMemory_fdFilestatSetSize (fd : Int) (size : Nat) :
    KeepsMemory (fdFilestatSetSize fd size) := by
  refine keepsMemory_bind (looks_descriptor fd).keepsMemory fun d => ?_
  cases d with
  | device d => exact (looks_fail _).keepsMemory
  | directory p name => exact (looks_fail _).keepsMemory
  | file h append => exact keepsMemory_onTreeNow _

/-! ### Records -/

lemma length_descriptorRecord (t : FileType) (append : Bool) :
    (descriptorRecord t append).length = 24 := by
  simp [descriptorRecord, padding, Bytes.word16, Bytes.word64]

lemma length_fileRecord (t : FileType) (size time : Nat) :
    (fileRecord t size time).length = 64 := by
  simp [fileRecord, padding, Bytes.word64]

lemma length_preopenRecord (nameLength : Nat) : (preopenRecord nameLength).length = 8 := by
  simp [preopenRecord, padding]

lemma confined_fileRecord (t : FileType) (size time address : Nat) :
    Confined [(address, 64)] (System.write address (fileRecord t size time) : Sys Unit) g :=
  confined_write_at List.mem_cons_self (length_fileRecord t size time).le

lemma confined_fdFdstatGet (fd : Int) (address : Nat) :
    Confined [(address, 24)] (fdFdstatGet fd address) g := by
  refine (looks_descriptor fd).confined_bind fun d _ => ?_
  have record (t : FileType) (append : Bool) : Confined [(address, 24)]
      (System.write address (descriptorRecord t append) : Sys Unit) g :=
    confined_write_at List.mem_cons_self (length_descriptorRecord t append).le
  cases d with
  | device d => exact record _ _
  | directory p name => exact record _ _
  | file h append => exact record _ _

/-- The record for what is found out about a place. -/
lemma confined_fileRecordOf {a : Sys Metadata} (ha : KeepsMemory a) (t : FileType) (address : Nat) :
    Confined [(address, 64)] (fileRecordOf t <$> a >>= fun record => System.write address record)
      g := by
  rw [bind_map_left]
  exact confined_bind ha.confined fun _ _ _ _ => confined_fileRecord _ _ _ _

lemma confined_fdFilestatGet (fd : Int) (address : Nat) :
    Confined [(address, 64)] (fdFilestatGet fd address) g := by
  refine (looks_descriptor fd).confined_bind fun d _ => ?_
  cases d with
  | device d => exact confined_fileRecord .characterDevice 0 0 address
  | directory p name => exact confined_fileRecordOf (keepsMemory_onTree _) _ _
  | file h append => exact confined_fileRecordOf (keepsMemory_onTree _) _ _

lemma confined_pathFilestatGet (p : Path) (address : Nat) :
    Confined [(address, 64)] (pathFilestatGet p address) g := by
  refine (looks_deviceAt p).confined_bind fun d _ => ?_
  cases d with
  | some d => exact confined_fileRecord .characterDevice 0 0 address
  | none => exact confined_bind (keepsMemory_onTree _).confined fun _ m _ _ =>
      confined_fileRecord _ _ _ address

lemma keepsMemory_listed (p : Path) : KeepsMemory (listed p) :=
  keepsMemory_bind (keepsMemory_onTree _) fun _ =>
    keepsMemory_bind looks_process.keepsMemory fun _ => (looks_pure _).keepsMemory

lemma confined_fdReaddir (fd : Int) (address room cookie usedAt : Nat) :
    Confined [(address, room), (usedAt, 4)] (fdReaddir fd address room cookie usedAt) g := by
  refine (looks_directory fd).confined_bind fun p _ => ?_
  refine confined_bind (keepsMemory_listed p).confined fun _ entries _ _ => ?_
  refine confined_bind (confined_write_at (by simp) (List.length_take_le room _)) fun _ _ _ _ => ?_
  exact confined_word32 _ (by simp)

/-! ### Places and the rest -/

lemma confined_pathOpen (p : Path) (f : OpenFlags) (resultAt : Nat) :
    Confined [(resultAt, 4)] (pathOpen p f resultAt) g := by
  refine confined_bind (keepsMemory_openPlace p f).confined fun _ d _ _ => ?_
  refine confined_bind (keepsMemory_addDescriptor d).confined fun _ fd _ _ => ?_
  exact confined_word32 fd List.mem_cons_self

lemma keepsMemory_pathUnlinkFile (p : Path) : KeepsMemory (pathUnlinkFile p) := by
  refine keepsMemory_bind (looks_deviceAt p).keepsMemory fun d => ?_
  cases d with
  | some d => exact (looks_fail _).keepsMemory
  | none => exact keepsMemory_onTree _

lemma confined_randomGet (address size : Nat) :
    Confined [(address, size)] (randomGet address size) g := by
  refine (looks_reading _).confined_bind fun _ _ => looks_process.confined_bind fun g' _ => ?_
  refine confined_bind (keepsMemory_update fun _ => rfl).confined fun _ _ _ _ => ?_
  exact confined_write_at List.mem_cons_self (List.length_take_le size _)

/-- **A function writes nowhere but where it was told**, in a memory of less than 4 GiB. -/
theorem confined_perform (hsize : g.memory.size < UInt32.size) (c : LibcCall) (args : List Value) :
    Confined (outputs c args g) (perform c args) g := by
  have looked {a : Sys Descriptor} (ha : Looks a) : Confined [] (do let _ ← a) g :=
    (looks_bind ha fun _ => looks_pure _).confined
  cases c with
  | argsGet => exact fun log r q hrun => confined_texts hsize log r q hrun
  | environGet => exact fun log r q hrun => confined_texts hsize log r q hrun
  | argsSizesGet => exact looks_process.confined_bind fun _ _ => confined_writeSizes _ _ _
  | environSizesGet => exact looks_process.confined_bind fun _ _ => confined_writeSizes _ _ _
  | clockResGet => exact confined_ite (confined_word64 _ List.mem_cons_self) (looks_fail _).confined
  | clockTimeGet =>
    refine confined_ite ?_ (looks_fail _).confined
    exact confined_bind (keepsMemory_ask .clock).confined fun _ _ _ _ =>
      confined_word64 _ List.mem_cons_self
  | fdAdvise => exact looked (looks_descriptor _)
  | fdDatasync => exact looked (looks_descriptor _)
  | fdSync => exact looked (looks_descriptor _)
  | fdFdstatSetFlags => exact looked (looks_descriptor _)
  | fdClose => exact (keepsMemory_fdClose _).confined
  | fdFdstatGet => exact confined_fdFdstatGet _ _
  | fdFilestatGet => exact confined_fdFilestatGet _ _
  | fdFilestatSetSize => exact (keepsMemory_fdFilestatSetSize _ _).confined
  | fdPrestatGet =>
    exact (looks_preopenName _).confined_bind fun name _ =>
      confined_write_at List.mem_cons_self (length_preopenRecord _).le
  | fdPrestatDirName =>
    exact (looks_preopenName _).confined_bind fun name _ =>
      confined_write_at List.mem_cons_self (List.length_take_le _ _)
  | fdRead => exact confined_fdRead _ _ _ _
  | fdReaddir => exact confined_fdReaddir _ _ _ _ _
  | fdSeek => exact confined_seek _ _ _ _
  | fdTell => exact confined_seek _ _ _ _
  | fdWrite => exact confined_fdWrite _ _ _ _
  | pathCreateDirectory =>
    exact (looks_path _ _ _).confined_bind fun _ _ => (keepsMemory_onTreeNow _).confined
  | pathFilestatGet =>
    exact (looks_path _ _ _).confined_bind fun p _ => confined_pathFilestatGet p _
  | pathOpen => exact (looks_path _ _ _).confined_bind fun p _ => confined_pathOpen p _ _
  | pathRemoveDirectory =>
    exact (looks_path _ _ _).confined_bind fun _ _ => (keepsMemory_onTree _).confined
  | pathRename =>
    exact (looks_path _ _ _).confined_bind fun _ _ => (looks_path _ _ _).confined_bind fun _ _ =>
      (keepsMemory_onTree _).confined
  | pathUnlinkFile =>
    exact (looks_path _ _ _).confined_bind fun p _ => (keepsMemory_pathUnlinkFile p).confined
  | procExit => exact (keepsMemory_stop _).confined
  | randomGet => exact confined_randomGet _ _
  | schedYield => exact (looks_pure _).confined
  | pollOneoff => exact (looks_fail _).confined
  | sockAccept => exact (looks_fail _).confined
  | sockRecv => exact (looks_fail _).confined
  | sockSend => exact (looks_fail _).confined
  | sockShutdown => exact (looks_fail _).confined

/-- The areas where the results of a function of the table are to go. -/
def callOutputs (index : Nat) (args : List Value) (g : Guest) : List (Nat × Nat) :=
  match LibcCall.all[index]? with
  | none => []
  | some c => outputs c args g

lemma sameBut_of_call (hsize : g.memory.size < UInt32.size) {index : Nat} {args : List Value}
    {log : Log} {r : Except HostStop (Option Value)} {q : Guest}
    (h : Task.Runs (call index args g) log (r, q)) :
    g.memory.SameBut (callOutputs index args g) q.memory := by
  rw [call] at h
  rw [callOutputs]
  cases hc : LibcCall.all[index]? with
  | none =>
    rw [hc] at h
    obtain ⟨-, -, rfl⟩ := Task.runs_done_pair_iff.1 h
    exact .refl
  | some c =>
    rw [hc] at h
    refine (confined_perform hsize c args).sameBut (fun r => ?_) h
    rcases r with ⟨(e | s) | n, u⟩ <;> exact ⟨_, rfl⟩

end Libc

/-! ## Both -/

/-- **A call changes no byte of memory but where it was told to put its results**, in any process,
whatever the arguments are and however the call ends.  Under the larger interface the memory must be
smaller than 4 GiB. -/
theorem calls_write_where_told :
    (∀ (index : Nat) (args : List Value) (g q : Posix.Guest) (log : Log)
      (r : Except HostStop (Option Value)), Task.Runs (Posix.call index args g) log (r, q) →
      g.memory.SameBut (Posix.callOutputs index args) q.memory) ∧
    ∀ (index : Nat) (args : List Value) (g q : Libc.Guest) (log : Log)
      (r : Except HostStop (Option Value)), g.memory.size < UInt32.size →
      Task.Runs (Libc.call index args g) log (r, q) →
      g.memory.SameBut (Libc.callOutputs index args g) q.memory :=
  ⟨fun _ _ _ _ _ _ h => Posix.sameBut_of_call h,
    fun _ _ _ _ _ _ hsize h => Libc.sameBut_of_call hsize h⟩

/-- Two bytes of a file, and the four bytes of an input with their number. -/
theorem calls_write_where_told_reading :
    (∃ log r q, Task.Runs (Posix.call 0 [.i32 3, .i32 1, .i32 2]
        { reader with memory := .ofList [1, 2, 3, 4] }) log (r, q) ∧
      q.memory.toList = [1, 104, 105, 4] ∧
      (Memory.ofList [1, 2, 3, 4]).SameBut [(1, 2)] q.memory) ∧
    ∃ log r q, Task.Runs (Libc.call 15 [.i32 0, .i32 0, .i32 1, .i32 0]
        { Libc.writer with memory := Libc.oneArea }) log (r, q) ∧
      q.memory.toList = [4, 0, 0, 0, 4, 0, 0, 0, 97, 98, 99, 10] ∧
      Libc.oneArea.SameBut [(0, 4), (8, 4)] q.memory := by
  obtain ⟨hposix, hlibc⟩ := calls_write_where_told
  have hread := Task.runs_trace (fun _ => Runnable.stillness) (Posix.call 0 [.i32 3, .i32 1, .i32 2]
    { reader with memory := .ofList [1, 2, 3, 4] })
  have hvector := Task.runs_trace (fun _ => Runnable.stillness)
    (Libc.call 15 [.i32 0, .i32 0, .i32 1, .i32 0] { Libc.writer with memory := Libc.oneArea })
  exact ⟨⟨_, _, _, hread, by decide +kernel, hposix _ _ _ _ _ _ hread⟩,
    _, _, _, hvector, by decide +kernel, hlibc _ _ _ _ _ _ (by decide) hvector⟩

end GuestShell
