import GuestShell.Proofs.FileTree.Checked
import GuestShell.Proofs.Sandbox.Breakdown
import GuestShell.Proofs.Sandbox.ListingLines
import GuestShell.Proofs.Sandbox.Outputs

/-!
# Calls with the numbers of a machine

`Posix.Checked.perform` and `Libc.Checked.perform` are the functions of the two interfaces as a
machine has to compute them.  Wherever numbers are added or multiplied, bytes are taken out of
others or a buffer grows, they check first that the machine can do it, and break the host down if it
cannot.  Accesses to the memory are checked as a whole anyway, in numbers with room for the sum of
two addresses, and so is all that is sized by the arguments alone.  Paths are lists of their parts,
so nothing is cut out of their texts.

In every state of a run in which no file can be longer than `maxLength`, the checks change nothing
(`numbers_fit`).  Two kinds of calls are left: those that are to make a file too long, which break
the host down whatever is computed (`Posix.TooLong`, `Libc.TooLong`), and those that lay out texts
at the very end of all addresses, where the sum of two addresses is none (`Libc.Overruns`).  The
first kind depends on positions that earlier calls have left behind, and so needs an invariant of
the whole run, which is `FileTree.WithinLimits`.
-/

namespace GuestShell

open FileTree (maxLength)
open Checked

/-! ## Steps -/

namespace System

variable {ε δ α β : Type} {p : Process δ}

/-- What could be computed, or else the host breaks down. -/
def need : Option α → System ε δ α
  | some v => return v
  | none => stop .breakdown

lemma need_some (v : α) : (need (some v) : System ε δ α) = pure v := rfl

/-- Puts bytes into memory.  The check of the memory sees 32 bits of their number, and the copy sees
all of them. -/
def Checked.write [ErrorCode ε] (address : Nat) (bytes : Bytes) : System ε δ Unit := do
  reading (·.check address (bytes.length % UInt32.size))
  let _ ← need (below? UInt32.size bytes.length)
  System.write address bytes

lemma Checked.write_eq [ErrorCode ε] {address : Nat} {bytes : Bytes}
    (h : bytes.length < UInt32.size) :
    (Checked.write address bytes : System ε δ Unit) p = System.write address bytes p := by
  rw [Checked.write, Nat.mod_eq_of_lt h, below?_of_lt h, bind_apply, reading]
  by_cases hfit : address + bytes.length ≤ p.memory.size
  · rw [Memory.check, if_pos hfit]
    rfl
  · rw [Memory.check, if_neg hfit, System.write, writing, Memory.write, if_neg hfit]
    rfl

/-- Two functions that begin alike are the same if they go on alike from wherever the beginning
leads. -/
lemma bind_congr_of_ran {a b : System ε δ α} {f k : α → System ε δ β} (ha : a p = b p)
    (hf : ∀ log v u, Ran b p log (.ok v) u → f v u = k v u) : (a >>= f) p = (b >>= k) p := by
  rw [bind_apply, bind_apply, ha]
  refine Task.bind_congr fun log r hrun => ?_
  obtain ⟨e | v, u⟩ := r
  · rfl
  · exact hf log v u hrun

/-- The same after a look, which leads nowhere else. -/
lemma Looks.bind_congr {a : System ε δ α} {f k : α → System ε δ β} (ha : Looks a)
    (hf : ∀ v, Ran a p [] (.ok v) p → f v p = k v p) : (a >>= f) p = (a >>= k) p := by
  refine bind_congr_of_ran rfl fun log v u hrun => ?_
  obtain ⟨rfl, rfl⟩ := ha _ _ _ _ hrun
  exact hf v hrun

lemma process_bind_congr {f k : Process δ → System ε δ α} (h : f p p = k p p) :
    (process >>= f) p = (process >>= k) p := h

lemma ite_congr_at {c : Prop} [Decidable c] {a a' b b' : System ε δ α} (ha : a p = a' p)
    (hb : b p = b' p) : (if c then a else b) p = (if c then a' else b') p := by
  split_ifs
  · exact ha
  · exact hb

lemma onTree_congr [ErrorCode ε] {a b : FileTree.Action α} (h : a p.tree = b p.tree) :
    (onTree a : System ε δ α) p = onTree b p := by
  rw [onTree, onTree, h]

lemma onTreeNow_congr [ErrorCode ε] {a b : Moment → FileTree.Action α}
    (h : ∀ now, a now p.tree = b now p.tree) : (onTreeNow a : System ε δ α) p = onTreeNow b p := by
  refine bind_congr_of_ran rfl fun log now u hrun => ?_
  obtain ⟨_, -, -, rfl⟩ := ran_ask_iff.1 hrun
  exact onTree_congr (h now)

/-- The tree is within its limits, whatever the descriptors are. -/
def Within (t : FileTree) (_ : Slots δ) : Prop := t.WithinLimits

/-- No request leads beyond the limits, and those that load files are made when a run begins
only. -/
lemma tolerates_within {op : FileTree.Operation} (h : ∀ files, op ≠ .load files) :
    Tolerates (Within (δ := δ)) op :=
  fun now _ _ ht => ht.apply now op fun files hload => absurd hload (h files)

end System

/-- What no text of a process can be as long as: an address space has not so many bytes. -/
def textLimit : Nat := 1 <<< 62

lemma limits : UInt32.size = 4294967296 ∧ textLimit = 4611686018427387904 ∧
    maxLength = 9223372036854775807 ∧ UInt64.size = 18446744073709551616 := by decide

/-- The texts of a process fit into the memory of a machine: the names of its files, of which there
can be no more than there are addresses, and its arguments and environment as a whole. -/
structure Representable {δ : Type} (g : Process δ) : Prop where
  names : ∀ e ∈ g.tree.nodes.entries, ∀ s ∈ e.1.name?, Text.byteLength s < textLimit
  count : g.tree.nodes.entries.length < textLimit
  arguments : Text.terminatedLength g.argv < UInt64.size
  environment : Text.terminatedLength (Libc.environmentTexts g.environment) < UInt64.size

lemma Representable.withMemory {δ : Type} {g : Process δ} (hg : Representable g) (m : Memory) :
    Representable { g with memory := m } :=
  ⟨hg.names, hg.count, hg.arguments, hg.environment⟩

/-- What is listed are names of nodes, and there are no more of them than nodes. -/
lemma Representable.list {δ : Type} {g : Process δ} (hg : Representable g) {p : Path}
    {names : List ListedName} {u : FileTree} (h : FileTree.list p g.tree = .ok names u) :
    names.length < textLimit ∧ ∀ e ∈ names, Text.byteLength e.name < textLimit := by
  rw [FileTree.list, FileTree.get_bind] at h
  rcases hn : g.tree.node? p with _ | (_ | _ | _)
  · rw [hn] at h
    cases h
  · rw [hn] at h
    cases h
  · rw [hn] at h
    cases h
    refine ⟨(List.length_filterMap_le _ _).trans_lt hg.count, fun e he => ?_⟩
    obtain ⟨⟨q, n⟩, hq, hname⟩ := List.mem_filterMap.1 he
    dsimp only at hname
    split_ifs at hname
    obtain ⟨s, hs, rfl⟩ := Option.map_eq_some_iff.1 hname
    exact hg.names _ hq s hs
  · rw [hn] at h
    cases h

open GuestShell.System

/-! ## The smaller interface -/

namespace Posix.Checked

/-- Reads from a descriptor into memory. -/
def read (fd : Int) (address size : Nat) : Sys Int := do
  System.reading (·.check address size)
  let data ←
    if fd = 0 then System.readInput size
    else if fd = 1 ∨ fd = 2 then System.fail .invalidArgument
    else do
      let h ← handle fd
      System.onTree (FileTree.Checked.read h size)
  System.Checked.write address data
  return data.length

/-- Writes memory to a descriptor. -/
def write (fd : Int) (address size : Nat) : Sys Int := do
  let data ← System.reading (·.read address size)
  if fd = 1 then System.ask (.stdout data)
  else if fd = 2 then System.ask (.stderr data)
  else if fd = 0 then System.fail .invalidArgument
  else do
    let h ← handle fd
    let _ ← System.onTreeNow fun now => FileTree.Checked.write now h data
  return data.length

/-- Puts a text into memory, as far as there is room for it. -/
def copyOut (address room : Nat) (bytes : Bytes) : Sys Int := do
  let count := min bytes.length room
  let part ← need (part? bytes 0 count)
  System.Checked.write address part
  return count

/-- Looks up a name in the environment. -/
def getenv (name : String) (address room : Nat) : Sys Int := do
  match (← System.process).environment.find? fun e => e.1 == name with
  | some (_, value) => copyOut address room (Text.encode value)
  | none => return 0

/-- The working directory. -/
def getcwd (address room : Nat) : Sys Int := do
  let bytes := Text.encode workingDirectory.text
  if room < bytes.length then System.fail .noSpace
  copyOut address room bytes

/-- The names that fit, each followed by a zero byte, behind what is there already. -/
def listing (room : Nat) (out : Bytes) : List ListedName → Sys Bytes
  | [] => return out
  | e :: es => do
    let name := Text.encode e.name
    let total ← need (below? UInt64.size (out.length + name.length + 1))
    if room < total then return out
    let out ← need (extended? out (name ++ [0]))
    listing room out es

/-- Lists a directory. -/
def readdir (p : Path) (address room : Nat) : Sys Int := do
  let names ← System.onTree (FileTree.list p)
  let bytes ← listing room [] names
  System.Checked.write address bytes
  return bytes.length

/-- Does what a function is for. -/
def perform (c : PosixCall) (args : List Value) : Sys Int :=
  let int (k : Nat) : Int := (argument args k).narrow.toInt
  let nat (k : Nat) : Nat := (argument args k).address
  match c with
  | .read => read (int 0) (nat 1) (nat 2)
  | .write => write (int 0) (nat 1) (nat 2)
  | .getenv => do
    let name ← System.reading (·.readText (nat 0) (nat 1))
    getenv name (nat 2) (nat 3)
  | .getcwd => getcwd (nat 0) (nat 1)
  | .readdir => do readdir (← path (nat 0) (nat 1)) (nat 2) (nat 3)
  | c => Posix.perform c args

variable {g : Guest}

lemma read_eq (hlimits : g.tree.WithinLimits) (fd : Int) {address size : Nat}
    (hsize : size < UInt32.size) : read fd address size g = Posix.read fd address size g := by
  have rest {data : Bytes} {u : Guest} (hdata : data.length ≤ size) :
      (do
        System.Checked.write address data
        return (data.length : Int) : Sys Int) u =
      (do
        System.write address data
        return (data.length : Int) : Sys Int) u :=
    bind_congr_of_ran (System.Checked.write_eq (by omega)) fun _ _ _ _ => rfl
  refine (looks_reading _).bind_congr fun _ _ => ite_congr_at ?_ (ite_congr_at ?_ ?_)
  · refine bind_congr_of_ran rfl fun log data u hread => rest ?_
    rcases ran_readInput hread with ⟨_, hr⟩ | ⟨chunk, hr, hlength, -⟩
    · cases hr
    · cases hr
      exact hlength
  · rfl
  · refine (looks_handle fd).bind_congr fun h _ => ?_
    refine bind_congr_of_ran (onTree_congr (FileTree.Checked.read_eq hlimits h size)) ?_
    exact fun log data u hread => rest (length_of_ran_read hread)

lemma write_eq (hlimits : g.tree.WithinLimits) (fd : Int) (address size : Nat) :
    write fd address size g = Posix.write fd address size g := by
  refine (looks_reading _).bind_congr fun data _ => ?_
  refine ite_congr_at rfl (ite_congr_at rfl (ite_congr_at rfl ?_))
  refine (looks_handle fd).bind_congr fun h _ => bind_congr_of_ran ?_ fun _ _ _ _ => rfl
  exact onTreeNow_congr fun now => FileTree.Checked.write_eq hlimits now h data

lemma copyOut_eq (address : Nat) {room : Nat} (bytes : Bytes) (hroom : room < UInt32.size) :
    copyOut address room bytes g = Posix.copyOut address room bytes g := by
  have hlength : (bytes.take room).length = min bytes.length room := by
    rw [List.length_take, Nat.min_comm]
  simp only [copyOut, Posix.copyOut, part?_take, need_some, pure_bind, hlength]
  exact bind_congr_of_ran (System.Checked.write_eq (by omega)) fun _ _ _ _ => rfl

/-- What is listed never gets longer than the room, so that there is room for one more name. -/
lemma listing_eq {room : Nat} (hroom : room < UInt32.size) {names : List ListedName}
    (hnames : ∀ e ∈ names, Text.byteLength e.name < textLimit) {out : Bytes}
    (hout : out.length ≤ room) :
    listing room out names = pure (out ++ Posix.listing (room - out.length) names) := by
  induction names generalizing out with
  | nil => rw [listing, Posix.listing, List.append_nil]
  | cons e es ih =>
    obtain ⟨he, hes⟩ := List.forall_mem_cons.1 hnames
    rw [Text.byteLength] at he
    obtain ⟨_, _, _, _⟩ := limits
    have hword : out.length + (Text.encode e.name).length + 1 < UInt64.size := by omega
    simp only [listing, Posix.listing, below?_of_lt hword, need_some, pure_bind, List.length_append,
      List.length_singleton]
    by_cases hfits : room < out.length + (Text.encode e.name).length + 1
    · rw [if_pos hfits, if_neg (by omega), List.append_nil]
    · have hlength : (out ++ (Text.encode e.name ++ [0])).length =
          out.length + (Text.encode e.name).length + 1 := by
        simp only [List.length_append, List.length_singleton, Nat.add_assoc]
      have hheld : out.length + (Text.encode e.name ++ [0]).length ≤ maxLength := by
        rw [← List.length_append]
        omega
      rw [if_neg hfits, if_pos (by omega), extended?_of_le hheld, need_some, pure_bind,
        ih hes (by omega), hlength, List.append_assoc, Nat.sub_sub, Nat.add_assoc]

lemma readdir_eq (hg : Representable g) (p : Path) (address : Nat) {room : Nat}
    (hroom : room < UInt32.size) : readdir p address room g = Posix.readdir p address room g := by
  refine bind_congr_of_ran rfl fun log names u hlist => ?_
  have hnames : ∀ e ∈ names, Text.byteLength e.name < textLimit := by
    obtain ⟨-, ⟨_, _, hok, hr, -⟩ | ⟨_, _, -, hr, -⟩⟩ := ran_onTree_iff.1 hlist
    · cases hr
      exact (hg.list hok).2
    · cases hr
  have hbytes : listing room [] names = pure (Posix.listing room names) :=
    listing_eq hroom hnames (Nat.zero_le room)
  rw [hbytes, pure_bind]
  have hlength := length_listing_le names room
  exact bind_congr_of_ran (System.Checked.write_eq (by omega)) fun _ _ _ _ => rfl

/-- **A call of the smaller interface can be made with the numbers of a machine.** -/
theorem perform_eq (hlimits : g.tree.WithinLimits) (hg : Representable g) (c : PosixCall)
    (args : List Value) : perform c args g = Posix.perform c args g := by
  have hword (k : Nat) : (argument args k).address < UInt32.size := Value.address_lt _
  cases c with
  | read => exact read_eq hlimits _ (hword 2)
  | write => exact write_eq hlimits _ _ _
  | getenv =>
    refine (looks_reading _).bind_congr fun name _ => looks_process.bind_congr fun g' _ => ?_
    cases g'.environment.find? fun e => e.1 == name with
    | none => rfl
    | some e => exact copyOut_eq _ _ (hword 3)
  | getcwd => exact ite_congr_at rfl (copyOut_eq _ _ (hword 1))
  | readdir => exact (looks_path _ _).bind_congr fun p _ => readdir_eq hg p _ (hword 3)
  | open_ | close | seek | exit | stat | mkdir | rmdir | unlink | rename => rfl

end Posix.Checked

/-! ## The larger interface -/

namespace Libc

/-- Texts, or the addresses of texts, that go on to the end of all addresses, in a memory that goes
on to there; or a text that does so by itself. -/
def GoesOver (texts : List String) (pointers target : Nat) (m : Memory) : Prop :=
  (∃ s ∈ texts, UInt32.size ≤ Text.byteLength s) ∨
    UInt32.size ≤ m.size ∧ (UInt32.size < pointers + 4 * texts.length ∨
      UInt32.size ≤ target + Text.terminatedLength texts)

/-- The call is to lay out texts up to the end of all addresses. -/
def Overruns (c : LibcCall) (args : List Value) (g : Guest) : Prop :=
  let nat (k : Nat) : Nat := (args.getD k (.i32 0)).address
  match c with
  | .argsGet => GoesOver g.argv (nat 0) (nat 1) g.memory
  | .environGet => GoesOver (environmentTexts g.environment) (nat 0) (nat 1) g.memory
  | _ => False

end Libc

namespace Libc.Checked

/-- Puts texts one after another from `target` on, each with a zero byte after it, and a pointer to
each, of which the first `index` are there already. -/
def writeTexts (pointers index target : Nat) : List String → Sys Unit
  | [] => return
  | s :: rest => do
    let bytes := Text.encode s
    let offset ← need (below? UInt32.size (4 * index))
    let pointer ← need (below? UInt32.size (pointers + offset))
    System.writing (·.writeWord32 pointer target)
    System.Checked.write target bytes
    let last ← need (below? UInt32.size (target + bytes.length))
    System.write last [0]
    let next ← need (below? UInt32.size (target + (bytes.length + 1)))
    writeTexts pointers (index + 1) next rest

/-- The bytes that texts take, each with a zero byte after it, and `total` more. -/
def terminatedLength (total : Nat) : List String → Sys Nat
  | [] => return total
  | s :: rest => do
    let total ← need (below? UInt64.size (total + (Text.byteLength s + 1)))
    terminatedLength total rest

/-- Puts the number of texts and the bytes they take into memory. -/
def writeSizes (countAt sizeAt : Nat) (texts : List String) : Sys Unit := do
  let size ← terminatedLength 0 texts
  System.writing (·.writeWord32 countAt texts.length)
  System.writing (·.writeWord32 sizeAt size)

/-- Bytes from what a descriptor stands for. -/
def readFrom (d : Descriptor) (size : Nat) : Sys Bytes :=
  match d with
  | .file h _ => System.onTree (FileTree.Checked.read h size)
  | d => Libc.readFrom d size

/-- Reads into one area after another until one is not filled; a device fills one area at most. -/
def readAreas (d : Descriptor) (total : Nat) : List Area → Sys Nat
  | [] => return total
  | a :: rest =>
    if a.size = 0 then readAreas d total rest
    else do
      System.reading (·.check a.address a.size)
      let data ← readFrom d a.size
      System.Checked.write a.address data
      let total ← need (below? UInt64.size (total + data.length))
      if Descriptor.isDevice d || data.length < a.size then return total
      else readAreas d total rest

/-- Reads into the areas of a vector. -/
def fdRead (fd : Int) (vector count resultAt : Nat) : Sys Unit := do
  let d ← descriptor fd
  let total ← readAreas d 0 (← areas vector count)
  System.writing (·.writeWord32 resultAt total)

/-- The bytes of areas, one after another, behind what is there already. -/
def gather (data : Bytes) : List Area → Sys Bytes
  | [] => return data
  | a :: rest => do
    let bytes ← System.reading (·.read a.address a.size)
    let data ← need (extended? data bytes)
    gather data rest

/-- Writes bytes to what a descriptor stands for. -/
def writeTo (d : Descriptor) (data : Bytes) : Sys Unit :=
  match d with
  | .file h _ => do
    let _ ← System.onTreeNow fun now => FileTree.Checked.write now h data
  | d => Libc.writeTo d data

/-- Writes the areas of a vector. -/
def fdWrite (fd : Int) (vector count resultAt : Nat) : Sys Unit := do
  let d ← descriptor fd
  let data ← gather [] (← areas vector count)
  writeTo d data
  System.writing (·.writeWord32 resultAt data.length)

/-- Cuts or extends a file. -/
def fdFilestatSetSize (fd : Int) (size : Nat) : Sys Unit := do
  match ← descriptor fd with
  | .file h _ => System.onTreeNow fun now => FileTree.Checked.setLength now h size
  | _ => System.fail .badDescriptor

/-- Lines of a listing, numbered from `serial` on, behind what is there already, until there is no
room left. -/
def entryBytes (room serial : Nat) (out : Bytes) : List (String × FileType) → Sys Bytes
  | [] => return out
  | e :: es =>
    if room ≤ out.length then return out
    else do
      let name := Text.encode e.1
      let next ← need (below? UInt64.size (serial + 1))
      let out ← need (extended? out (entryRecord next name.length e.2))
      let out ← need (extended? out name)
      entryBytes room next out es

/-- Lists a directory from a line on. -/
def fdReaddir (fd : Int) (address room cookie usedAt : Nat) : Sys Unit := do
  let p ← directory fd
  let entries ← listed p
  let bytes := (← entryBytes room cookie [] (entries.drop cookie)).take room
  System.Checked.write address bytes
  System.writing (·.writeWord32 usedAt bytes.length)

/-- Puts random bytes into memory. -/
def randomGet (address size : Nat) : Sys Unit := do
  System.reading (·.check address size)
  let (bytes, last) := randomWords (← System.process).random ((size + 7) / 8)
  System.update fun p => { p with random := last }
  System.Checked.write address (bytes.take size)

/-- Does what a function is for. -/
def perform (c : LibcCall) (args : List Value) : Sys Unit :=
  let int (k : Nat) : Int := (args.getD k (.i32 0)).narrow.toInt
  let nat (k : Nat) : Nat := (args.getD k (.i32 0)).address
  let wide (k : Nat) : Nat := (args.getD k (.i32 0)).wide.toUInt64.toNat
  match c with
  | .argsGet => do writeTexts (nat 0) 0 (nat 1) (← System.process).argv
  | .argsSizesGet => do writeSizes (nat 0) (nat 1) (← System.process).argv
  | .environGet => do
    writeTexts (nat 0) 0 (nat 1) (environmentTexts (← System.process).environment)
  | .environSizesGet => do
    writeSizes (nat 0) (nat 1) (environmentTexts (← System.process).environment)
  | .fdFilestatSetSize => fdFilestatSetSize (int 0) (wide 1)
  | .fdPrestatDirName => do
    let name := Text.encode (← preopenName (int 0))
    let part ← need (part? name 0 (min name.length (nat 2)))
    System.Checked.write (nat 1) part
  | .fdRead => fdRead (int 0) (nat 1) (nat 2) (nat 3)
  | .fdReaddir => fdReaddir (int 0) (nat 1) (nat 2) (wide 3) (nat 4)
  | .fdWrite => fdWrite (int 0) (nat 1) (nat 2) (nat 3)
  | .randomGet => randomGet (nat 0) (nat 1)
  | c => Libc.perform c args

variable {g : Guest}

/-! ### Texts -/

/-- Neither the addresses nor the texts go on to where there are no addresses any more, because the
memory ends before, or because there are few enough of them. -/
lemma writeTexts_eq {texts : List String} {pointers index target : Nat}
    (htexts : ∀ s ∈ texts, Text.byteLength s < UInt32.size)
    (hpointers : texts ≠ [] → pointers + 4 * index < UInt32.size)
    (hroom : g.memory.size < UInt32.size ∨
      pointers + 4 * (index + texts.length) ≤ UInt32.size ∧
        target + Text.terminatedLength texts < UInt32.size) :
    writeTexts pointers index target texts g =
      Libc.writeTexts (pointers + 4 * index) target texts g := by
  induction texts generalizing index target g with
  | nil => rfl
  | cons s texts ih =>
    obtain ⟨hs, htexts⟩ := List.forall_mem_cons.1 htexts
    have hpointer := hpointers (List.cons_ne_nil _ _)
    rw [Text.byteLength] at hs
    rw [List.length_cons, Text.terminatedLength, Text.byteLength] at hroom
    simp only [writeTexts, Libc.writeTexts, below?_of_lt hpointer,
      below?_of_lt (show 4 * index < UInt32.size by omega), need_some, pure_bind]
    refine bind_congr_of_ran rfl fun _ _ g₁ h₁ => ?_
    obtain ⟨hfit₁, hsize₁⟩ := fits_of_ran_write h₁
    rw [Bytes.length_word32] at hfit₁
    refine bind_congr_of_ran (System.Checked.write_eq hs) fun _ _ g₂ h₂ => ?_
    obtain ⟨hfit₂, hsize₂⟩ := fits_of_ran_write h₂
    have hlast : target + (Text.encode s).length < UInt32.size := by omega
    rw [sum, Nat.mod_eq_of_lt hlast]
    simp only [below?_of_lt hlast, need_some, pure_bind]
    refine bind_congr_of_ran rfl fun _ _ g₃ h₃ => ?_
    obtain ⟨hfit₃, hsize₃⟩ := fits_of_ran_write h₃
    rw [List.length_singleton] at hfit₃
    have hnext : target + ((Text.encode s).length + 1) < UInt32.size := by omega
    rw [sum, sum, Nat.mod_eq_of_lt hnext]
    simp only [below?_of_lt hnext, need_some, pure_bind]
    rcases texts with _ | ⟨s', texts⟩
    · rfl
    rw [List.length_cons] at hroom
    have hmore : pointers + 4 * (index + 1) < UInt32.size := by omega
    rw [Nat.add_assoc, ← Nat.mul_succ, Nat.mod_eq_of_lt hmore]
    exact ih htexts (fun _ => hmore) (by rw [List.length_cons]; omega)

lemma terminatedLength_eq {texts : List String} {total : Nat}
    (h : total + Text.terminatedLength texts < UInt64.size) :
    terminatedLength total texts = pure (total + Text.terminatedLength texts) := by
  induction texts generalizing total with
  | nil => rfl
  | cons s texts ih =>
    rw [Text.terminatedLength] at h
    rw [terminatedLength, below?_of_lt (by omega), need_some, pure_bind, ih (by omega),
      Text.terminatedLength, Nat.add_assoc]

lemma writeSizes_eq (countAt sizeAt : Nat) {texts : List String}
    (h : Text.terminatedLength texts < UInt64.size) :
    writeSizes countAt sizeAt texts g = Libc.writeSizes countAt sizeAt texts g := by
  have hsize : terminatedLength 0 texts = pure (0 + Text.terminatedLength texts) :=
    terminatedLength_eq (by omega)
  rw [writeSizes, hsize, pure_bind, Nat.zero_add, Libc.writeSizes]

/-! ### Streams and files -/

lemma readFrom_eq (hlimits : g.tree.WithinLimits) (d : Descriptor) (size : Nat) :
    readFrom d size g = Libc.readFrom d size g := by
  cases d with
  | device d => rfl
  | directory p name => rfl
  | file h append => exact onTree_congr (FileTree.Checked.read_eq hlimits h size)

lemma readAreas_eq {d : Descriptor} {as : List Area} {total : Nat} (hlimits : g.tree.WithinLimits)
    (has : ∀ a ∈ as, a.size < UInt32.size) (htotal : total + totalSize as < UInt64.size) :
    readAreas d total as g = Libc.readAreas d total as g := by
  induction as generalizing total g with
  | nil => rfl
  | cons a rest ih =>
    obtain ⟨ha, hrest⟩ := List.forall_mem_cons.1 has
    rw [totalSize] at htotal
    refine ite_congr_at (ih hlimits hrest (by omega)) ?_
    refine (looks_reading _).bind_congr fun _ _ => ?_
    refine bind_congr_of_ran (readFrom_eq hlimits d a.size) fun _ data u hread => ?_
    have hlength := (ran_readFrom_ok hread).1
    have hu : u.tree.WithinLimits := Keeps.ran (R := Within)
      (keeps_readFrom d a.size fun h => tolerates_within (by simp)) hlimits hread
    refine bind_congr_of_ran (System.Checked.write_eq (by omega)) fun _ _ u' hwrite => ?_
    rw [below?_of_lt (by omega), need_some, pure_bind]
    have hu' : u'.tree.WithinLimits := Keeps.ran (R := Within) (keeps_write _ _) hu hwrite
    exact ite_congr_at rfl (ih hu' hrest (by omega))

lemma ofLittleEndian_lt (a b c d : UInt8) : Bytes.ofLittleEndian [a, b, c, d] < UInt32.size := by
  have ha := a.toNat_lt
  have hb := b.toNat_lt
  have hc := c.toNat_lt
  have hd := d.toNat_lt
  simp only [Bytes.ofLittleEndian, UInt32.size]
  omega

/-- The numbers in a vector are words of 32 bits, and it takes eight bytes to name an area. -/
lemma areasOf_bounds (bytes : Bytes) :
    (∀ a ∈ areasOf bytes, a.size < UInt32.size) ∧ 8 * (areasOf bytes).length ≤ bytes.length := by
  fun_induction areasOf bytes with
  | case1 a b c d e f g h rest ih =>
    refine ⟨List.forall_mem_cons.2 ⟨ofLittleEndian_lt e f g h, ih.1⟩, ?_⟩
    simp only [List.length_cons]
    omega
  | case2 bytes => exact ⟨by simp, Nat.zero_le _⟩

lemma totalSize_le {as : List Area} (has : ∀ a ∈ as, a.size < UInt32.size) :
    totalSize as ≤ as.length * UInt32.size := by
  induction as with
  | nil => exact Nat.zero_le _
  | cons a as ih =>
    obtain ⟨ha, has⟩ := List.forall_mem_cons.1 has
    have := ih has
    rw [totalSize, List.length_cons, Nat.succ_mul]
    omega

/-- However many areas a vector names, they are less than any buffer can hold. -/
lemma bounds_of_ran_areas {vector count : Nat} {as : List Area} {log : Log} {q : Guest}
    (h : Ran (areas vector count) g log (.ok as) q) :
    (∀ a ∈ as, a.size < UInt32.size) ∧ totalSize as ≤ maxLength := by
  have hcount := count_of_ran_areas h
  obtain ⟨bytes, hread, rfl⟩ := areasOf_of_ran_areas h
  obtain ⟨hsizes, hlength⟩ := areasOf_bounds bytes
  have hbytes : bytes.length = count * 8 := by
    rw [Memory.read] at hread
    split_ifs at hread
    cases hread
    exact Memory.length_area _ _ _
  refine ⟨hsizes, (totalSize_le hsizes).trans ?_⟩
  obtain ⟨h32, -, hmax, -⟩ := limits
  rw [h32] at hcount ⊢
  omega

lemma fdRead_eq (hlimits : g.tree.WithinLimits) (fd : Int) (vector count resultAt : Nat) :
    fdRead fd vector count resultAt g = Libc.fdRead fd vector count resultAt g := by
  obtain ⟨_, _, _, _⟩ := limits
  refine (looks_descriptor fd).bind_congr fun d _ => (looks_areas vector count).bind_congr ?_
  intro as has
  obtain ⟨hsizes, htotal⟩ := bounds_of_ran_areas has
  exact bind_congr_of_ran (readAreas_eq hlimits hsizes (by omega)) fun _ _ _ _ => rfl

lemma gather_eq {as : List Area} {data : Bytes} (h : data.length + totalSize as ≤ maxLength) :
    gather data as g = (do return data ++ (← Libc.gather as) : Sys Bytes) g := by
  induction as generalizing data with
  | nil => rw [gather, Libc.gather, pure_bind, List.append_nil]
  | cons a rest ih =>
    rw [totalSize] at h
    simp only [gather, Libc.gather, bind_assoc, pure_bind]
    refine (looks_reading _).bind_congr fun bytes hread => ?_
    have hlength := (ran_read_ok hread).2
    rw [extended?_of_le (by omega), need_some, pure_bind, ih (by rw [List.length_append]; omega)]
    simp only [List.append_assoc]

lemma writeTo_eq (hlimits : g.tree.WithinLimits) (d : Descriptor) (data : Bytes) :
    writeTo d data g = Libc.writeTo d data g := by
  cases d with
  | device d => rfl
  | directory p name => rfl
  | file h append =>
    refine bind_congr_of_ran (onTreeNow_congr fun now => ?_) fun _ _ _ _ => rfl
    exact FileTree.Checked.write_eq hlimits now h data

lemma fdWrite_eq (hlimits : g.tree.WithinLimits) (fd : Int) (vector count resultAt : Nat) :
    fdWrite fd vector count resultAt g = Libc.fdWrite fd vector count resultAt g := by
  refine (looks_descriptor fd).bind_congr fun d _ => (looks_areas vector count).bind_congr ?_
  intro as has
  have htotal : ([] : Bytes).length + totalSize as ≤ maxLength := by
    rw [List.length_nil, Nat.zero_add]
    exact (bounds_of_ran_areas has).2
  refine bind_congr_of_ran ((gather_eq htotal).trans ?_) fun _ data u hgather => ?_
  · simp only [List.nil_append, bind_pure]
  · obtain ⟨-, rfl⟩ := looks_gather as _ _ _ _ hgather
    exact bind_congr_of_ran (writeTo_eq hlimits d data) fun _ _ _ _ => rfl

lemma fdFilestatSetSize_eq (fd : Int) (size : Nat) :
    fdFilestatSetSize fd size = Libc.fdFilestatSetSize fd size := by
  simp only [fdFilestatSetSize, FileTree.Checked.setLength_eq]
  rfl

/-! ### Places -/

lemma entryBytes_eq {room : Nat} (hroom : room < UInt32.size) {es : List (String × FileType)}
    (hnames : ∀ e ∈ es, Text.byteLength e.1 < textLimit) {serial : Nat}
    (hserial : serial + es.length < UInt64.size) (out : Bytes) :
    entryBytes room serial out es =
      pure (out ++ Libc.entryBytes (room - out.length) serial es) := by
  induction es generalizing serial out with
  | nil => rw [entryBytes, Libc.entryBytes, List.append_nil]
  | cons e es ih =>
    obtain ⟨he, hes⟩ := List.forall_mem_cons.1 hnames
    rw [Text.byteLength] at he
    rw [List.length_cons] at hserial
    obtain ⟨_, _, _, _⟩ := limits
    rw [entryBytes, Libc.entryBytes]
    by_cases hfull : room ≤ out.length
    · rw [if_pos hfull, if_pos (by omega), List.append_nil]
    have hrecord (t : FileType) := length_entryRecord (serial + 1) (Text.encode e.1).length t
    rw [if_neg hfull, if_neg (by omega), below?_of_lt (by omega), need_some, pure_bind,
      extended?_of_le (by rw [hrecord]; omega), need_some, pure_bind,
      extended?_of_le (by rw [List.length_append, hrecord]; omega), need_some, pure_bind,
      ih hes (by omega)]
    simp only [List.length_append, List.append_assoc, Nat.sub_sub]

/-- What is listed of a directory are names of nodes, and two more. -/
lemma bounds_of_ran_listed (hg : Representable g) {p : Path} {entries : List (String × FileType)}
    {log : Log} {q : Guest} (h : Ran (listed p) g log (.ok entries) q) :
    entries.length < textLimit + 2 ∧ ∀ e ∈ entries, Text.byteLength e.1 < textLimit := by
  rcases ran_bind_iff.1 h with ⟨_, hr, -⟩ | ⟨names, u, _, _, -, hlist, hend⟩
  · cases hr
  obtain ⟨-, ⟨_, _, hok, hr, -⟩ | ⟨_, _, -, hr, -⟩⟩ := ran_onTree_iff.1 hlist
  · cases hr
    obtain ⟨hcount, hnames⟩ := hg.list hok
    obtain ⟨-, hentries, -⟩ := Task.runs_done_pair_iff.1 hend
    cases hentries
    refine ⟨by simpa using hcount, ?_⟩
    simp only [List.cons_append, List.nil_append, List.forall_mem_cons, List.forall_mem_map]
    exact ⟨by decide, by decide, hnames⟩
  · cases hr

lemma fdReaddir_eq (hg : Representable g) (fd : Int) (address usedAt : Nat) {room cookie : Nat}
    (hroom : room < UInt32.size) (hcookie : cookie < UInt64.size) :
    fdReaddir fd address room cookie usedAt g = Libc.fdReaddir fd address room cookie usedAt g := by
  obtain ⟨_, _, _, _⟩ := limits
  refine (looks_directory fd).bind_congr fun p _ => bind_congr_of_ran rfl ?_
  intro _ entries u hlisted
  obtain ⟨hlength, hnames⟩ := bounds_of_ran_listed hg hlisted
  have hserial : cookie + (entries.drop cookie).length < UInt64.size := by
    rw [List.length_drop]
    omega
  have hbytes : entryBytes room cookie [] (entries.drop cookie) =
      pure (Libc.entryBytes room cookie (entries.drop cookie)) :=
    entryBytes_eq hroom (fun e he => hnames e (List.mem_of_mem_drop he)) hserial []
  rw [hbytes, pure_bind]
  have hpart := List.length_take_le room (Libc.entryBytes room cookie (entries.drop cookie))
  exact bind_congr_of_ran (System.Checked.write_eq (by omega)) fun _ _ _ _ => rfl

/-! ### All together -/

lemma randomGet_eq (address : Nat) {size : Nat} (hsize : size < UInt32.size) :
    randomGet address size g = Libc.randomGet address size g := by
  refine (looks_reading _).bind_congr fun _ _ => looks_process.bind_congr fun g' _ => ?_
  refine bind_congr_of_ran rfl fun _ _ u _ => System.Checked.write_eq ?_
  exact (List.length_take_le _ _).trans_lt hsize

lemma fdPrestatDirName_eq (fd : Int) (address : Nat) {room : Nat} (hroom : room < UInt32.size) :
    (do
      let name := Text.encode (← preopenName fd)
      let part ← need (part? name 0 (min name.length room))
      System.Checked.write address part : Sys Unit) g =
    (do
      let name ← preopenName fd
      System.write address ((Text.encode name).take room) : Sys Unit) g := by
  refine (looks_preopenName fd).bind_congr fun name _ => ?_
  simp only [part?_take, need_some, pure_bind]
  exact System.Checked.write_eq ((List.length_take_le _ _).trans_lt hroom)

lemma texts_eq {texts : List String} {pointers target : Nat} (hpointers : pointers < UInt32.size)
    (h : ¬GoesOver texts pointers target g.memory) :
    writeTexts pointers 0 target texts g = Libc.writeTexts pointers target texts g := by
  simp only [GoesOver, not_or, not_exists, not_and, Nat.not_le, Nat.not_lt] at h
  obtain ⟨htexts, hroom⟩ := h
  refine writeTexts_eq htexts (fun _ => hpointers) ?_
  rcases Nat.lt_or_ge g.memory.size UInt32.size with hsize | hsize
  · exact .inl hsize
  · rw [Nat.zero_add]
    exact .inr (hroom hsize)

/-- **A call of the larger interface can be made with the numbers of a machine**, unless the texts
it lays out go on to the end of all addresses. -/
theorem perform_eq (hlimits : g.tree.WithinLimits) (hg : Representable g) {c : LibcCall}
    {args : List Value} (h : ¬Overruns c args g) : perform c args g = Libc.perform c args g := by
  have hword (k : Nat) : (args.getD k (.i32 0)).address < UInt32.size := Value.address_lt _
  have hwide (k : Nat) : (args.getD k (.i32 0)).wide.toUInt64.toNat < UInt64.size :=
    UInt64.toNat_lt_size _
  cases c with
  | argsGet => exact process_bind_congr (texts_eq (hword 0) h)
  | environGet => exact process_bind_congr (texts_eq (hword 0) h)
  | argsSizesGet => exact process_bind_congr (writeSizes_eq _ _ hg.arguments)
  | environSizesGet => exact process_bind_congr (writeSizes_eq _ _ hg.environment)
  | fdFilestatSetSize => exact congrFun (fdFilestatSetSize_eq _ _) g
  | fdPrestatDirName => exact fdPrestatDirName_eq _ _ (hword 2)
  | fdRead => exact fdRead_eq hlimits _ _ _ _
  | fdReaddir => exact fdReaddir_eq hg _ _ _ (hword 2) (hwide 3)
  | fdWrite => exact fdWrite_eq hlimits _ _ _ _
  | randomGet => exact randomGet_eq _ (hword 1)
  | _ => rfl

end Libc.Checked

end GuestShell
