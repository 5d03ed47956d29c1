import GuestShell.Proofs.Sandbox.Arguments
import GuestShell.Proofs.Sandbox.Checked
import Mathlib.Data.List.Perm.Subperm

/-!
# Scattered reads

A guest can have a file read into several areas of its memory at once.  The host reads once for each
area and stops at the first that is not filled.  All the same the guest finds in its areas, one after
another, what a single read of all their room would have given, and behind it what was there before
(`fdRead_scatters`).

The argument goes from area to area (`readAreas_file`).  What is read into one area is what stands
behind the position, and the next one begins where it ended; and since no two areas have a byte in
common, no area is touched again.  For the same reason all areas together are no longer than the
memory (`totalSize_le`), so the number of bytes read fits into the word it is reported in.

The size of the vector itself must fit into a word too, and here the interface has a gap: of a vector
that fills a memory of 4 GiB the host reads nothing at all (`full_vector_refused`).
-/

namespace GuestShell.Libc

open GuestShell.FileTree GuestShell.System

variable {g : Guest} {m m' : Memory} {a b : Area} {as : List Area} {handle : Nat}
  {f : OpenFile} {data : Bytes} {modified : Moment}

/-! ## Areas of memory -/

/-- The byte at an address belongs to the area. -/
def Area.Has (a : Area) (i : Nat) : Prop := a.address ≤ i ∧ i < a.address + a.size

/-- No byte belongs to both areas. -/
def Area.Apart (a b : Area) : Prop := ∀ i, a.Has i → ¬b.Has i

/-- What is in the areas, one after another. -/
def contents (m : Memory) (as : List Area) : Bytes := as.flatMap fun a => m.area a.address a.size

/-- The addresses and sizes of areas. -/
def footprint (as : List Area) : List (Nat × Nat) := as.map fun a => (a.address, a.size)

lemma contents_cons (m : Memory) (a : Area) (as : List Area) :
    contents m (a :: as) = m.area a.address a.size ++ contents m as := rfl

lemma contents_congr (h : ∀ a ∈ as, ∀ i, a.Has i → m'.byteAt i = m.byteAt i) :
    contents m' as = contents m as := by
  induction as with
  | nil => rfl
  | cons a as ih =>
    obtain ⟨hhead, htail⟩ := List.forall_mem_cons.1 h
    rw [contents_cons, contents_cons, ih htail, Memory.area_congr fun i hlow hhigh =>
      hhead i ⟨hlow, hhigh⟩]

/-- What is apart from all areas that changed is as it was. -/
lemma same_of_apart (h : Memory.SameBut (footprint as) m m') (hapart : ∀ b ∈ as, a.Apart b) {i : Nat}
    (hi : a.Has i) : m'.byteAt i = m.byteAt i := by
  refine h.bytes i fun b' hb' => ?_
  obtain ⟨b, hb, rfl⟩ := List.mem_map.1 hb'
  have := hapart b hb i hi
  simp only [Area.Has] at this
  omega

section

variable {chunk : Bytes} (hwrite : m.write a.address chunk = .ok m') (hle : chunk.length ≤ a.size)
  (hapart : ∀ b ∈ as, a.Apart b)

include hwrite hle hapart

/-- What is written into an area does not touch those that are apart from it. -/
lemma contents_of_write_apart : contents m' as = contents m as := by
  refine contents_congr fun b hb i hi => Memory.byteAt_write_of_outside hwrite ?_
  have := hapart b hb i
  simp only [Area.Has] at this hi
  omega

/-- What is written into the first area stands before the rest of what was there. -/
lemma contents_of_write : contents m' (a :: as) = chunk ++ (contents m (a :: as)).drop chunk.length := by
  rw [contents_cons, contents_cons, Memory.area_write hwrite hle,
    contents_of_write_apart hwrite hle hapart, List.append_assoc,
    List.drop_append_of_le_length (by rwa [Memory.length_area])]

end

/-- What comes into the other areas afterwards stands behind what fills the first. -/
lemma contents_of_rest {chunk more rest : Bytes} (hfull : chunk.length = a.size)
    (hcontents : contents m (a :: as) = chunk ++ rest) (hsame : Memory.SameBut (footprint as) m m')
    (hapart : ∀ b ∈ as, a.Apart b) (hmore : contents m' as = more ++ (contents m as).drop more.length) :
    contents m' (a :: as) = chunk ++ more ++ rest.drop more.length := by
  have hkept : m'.area a.address a.size = m.area a.address a.size :=
    Memory.area_congr fun i hlow hhigh => same_of_apart hsame hapart ⟨hlow, hhigh⟩
  rw [contents_cons] at hcontents
  obtain ⟨hfirst, rfl⟩ := List.append_inj hcontents (by rw [Memory.length_area, hfull])
  rw [contents_cons, hkept, hfirst, hmore, List.append_assoc]

/-- **Areas that have no byte in common have no more room than the memory they lie in.** -/
theorem totalSize_le (hfit : AllFit m as) (hapart : as.Pairwise Area.Apart) :
    totalSize as ≤ m.size := by
  have hlength : (as.flatMap fun a => List.range' a.address a.size).length = totalSize as := by
    clear hfit hapart
    induction as with
    | nil => rfl
    | cons a as ih => rw [List.flatMap_cons, List.length_append, List.length_range', ih, totalSize]
  have hmem : ∀ {a : Area} {i : Nat}, i ∈ List.range' a.address a.size ↔ a.Has i :=
    List.mem_range'_1
  have hnodup : (as.flatMap fun a => List.range' a.address a.size).Nodup := by
    refine List.nodup_flatMap.2 ⟨fun a _ => List.nodup_range', hapart.imp fun {a b} hab => ?_⟩
    exact List.disjoint_left.2 fun i ha hb => hab i (hmem.1 ha) (hmem.1 hb)
  have hsub : (as.flatMap fun a => List.range' a.address a.size) ⊆ List.range m.size := by
    intro i hi
    obtain ⟨a, ha, hi⟩ := List.mem_flatMap.1 hi
    have hi := hmem.1 hi
    have := hfit a ha
    simp only [Area.Has] at hi
    exact List.mem_range.2 (by omega)
  have := (List.subperm_of_subset hnodup hsub).length_le
  rwa [hlength, List.length_range] at this

/-! ## One area after another -/

/-- Reading into the first area: what stands behind the position is put there, and if the area was
filled, the next one begins where it ended. -/
lemma readAreas_file_cons (append : Bool) (total : Nat) (as : List Area)
    (hopen : g.tree.opened.get? handle = some f) (hr : f.readable = true)
    (hn : g.tree.node? f.path = some (.file data modified)) (ha : a.size ≠ 0)
    (hfit : a.address + a.size ≤ g.memory.size) :
    ∃ chunk m', chunk = (data.drop f.position).take a.size ∧
      g.memory.write a.address chunk = .ok m' ∧
      readAreas (.file handle append) total (a :: as) g =
        if chunk.length < a.size then
          .done (.ok (total + chunk.length), { g with
            memory := m', tree := g.tree.withPosition handle (f.position + chunk.length) })
        else readAreas (.file handle append) (total + chunk.length) as { g with
            memory := m', tree := g.tree.withPosition handle (f.position + chunk.length) } := by
  have hle : ((data.drop f.position).take a.size).length ≤ a.size := List.length_take_le _ _
  obtain ⟨m', hm'⟩ : ∃ m', g.memory.write a.address ((data.drop f.position).take a.size) = .ok m' :=
    Memory.exists_write (by omega)
  refine ⟨_, m', rfl, hm', ?_⟩
  have hcheck : g.memory.check a.address a.size = .ok () := by rw [Memory.check, if_pos hfit]
  rw [readAreas, if_neg ha]
  simp only [bind_apply, System.reading, hcheck, readFrom, System.onTree, read_ok hopen hr hn,
    System.write, System.writing, hm', pure, Task.bind_done, Descriptor.isDevice, Bool.false_or,
    decide_eq_true_eq]
  split_ifs <;> rfl

/-- **Reading into areas one by one gives what a single read would give**, and moves the position as
far. -/
theorem readAreas_file (append : Bool) (total : Nat) (as : List Area)
    (hopen : g.tree.opened.get? handle = some f) (hr : f.readable = true)
    (hn : g.tree.node? f.path = some (.file data modified))
    (hfit : AllFit g.memory as) (hapart : as.Pairwise Area.Apart) :
    ∃ chunk m', chunk = (data.drop f.position).take (totalSize as) ∧
      readAreas (.file handle append) total as g = .done (.ok (total + chunk.length), { g with
        memory := m', tree := g.tree.withPosition handle (f.position + chunk.length) }) ∧
      contents m' as = chunk ++ (contents g.memory as).drop chunk.length ∧
      Memory.SameBut (footprint as) g.memory m' := by
  induction as generalizing g f total with
  | nil =>
    refine ⟨[], g.memory, rfl, ?_, rfl, .refl⟩
    rw [List.length_nil, Nat.add_zero, Nat.add_zero, withPosition_self hopen]
    rfl
  | cons a as ih =>
    obtain ⟨hfita, hfit⟩ := List.forall_mem_cons.1 hfit
    obtain ⟨haparta, hapart⟩ := List.pairwise_cons.1 hapart
    have hsub : footprint as ⊆ footprint (a :: as) := List.subset_cons_self _ _
    by_cases ha : a.size = 0
    · obtain ⟨chunk, m', hchunk, hrun, hcontents, hsame⟩ := ih total hopen hr hn hfit hapart
      have harea : ∀ m : Memory, contents m (a :: as) = contents m as := fun m => by
        rw [contents_cons, ha]
        rfl
      refine ⟨chunk, m', ?_, ?_, ?_, hsame.mono hsub⟩
      · rw [hchunk, totalSize, ha, Nat.zero_add]
      · rw [readAreas, if_pos ha]
        exact hrun
      · rw [harea, harea, hcontents]
    obtain ⟨chunk, m₁, hchunk, hwrite, hrun⟩ :=
      readAreas_file_cons append total as hopen hr hn ha hfita
    have hle : chunk.length ≤ a.size := hchunk ▸ List.length_take_le _ _
    have hfirst : Memory.SameBut (footprint (a :: as)) g.memory m₁ :=
      .of_write hwrite (List.mem_cons_self ..) (Nat.le_refl _) (by omega)
    have hwritten := contents_of_write hwrite hle haparta
    by_cases hshort : chunk.length < a.size
    · rw [if_pos hshort] at hrun
      have hall : (data.drop f.position).take (a.size + totalSize as) = chunk := by
        rw [hchunk, List.length_take] at hshort
        rw [hchunk, List.take_of_length_le (by omega), List.take_of_length_le (by omega)]
      exact ⟨chunk, m₁, hall.symm, hrun, hwritten, hfirst⟩
    · rw [if_neg hshort] at hrun
      have hfull : chunk.length = a.size := by omega
      obtain ⟨more, m₂, hmore, hrest, hcontents, hsame⟩ :=
        @ih { g with memory := m₁, tree := g.tree.withPosition handle (f.position + chunk.length) }
          { f with position := f.position + chunk.length } (total + chunk.length)
          (get?_withPosition hopen _) hr hn
          (fun b hb => by
            have := hfit b hb
            rwa [← Memory.size_write hwrite] at this) hapart
      refine ⟨chunk ++ more, m₂, ?_, ?_, ?_, hfirst.trans (hsame.mono hsub)⟩
      · rw [totalSize, List.take_add, ← hchunk, List.drop_drop, hmore, hfull]
      · rw [hrun, hrest, List.length_append]
        simp only [withPosition_withPosition, Nat.add_assoc]
      · rw [contents_of_rest hfull hwritten hsame haparta hcontents, List.drop_drop,
          List.length_append]

/-! ## The call -/

/-- Areas for a read and a place for its result, all inside the memory, and no two of them with a
byte in common. -/
structure Scattered (m : Memory) (as : List Area) (resultAt : Nat) : Prop where
  fit : AllFit m as
  apart : as.Pairwise Area.Apart
  result_fits : resultAt + 4 ≤ m.size
  result_apart : ∀ a ∈ as, Area.Apart ⟨resultAt, 4⟩ a

lemma Scattered.totalSize_add_le {resultAt : Nat} (h : Scattered m as resultAt) :
    4 + totalSize as ≤ m.size := by
  have hfit : AllFit m (⟨resultAt, 4⟩ :: as) := List.forall_mem_cons.2 ⟨h.result_fits, h.fit⟩
  exact totalSize_le hfit (List.pairwise_cons.2 ⟨h.result_apart, h.apart⟩)

/-- **A scattered read agrees with a plain one.**  From a file that is open for reading and still
there, a read into areas of a vector of at most 4 GiB gives what one read of all their room would
give.  The call answers 0, stores the number of bytes and moves the position by it; the areas, one
after another, hold the bytes and behind them what they held before, and nothing else in memory
changes. -/
theorem fdRead_scatters (fd vector count resultAt : Value) {k : Nat} {append : Bool} {bytes : Bytes}
    (hfd : fd.narrow.toInt = k) (hdescriptor : g.descriptors.get? k = some (.file handle append))
    (hopen : g.tree.opened.get? handle = some f) (hreadable : f.readable = true)
    (hfile : g.tree.node? f.path = some (.file data modified))
    (hmemory : g.memory.size ≤ UInt32.size) (hcount : count.address * 8 < UInt32.size)
    (hvector : g.memory.read vector.address (count.address * 8) = .ok bytes)
    (hscattered : Scattered g.memory (areasOf bytes) resultAt.address) :
    ∃ chunk tree m', FileTree.read handle (totalSize (areasOf bytes)) g.tree = .ok chunk tree ∧
      chunk.length = min (totalSize (areasOf bytes)) (data.length - f.position) ∧
      tree.opened.get? handle = some { f with position := f.position + chunk.length } ∧
      call (LibcCall.all.idxOf .fdRead) [fd, vector, count, resultAt] g =
        .done (.ok (some (.i32 0)), { g with memory := m', tree := tree }) ∧
      m'.readWord32 resultAt.address = .ok chunk.length ∧
      contents m' (areasOf bytes) =
        chunk ++ (contents g.memory (areasOf bytes)).drop chunk.length ∧
      Memory.SameBut ((resultAt.address, 4) :: footprint (areasOf bytes)) g.memory m' := by
  obtain ⟨chunk, m₁, hchunk, hrun, hcontents, hsame⟩ := readAreas_file append 0 (areasOf bytes)
    hopen hreadable hfile hscattered.fit hscattered.apart
  have hlength : chunk.length = min (totalSize (areasOf bytes)) (data.length - f.position) := by
    rw [hchunk, List.length_take, List.length_drop]
  have hword := Bytes.length_word32 chunk.length
  obtain ⟨m₂, hwrite⟩ : ∃ m₂, m₁.writeWord32 resultAt.address chunk.length = .ok m₂ :=
    Memory.exists_write (by rw [hword, hsame.size]; exact hscattered.result_fits)
  have hread := read_ok hopen hreadable hfile (totalSize (areasOf bytes))
  rw [← hchunk] at hread
  refine ⟨chunk, _, m₂, hread, hlength, get?_withPosition hopen _, call_of_perform ?_, ?_, ?_, ?_⟩
  · have hperform : perform .fdRead [fd, vector, count, resultAt] g =
        fdRead k vector.address count.address resultAt.address g := by
      rw [← hfd]
      rfl
    rw [hperform, fdRead, bind_apply, descriptor_live hdescriptor, Task.bind_done]
    simp only [bind_apply, areas_eq_ok hcount hvector, Task.bind_done, hrun, Nat.zero_add]
    exact writing_ok (p := { g with memory := m₁, tree := _ }) hwrite
  · have hfits := hscattered.totalSize_add_le
    have hreported := (Memory.holds_write hwrite).readWord32
    rwa [Nat.mod_eq_of_lt (by omega)] at hreported
  · rw [← hcontents]
    exact contents_of_write_apart (a := ⟨resultAt.address, 4⟩) hwrite (Nat.le_of_eq hword)
      hscattered.result_apart
  · refine (hsame.mono (List.subset_cons_self _ _)).trans ?_
    exact .of_write hwrite List.mem_cons_self (Nat.le_refl _) (by rw [hword])

/-- A guest that has opened the one file it was given, with a memory of its own. -/
def opener (m : Memory) : Guest :=
  let g := Guest.start 7 [] ⟨"cat", [], [⟨"/a", 5, [104, 105]⟩], none⟩
  { g with
    memory := m
    tree := FileTree.after (openPath 8 (Path.ofText "/a") {}) g.tree
    descriptors := g.descriptors.insert (.file g.tree.opened.next false) }

/-- Three areas, one of them empty: the file ends inside the third. -/
theorem fdRead_scatters_three :
    let vector : Bytes := [1024, 1, 0, 0, 2048, 4].flatMap Bytes.word32
    let g := opener { Memory.zeros 1 with written := Memory.fill ∅ 512 vector }
    ∃ tree m', call (LibcCall.all.idxOf .fdRead) [.i32 5, .i32 512, .i32 3, .i32 640] g =
        .done (.ok (some (.i32 0)), { g with memory := m', tree := tree }) ∧
      tree.opened.get? 0 = some ⟨Path.ofText "/a", 2, true, false, false⟩ ∧
      m'.readWord32 640 = .ok 2 ∧
      contents m' [⟨1024, 1⟩, ⟨0, 0⟩, ⟨2048, 4⟩] = [104, 105, 0, 0, 0] := by
  intro vector g
  have hvector : g.memory.read 512 24 = .ok vector := by
    rw [Memory.read, if_pos (by decide +kernel)]
    exact congrArg Except.ok (by decide +kernel)
  have hareas : areasOf vector = [⟨1024, 1⟩, ⟨0, 0⟩, ⟨2048, 4⟩] := rfl
  have hsize : g.memory.size = 65536 := rfl
  have hscattered : Scattered g.memory (areasOf vector) 640 := by
    rw [hareas]
    refine ⟨?_, ?_, by rw [hsize]; decide, ?_⟩
    · simp [AllFit, hsize]
    · simp only [List.pairwise_cons, List.forall_mem_cons, Area.Apart, Area.Has]
      grind
    · simp only [List.forall_mem_cons, Area.Apart, Area.Has]
      grind
  have hdescriptor : g.descriptors.get? 5 = some (.file 0 false) := by decide +kernel
  have hopen : g.tree.opened.get? 0 = some ⟨Path.ofText "/a", 0, true, false, false⟩ := by
    decide +kernel
  have hfile : g.tree.node? (Path.ofText "/a") = some (.file [104, 105] 5) := by decide +kernel
  obtain ⟨chunk, tree, m', hread, hlength, hmoved, hcall, hresult, hcontents, -⟩ :=
    fdRead_scatters (.i32 5) (.i32 512) (.i32 3) (.i32 640) rfl hdescriptor hopen rfl hfile
      (by rw [hsize]; decide) (by decide) hvector hscattered
  rw [hareas] at hread hlength hcontents
  obtain ⟨hchunk, -⟩ := EStateM.Result.ok.inj ((read_ok hopen rfl hfile _).symm.trans hread)
  have hbefore : contents g.memory [⟨1024, 1⟩, ⟨0, 0⟩, ⟨2048, 4⟩] = [0, 0, 0, 0, 0] := by
    decide +kernel
  rw [hbefore, ← hchunk] at hcontents
  rw [← hchunk] at hmoved hresult
  exact ⟨tree, m', hcall, hmoved, hresult, hcontents⟩

/-! ## A vector of 4 GiB -/

/-- A vector whose size is no word of 32 bits is refused. -/
lemma fdRead_refused (fd vector count resultAt : Value) {k : Nat} {d : Descriptor}
    (hfd : fd.narrow.toInt = k) (hdescriptor : g.descriptors.get? k = some d)
    (hcount : UInt32.size ≤ count.address * 8) :
    call (LibcCall.all.idxOf .fdRead) [fd, vector, count, resultAt] g =
      .done (.ok (some (.i32 28)), g) := by
  have hperform : perform .fdRead [fd, vector, count, resultAt] g =
      fdRead k vector.address count.address resultAt.address g := by
    rw [← hfd]
    rfl
  have hareas : areas vector.address count.address g = .done (.error (.code .invalid), g) := by
    rw [areas, if_pos hcount]
    rfl
  have hrun : (perform .fdRead [fd, vector, count, resultAt]).run g =
      .done (.error (.code .invalid), g) := by
    refine hperform.trans ?_
    rw [fdRead, bind_apply, descriptor_live hdescriptor, Task.bind_done]
    simp only [bind_apply, hareas, Task.bind_done]
  have hindex : LibcCall.all[LibcCall.all.idxOf .fdRead]? = some .fdRead := by decide
  rw [call, hindex]
  simp only [hrun, Task.bind_done]
  rfl

/-- Zeros in a vector name empty areas. -/
lemma areasOf_zeros {bytes : Bytes} (h : ∀ b ∈ bytes, b = 0) : ∀ a ∈ areasOf bytes, a = ⟨0, 0⟩ := by
  fun_induction areasOf bytes with
  | case1 a b c d e f g h' rest ih =>
    simp only [List.mem_cons, forall_eq_or_imp] at h
    obtain ⟨rfl, rfl, rfl, rfl, rfl, rfl, rfl, rfl, hrest⟩ := h
    rintro a (_ | ⟨_, ha⟩)
    · rfl
    · exact ih hrest a ha
  | case2 => simp

lemma area_zeros (pages address size : Nat) : ∀ b ∈ (Memory.zeros pages).area address size, b = 0 := by
  intro b hb
  obtain ⟨k, -, rfl⟩ := List.mem_map.1 hb
  simp [Memory.byteAt, Memory.zeros]

/-- **A vector of 4 GiB is refused**, though all its areas are empty and so are inside the memory,
apart from each other and from the result. -/
theorem full_vector_refused :
    let g := opener (.zeros Memory.maxPages)
    g.descriptors.get? 5 = some (.file 0 false) ∧
    g.tree.opened.get? 0 = some ⟨Path.ofText "/a", 0, true, false, false⟩ ∧
    g.tree.node? (Path.ofText "/a") = some (.file [104, 105] 5) ∧
    ∃ bytes, g.memory.read 0 (536870912 * 8) = .ok bytes ∧
      Scattered g.memory (areasOf bytes) 648 ∧
      call (LibcCall.all.idxOf .fdRead) [.i32 5, .i32 0, .i32 536870912, .i32 648] g =
        .done (.ok (some (.i32 28)), g) := by
  intro g
  have hdescriptor : g.descriptors.get? 5 = some (.file 0 false) := by decide +kernel
  have hsize : g.memory.size = 4294967296 := rfl
  have hread : g.memory.read 0 (536870912 * 8) = .ok (g.memory.area 0 (536870912 * 8)) := by
    rw [Memory.read, if_pos (by rw [hsize])]
  have hempty := areasOf_zeros (area_zeros Memory.maxPages 0 (536870912 * 8))
  refine ⟨hdescriptor, by decide +kernel, by decide +kernel, _, hread, ⟨?_, ?_, ?_, ?_⟩, ?_⟩
  · intro a ha
    rw [hempty a ha, hsize]
    decide
  · refine List.pairwise_of_forall_mem_list fun a ha b _ i hi => ?_
    rw [hempty a ha] at hi
    simp only [Area.Has] at hi
    omega
  · rw [hsize]
    decide
  · intro a ha i _ hi
    rw [hempty a ha] at hi
    simp only [Area.Has] at hi
    omega
  · exact fdRead_refused _ _ _ _ rfl hdescriptor (by decide)

end GuestShell.Libc
