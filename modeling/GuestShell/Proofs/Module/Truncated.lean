import GuestShell.Proofs.Module.Sections
import Mathlib.Algebra.GroupWithZero.Nat

/-!
# Downloads that broke off

**Cuts.**  A beginning of an accepted file is accepted itself exactly if it is cut after its header or
after a section (`EndsAfter`): what is accepted is sections (`walk_ok_iff`), and bytes are sections in
one way only (`Each.of_append`).

**Rounds.**  A section says how many entries it has, and can say anything.  Each entry takes some bytes
(`Consumes`), at least four for an import and three for an export, so the entries end where the section
ends, whatever it says.  `talliedInspect` is `inspect` with the entries counted that were begun in each
section; the count is kept when an entry fails, which ends the walk.
-/

namespace GuestShell.ModuleFile

variable {bytes rest : Bytes} {s : Section} {info : ModuleInfo}

/-! ## Cuts -/

/-- A beginning of a file: its header and some of its sections. -/
def EndsAfter (file : Bytes) (done : List Section) (part : Bytes) : Prop :=
  ∃ left x y, part = header ++ x ∧ file = part ++ y ∧ Each IsSection done x ∧ Each IsSection left y

/-- Where no flaw was found, none was found before. -/
lemma foldlM_learn_of_append {done left : List Section} {found : ModuleInfo}
    (h : (done ++ left).foldlM learn info = .ok found) :
    ∃ found', done.foldlM learn info = .ok found' := by
  rw [List.foldlM_append] at h
  cases hdone : done.foldlM learn info with
  | ok found' => exact ⟨found', rfl⟩
  | error flaw =>
    rw [hdone] at h
    cases h

/-- **A beginning of an accepted file is accepted exactly if it ends after some of its sections**, and
then what is in those is found. -/
theorem inspect_of_prefix {file part : Bytes} {found : ModuleInfo} (h : inspect file = .ok found)
    (hpart : part <+: file) :
    (∀ done, EndsAfter file done part →
      ∃ found', done.foldlM learn .empty = .ok found' ∧ inspect part = .ok found') ∧
    ((∀ done, ¬EndsAfter file done part) → ∃ flaw, inspect part = .error flaw) := by
  obtain ⟨ss, z, rfl, hss, hfold⟩ := inspect_ok_iff.1 h
  constructor
  · rintro done ⟨left, x, y, rfl, hfile, hx, hy⟩
    rw [List.append_assoc] at hfile
    obtain rfl := List.append_cancel_left hfile
    obtain ⟨left', rfl, -⟩ := hss.of_append hx
    obtain ⟨found', hdone⟩ := foldlM_learn_of_append hfold
    exact ⟨found', hdone, inspect_ok_iff.2 ⟨done, x, rfl, hx, hdone⟩⟩
  · intro hno
    cases hrun : inspect part with
    | error flaw => exact ⟨flaw, rfl⟩
    | ok found' =>
      -- the sections of the beginning are sections of the file, so the rest is sections too
      obtain ⟨done, x, rfl, hx, -⟩ := inspect_ok_iff.1 hrun
      obtain ⟨y, hy⟩ := hpart
      have hz : z = x ++ y := by
        rw [List.append_assoc] at hy
        exact (List.append_cancel_left hy).symm
      obtain ⟨left, -, hleft⟩ := (hz ▸ hss).of_append hx
      exact absurd ⟨left, x, y, rfl, hy.symm, hx, hleft⟩ (hno done)

/-! ## Bytes that entries take -/

/-- A reader takes at least so many bytes. -/
def Consumes {α : Type} (k : Nat) (r : Reader α) : Prop :=
  ∀ bytes v rest, r bytes = .ok (v, rest) → rest.length + k ≤ bytes.length

section Consuming

variable {α β : Type} {j k : Nat} {r : Reader α}

lemma consumes_pure (v : α) : Consumes 0 (pure v : Reader α) := by
  intro bytes w rest h
  cases h
  exact Nat.le_refl _

lemma Consumes.bind {f : α → Reader β} (hr : Consumes j r) (hf : ∀ v, Consumes k (f v)) :
    Consumes (j + k) (r >>= f) := by
  intro bytes w rest h
  change (r bytes >>= fun s => f s.1 s.2) = .ok (w, rest) at h
  cases hrun : r bytes with
  | error flaw =>
    rw [hrun] at h
    cases h
  | ok s =>
    rw [hrun] at h
    have hfirst := hr _ _ _ hrun
    have hsecond := hf s.1 _ _ _ h
    omega

lemma Consumes.of_le (h : Consumes k r) (hj : j ≤ k) : Consumes j r := by
  intro bytes v rest hrun
  have := h _ _ _ hrun
  omega

lemma consumes_byte : Consumes 1 byte := by
  intro bytes v rest h
  cases bytes with
  | nil => cases h
  | cons b tail =>
    cases h
    exact Nat.le_refl _

lemma consumes_number : Consumes 1 number :=
  fun _ _ _ h => Leb128.decode_shortens (number_ok_iff.1 h)

lemma consumes_taken (size : Nat) : Consumes 0 (taken size) := by
  intro bytes v rest h
  rw [taken] at h
  split_ifs at h
  cases h
  simp

lemma consumes_name : Consumes 1 name :=
  consumes_number.bind fun size => (consumes_taken size).bind fun _ => consumes_pure _

lemma consumes_kind : Consumes 1 kind := by
  refine consumes_byte.bind (k := 0) fun code bytes k rest h => ?_
  change (kindOfCode code >>= fun k => .ok (k, bytes)) = _ at h
  cases hcode : kindOfCode code <;> rw [hcode] at h <;> cases h
  exact Nat.le_refl _

lemma consumes_bounds : Consumes 2 bounds := by
  refine consumes_byte.bind fun flags => consumes_number.bind (k := 0) fun _ => ?_
  split_ifs
  · exact (consumes_number.bind fun _ => consumes_pure ()).of_le (Nat.zero_le _)
  · exact consumes_pure ()

lemma consumes_importType (k : ExternKind) : Consumes 1 (importType k) := by
  cases k with
  | function => exact consumes_number.bind fun _ => consumes_pure ()
  | table => exact (consumes_byte.bind fun _ => consumes_bounds).of_le (by decide)
  | memory => exact consumes_bounds.of_le (by decide)
  | global =>
    exact (consumes_byte.bind fun _ => consumes_byte.bind fun _ => consumes_pure ()).of_le
      (by decide)
  | tag =>
    exact (consumes_byte.bind fun _ => consumes_number.bind fun _ => consumes_pure ()).of_le
      (by decide)

/-- An import takes four bytes: the lengths of two names, its kind, and something of its type. -/
lemma consumes_importEntry : Consumes 4 importEntry :=
  consumes_name.bind fun _ => consumes_name.bind fun _ => consumes_kind.bind fun k =>
    (consumes_importType k).bind fun _ => consumes_pure _

/-- An export takes three bytes: the length of its name, its kind, and something of its index. -/
lemma consumes_exportEntry : Consumes 3 exportEntry :=
  consumes_name.bind fun _ => consumes_kind.bind fun _ => consumes_number.bind fun _ =>
    consumes_pure _

end Consuming

/-! ## Rounds -/

section Rounds

variable {α : Type} {entry : Reader α} {k : Nat}

/-- `entries`, with the number of entries that were begun. -/
def talliedEntries (entry : Reader α) : Nat → Bytes → Except ModuleFlaw (List α × Bytes) × Nat
  | 0, bytes => (.ok ([], bytes), 0)
  | count + 1, bytes =>
    match entry bytes with
    | .error flaw => (.error flaw, 1)
    | .ok (e, rest) =>
      let t := talliedEntries entry count rest
      (t.1.map fun s => (e :: s.1, s.2), t.2 + 1)

/-- `counted`, with the number of entries that were begun. -/
def talliedCounted (entry : Reader α) (bytes : Bytes) : Except ModuleFlaw (List α × Bytes) × Nat :=
  match number bytes with
  | .error flaw => (.error flaw, 0)
  | .ok (count, rest) => talliedEntries entry count rest

lemma talliedEntries_fst (entry : Reader α) (count : Nat) (bytes : Bytes) :
    (talliedEntries entry count bytes).1 = entries entry count bytes := by
  induction count generalizing bytes with
  | zero => rfl
  | succ count ih =>
    have hentries : entries entry (count + 1) bytes =
        entry bytes >>= fun s => entries entry count s.2 >>= fun t => .ok (s.1 :: t.1, t.2) := rfl
    rw [hentries, talliedEntries]
    cases entry bytes with
    | error flaw => rfl
    | ok s =>
      change (talliedEntries entry count s.2).1.map _ = entries entry count s.2 >>= _
      rw [ih]
      cases entries entry count s.2 <;> rfl

/-- **Rounds are paid with bytes**, but for one that fails. -/
theorem talliedEntries_snd (h : Consumes k entry) (count : Nat) (bytes : Bytes) :
    let t := talliedEntries entry count bytes
    k * t.2 ≤ bytes.length ∨ k * t.2 ≤ bytes.length + k ∧ ∃ flaw, t.1 = .error flaw := by
  induction count generalizing bytes with
  | zero => exact .inl (Nat.zero_le _)
  | succ count ih =>
    rw [talliedEntries]
    cases hentry : entry bytes with
    | error flaw => exact .inr ⟨by simp, flaw, rfl⟩
    | ok s =>
      have hpaid := h _ _ _ hentry
      simp only [Nat.mul_add, Nat.mul_one]
      rcases ih s.2 with hrest | ⟨hrest, flaw, hflaw⟩
      · exact .inl (by omega)
      · exact .inr ⟨by omega, flaw, by rw [hflaw]; rfl⟩

lemma talliedCounted_fst (entry : Reader α) (bytes : Bytes) :
    (talliedCounted entry bytes).1 = counted entry bytes := by
  have hcounted : counted entry bytes = number bytes >>= fun s => entries entry s.1 s.2 := rfl
  rw [hcounted, talliedCounted]
  cases number bytes with
  | error flaw => rfl
  | ok s => exact talliedEntries_fst entry s.1 s.2

lemma talliedCounted_snd (h : Consumes k entry) (hk : 0 < k) (bytes : Bytes) :
    let t := talliedCounted entry bytes
    t.2 ≤ bytes.length / k ∨ t.2 ≤ bytes.length / k + 1 ∧ ∃ flaw, t.1 = .error flaw := by
  intro t
  cases hnumber : number bytes with
  | error flaw =>
    have ht : t = (.error flaw, 0) := by simp only [t, talliedCounted, hnumber]
    rw [ht]
    exact .inl (Nat.zero_le _)
  | ok s =>
    have ht : t = talliedEntries entry s.1 s.2 := by simp only [t, talliedCounted, hnumber]
    have hshort := consumes_number _ _ _ hnumber
    rw [ht]
    rcases talliedEntries_snd h s.1 s.2 with hle | ⟨hle, hflaw⟩
    · left
      rw [Nat.le_div_iff_mul_le hk, Nat.mul_comm]
      omega
    · refine .inr ⟨?_, hflaw⟩
      rw [← Nat.add_div_right _ hk, Nat.le_div_iff_mul_le hk, Nat.mul_comm]
      omega

end Rounds

/-- `learn`, with the number of entries that were begun. -/
def talliedLearn (info : ModuleInfo) (s : Section) : Except ModuleFlaw ModuleInfo × Nat :=
  if s.id = importSection then
    let t := talliedCounted importEntry s.body
    (t.1.map fun r => { info with imports := r.1 }, t.2)
  else if s.id = exportSection then
    let t := talliedCounted exportEntry s.body
    (t.1.map fun r => { info with exports := r.1 }, t.2)
  else (.ok info, 0)

/-- `walk`, with the sections that were read and the number of entries that were begun in each. -/
def talliedWalk (info : ModuleInfo) (bytes : Bytes) :
    Except ModuleFlaw ModuleInfo × List (Section × Nat) :=
  if bytes = [] then (.ok info, [])
  else
    match h : nextSection bytes with
    | .error flaw => (.error flaw, [])
    | .ok (s, rest) =>
      have : rest.length < bytes.length := nextSection_shortens h
      match talliedLearn info s with
      | (.error flaw, rounds) => (.error flaw, [(s, rounds)])
      | (.ok info, rounds) =>
        let t := talliedWalk info rest
        (t.1, (s, rounds) :: t.2)
termination_by bytes.length

/-- `inspect`, with the sections that were read and the number of entries that were begun in each. -/
def talliedInspect (bytes : Bytes) : Except ModuleFlaw ModuleInfo × List (Section × Nat) :=
  match afterHeader bytes with
  | .error flaw => (.error flaw, [])
  | .ok bytes => talliedWalk .empty bytes

/-- The entries that a section has bytes for. -/
def roomFor (s : Section) : Nat :=
  if s.id = importSection then s.body.length / 4
  else if s.id = exportSection then s.body.length / 3
  else 0

/-- The entries that were begun in a section have bytes there, but for one that fails. -/
def Paid (s : Section) (rounds : Nat) : Prop :=
  rounds ≤ roomFor s ∨ rounds ≤ roomFor s + 1 ∧ ∀ info, ∃ flaw, learn info s = .error flaw

lemma talliedLearn_fst (info : ModuleInfo) (s : Section) :
    (talliedLearn info s).1 = learn info s := by
  rw [talliedLearn, learn]
  split_ifs
  · rw [← talliedCounted_fst]
  · rw [← talliedCounted_fst]
  · rfl

lemma paid_talliedLearn (info : ModuleInfo) (s : Section) : Paid s (talliedLearn info s).2 := by
  rw [Paid, talliedLearn, roomFor]
  split_ifs with himports hexports
  · rcases talliedCounted_snd consumes_importEntry (by decide) s.body with hle | ⟨hle, flaw, hflaw⟩
    · exact .inl hle
    · refine .inr ⟨hle, fun info => ⟨flaw, ?_⟩⟩
      rw [learn, if_pos himports, ← talliedCounted_fst, hflaw]
      rfl
  · rcases talliedCounted_snd consumes_exportEntry (by decide) s.body with hle | ⟨hle, flaw, hflaw⟩
    · exact .inl hle
    · refine .inr ⟨hle, fun info => ⟨flaw, ?_⟩⟩
      rw [learn, if_neg himports, if_pos hexports, ← talliedCounted_fst, hflaw]
      rfl
  · exact .inl (Nat.le_refl 0)

/-- A section takes two bytes more than its body. -/
lemma length_section (h : nextSection bytes = .ok (s, rest)) :
    s.body.length + 2 + rest.length ≤ bytes.length := by
  obtain ⟨front, ⟨form, -, -⟩, rfl⟩ := nextSection_ok_iff.1 h
  cases form <;> simp <;> omega

/-- Counting changes nothing. -/
lemma talliedWalk_fst (info : ModuleInfo) (bytes : Bytes) :
    (talliedWalk info bytes).1 = walk info bytes := by
  fun_induction talliedWalk info bytes with
  | case1 info => exact (walk_nil info).symm
  | case2 info bytes hne flaw hnext => exact (walk_error info hne hnext).symm
  | case3 info bytes _ s rest hnext _ flaw rounds hlearn =>
    rw [walk_section info hnext, ← talliedLearn_fst, hlearn]
    rfl
  | case4 info bytes _ s rest hnext _ info' rounds hlearn t ih =>
    rw [walk_section info hnext, ← talliedLearn_fst, hlearn]
    exact ih

lemma paid_talliedWalk (info : ModuleInfo) (bytes : Bytes) :
    ∀ e ∈ (talliedWalk info bytes).2, Paid e.1 e.2 := by
  fun_induction talliedWalk info bytes with
  | case1 => exact fun e he => absurd he List.not_mem_nil
  | case2 => exact fun e he => absurd he List.not_mem_nil
  | case3 info bytes _ s rest _ _ flaw rounds hlearn =>
    have hpaid := paid_talliedLearn info s
    rw [hlearn] at hpaid
    exact List.forall_mem_singleton.2 hpaid
  | case4 info bytes _ s rest _ _ info' rounds hlearn t ih =>
    have hpaid := paid_talliedLearn info s
    rw [hlearn] at hpaid
    exact List.forall_mem_cons.2 ⟨hpaid, ih⟩

/-- The sections that are read lie one after another in the bytes. -/
lemma length_talliedWalk (info : ModuleInfo) (bytes : Bytes) :
    ((talliedWalk info bytes).2.map fun e => e.1.body.length + 2).sum ≤ bytes.length := by
  fun_induction talliedWalk info bytes with
  | case1 => exact Nat.zero_le _
  | case2 => exact Nat.zero_le _
  | case3 info bytes _ s rest hnext =>
    have := length_section hnext
    simp only [List.map_cons, List.map_nil, List.sum_cons, List.sum_nil]
    omega
  | case4 info bytes _ s rest hnext _ info' rounds hlearn t ih =>
    have hrest : (t.2.map fun e => e.1.body.length + 2).sum ≤ rest.length := ih
    have := length_section hnext
    simp only [List.map_cons, List.sum_cons]
    omega

/-! ## Whole files -/

/-- **Truncated files are recognised, and no file keeps `inspect` busy.**

A beginning of an accepted file is refused, unless it ends after the header or after a section; then
just what is in its sections is found.

Of any bytes whatever, the sections that are read lie one after another in them, and in each no more
imports are begun than four bytes of it allow for each, and no more exports than three bytes, but for
one that fails. -/
theorem inspect_truncated_and_tallied (file : Bytes) :
    (∀ part found, inspect file = .ok found → part <+: file →
      (∀ done, EndsAfter file done part →
        ∃ found', done.foldlM learn .empty = .ok found' ∧ inspect part = .ok found') ∧
      ((∀ done, ¬EndsAfter file done part) → ∃ flaw, inspect part = .error flaw)) ∧
    (talliedInspect file).1 = inspect file ∧
    (∀ e ∈ (talliedInspect file).2, Paid e.1 e.2) ∧
    ((talliedInspect file).2.map fun e => e.1.body.length + 2).sum ≤ file.length := by
  refine ⟨fun part found h hpart => inspect_of_prefix h hpart, ?_⟩
  rw [talliedInspect, inspect]
  cases hafter : afterHeader file with
  | error flaw => exact ⟨rfl, fun e he => absurd he List.not_mem_nil, Nat.zero_le _⟩
  | ok bytes =>
    obtain rfl := afterHeader_ok_iff.1 hafter
    refine ⟨talliedWalk_fst _ bytes, paid_talliedWalk _ bytes, ?_⟩
    exact Nat.le_trans (length_talliedWalk _ bytes) (by simp)

/-- A file of two sections, cut after the first one and inside the header. -/
theorem inspect_truncated_and_tallied_two :
    let file := header ++ ([0, 0] ++ ([5, 1, 9] ++ []))
    inspect file = .ok .empty ∧ inspect (header ++ [0, 0]) = .ok .empty ∧
      ∃ flaw, inspect [0x00, 0x61] = .error flaw := by
  intro file
  have hfirst : IsSection ⟨0, []⟩ [0, 0] :=
    .intro (s := ⟨0, []⟩) (.last (by decide : 0 < 128)) (by decide) rfl
  have hsecond : IsSection ⟨5, [9]⟩ [5, 1, 9] :=
    .intro (s := ⟨5, [9]⟩) (.last (by decide : 1 < 128)) (by decide) rfl
  have hfile : inspect file = .ok .empty :=
    inspect_ok_iff.2 ⟨_, _, rfl, .cons hfirst (.cons hsecond .nil), rfl⟩
  obtain ⟨hparts, -⟩ := inspect_truncated_and_tallied file
  obtain ⟨hends, -⟩ := hparts (header ++ [0, 0]) _ hfile ⟨[5, 1, 9], rfl⟩
  obtain ⟨found, hfound, hpart⟩ :=
    hends [⟨0, []⟩] ⟨_, [0, 0], _, rfl, rfl, .cons hfirst .nil, .cons hsecond .nil⟩
  cases hfound
  obtain ⟨-, hcut⟩ := hparts [0x00, 0x61] _ hfile (by decide)
  refine ⟨hfile, hpart, hcut ?_⟩
  rintro done ⟨left, x, y, hx, -⟩
  have hlen := congrArg List.length hx
  simp [header, magic, version] at hlen

end GuestShell.ModuleFile
