import GuestShell.Proofs.FileTree.Limits
import GuestShell.Proofs.Sandbox.Outputs

/-!
# What the results of calls say

A function of the smaller interface ends with a number, and its guest gets a word.  `Done` says what
a function has done when it ends with a number: how many bytes were moved and where they are, which
descriptor is new, where the file stands.  `Answers` says how the word tells of it, and the words of
an interface are told by it exactly (`call_answers`).

An error code is told as a negative number, in either width.  A number is told as it is, unless the
function has words of 32 bits and the number is 2³¹ or more.  Then it is cut, and a function that has
moved that many bytes looks as if it had failed (`long_write_looks_failed`).
-/

namespace GuestShell

open FileTree (Action)

/-! ## Words as numbers -/

namespace Value

/-- The number that a word is, read with its sign. -/
def toInt : Value → Int
  | i32 v => v.toInt
  | i64 v => v.toInt

/-- A word is known by its width and its number. -/
lemma eq_of_toInt {v w : Value} (hkind : v.kind = w.kind) (h : v.toInt = w.toInt) : v = w := by
  cases v <;> cases w
  · exact congrArg i32 (Int32.toInt_inj.1 h)
  · cases hkind
  · cases hkind
  · exact congrArg i64 (Int64.toInt_inj.1 h)

end Value

/-! ## Runs that succeed -/

namespace System

variable {ε δ α β : Type} {p q : Process δ} {log : Log} {f : α → System ε δ β} {w : β}

lemma exists_of_ran_bind_ok {a : System ε δ α} (h : Ran (a >>= f) p log (.ok w) q) :
    ∃ v u before after, log = before ++ after ∧ Ran a p before (.ok v) u ∧
      Ran (f v) u after (.ok w) q := by
  rcases ran_bind_iff.1 h with ⟨_, hr, -⟩ | hgo
  · cases hr
  · exact hgo

lemma eq_of_ran_pure_ok {v : β} (h : Ran (pure v : System ε δ β) p log (.ok w) q) :
    log = [] ∧ w = v ∧ q = p := by
  obtain ⟨hlog, hr, hq⟩ := ran_pure_iff.1 h
  exact ⟨hlog, Except.ok.inj hr, hq⟩

/-- Nothing comes after a failure. -/
lemma not_ran_fail_bind_ok {e : ε} : ¬Ran ((fail e : System ε δ α) >>= f) p log (.ok w) q := by
  intro h
  obtain ⟨_, _, _, _, -, hfail, -⟩ := exists_of_ran_bind_ok h
  cases (ran_throw_iff.1 hfail).2.1

lemma exists_of_ran_ask_bind_ok {o : Run.Request} {f : Run.Answer o → System ε δ β}
    (h : Ran (ask o >>= f) p log (.ok w) q) :
    ∃ a after, log = ⟨o, a⟩ :: after ∧ Ran (f a) p after (.ok w) q := by
  obtain ⟨a, u, _, after, rfl, hask, hrest⟩ := exists_of_ran_bind_ok h
  obtain ⟨_, rfl, hr, rfl⟩ := ran_ask_iff.1 hask
  cases hr
  exact ⟨a, after, rfl, hrest⟩

variable [ErrorCode ε]

lemma exists_of_ran_reading_bind_ok {a : Memory → Except EngineError α}
    (h : Ran (reading a >>= f) p log (.ok w) q) :
    ∃ v, a p.memory = .ok v ∧ Ran (f v) p log (.ok w) q := by
  rcases (looks_reading a).ran_bind h with ⟨_, hr, -⟩ | ⟨v, hread, hrest⟩
  · cases hr
  · rcases (ran_reading_iff.1 hread).2.2 with ⟨_, hok, hr⟩ | ⟨_, -, hr⟩
    · cases hr
      exact ⟨v, hok, hrest⟩
    · cases hr

/-- What was put into memory lies there. -/
lemma exists_of_ran_write_bind_ok {address : Nat} {bytes : Bytes} {f : Unit → System ε δ β}
    (h : Ran (write address bytes >>= f) p log (.ok w) q) :
    ∃ m, Memory.Holds m address bytes ∧ Ran (f ()) { p with memory := m } log (.ok w) q := by
  obtain ⟨_, u, _, _, rfl, hwrite, hrest⟩ := exists_of_ran_bind_ok h
  obtain ⟨rfl, ⟨m, hstored, -, rfl⟩ | ⟨_, -, hr, -⟩⟩ := ran_writing_iff.1 hwrite
  · exact ⟨m, Memory.holds_write hstored, hrest⟩
  · cases hr

lemma exists_of_ran_onTree_bind_ok {a : Action α} (h : Ran (onTree a >>= f) p log (.ok w) q) :
    ∃ v t, a p.tree = .ok v t ∧ Ran (f v) { p with tree := t } log (.ok w) q := by
  obtain ⟨v, u, _, _, rfl, htree, hrest⟩ := exists_of_ran_bind_ok h
  obtain ⟨rfl, ⟨_, t, hok, hr, rfl⟩ | ⟨_, _, -, hr, -⟩⟩ := ran_onTree_iff.1 htree
  · cases hr
    exact ⟨v, t, hok, hrest⟩
  · cases hr

lemma exists_of_ran_onTreeNow_bind_ok {a : Moment → Action α}
    (h : Ran (onTreeNow a >>= f) p log (.ok w) q) :
    ∃ now v t after, a now p.tree = .ok v t ∧ Ran (f v) { p with tree := t } after (.ok w) q := by
  rw [onTreeNow, bind_assoc] at h
  obtain ⟨now, after, -, hrest⟩ := exists_of_ran_ask_bind_ok h
  obtain ⟨v, t, hok, hgo⟩ := exists_of_ran_onTree_bind_ok hrest
  exact ⟨now, v, t, after, hok, hgo⟩

end System

open GuestShell.System FileTree

namespace Posix

variable {g q : Guest} {log : Log} {n : Nat}

/-! ## What a function has done -/

/-- The descriptor has a handle, the handle an open file, and this is what the file contains. -/
structure StandsFor (fd : Int) (handle : Nat) (f : OpenFile) (data : Bytes) (g : Guest) : Prop where
  descriptor : ∃ k : Nat, fd = k + firstFile ∧ g.descriptors.get? k = some handle
  file : g.tree.opened.get? handle = some f
  contents : ∃ m, g.tree.node? f.path = some (.file data m)

/-- The bytes are what a descriptor had to give, and they are taken from it: from the input, or from
where a file stands. -/
def Gave (fd : Int) (size : Nat) (bytes : Bytes) (g : Guest) (log : Log) (q : Guest) : Prop :=
  fd = 0 ∧ Task.Runs (g.stdin.read size) log (.ok bytes, q.stdin) ∨
    ∃ handle f data, StandsFor fd handle f data g ∧ bytes = (data.drop f.position).take size ∧
      q.tree = g.tree.withPosition handle (f.position + bytes.length)

/-- The bytes went, all of them, where the descriptor leads. -/
def Took (fd : Int) (bytes : Bytes) (g : Guest) (log : Log) (q : Guest) : Prop :=
  fd = 1 ∧ log = [⟨.stdout bytes, ()⟩] ∨ fd = 2 ∧ log = [⟨.stderr bytes, ()⟩] ∨
    ∃ handle f data position now, StandsFor fd handle f data g ∧
      position = (if f.append then data.length else f.position) ∧
      q.tree = (g.tree.withNode f.path (.file (overwritten data position bytes) now)).withPosition
        handle (position + bytes.length)

/-- The number counts the bytes, and they lie at the address. -/
def Stored (address : Nat) (bytes : Bytes) (n : Nat) (q : Guest) : Prop :=
  n = bytes.length ∧ q.memory.Holds address bytes

/-- What a function has done when it ends with a number. -/
def Done (c : PosixCall) (args : List Value) (g : Guest) (log : Log) (n : Nat) (q : Guest) : Prop :=
  let int (k : Nat) : Int := (argument args k).narrow.toInt
  let nat (k : Nat) : Nat := (argument args k).address
  match c with
  | .read => ∃ bytes, Gave (int 0) (nat 2) bytes g log q ∧ Stored (nat 1) bytes n q
  | .write => n = nat 2 ∧ Took (int 0) (g.memory.area (nat 1) (nat 2)) g log q
  | .open_ => Turns .open_ args (.ok n) g q
  | .close => n = 0 ∧ Turns .close args (.ok n) g q
  | .seek => ∃ handle f data o, StandsFor (int 0) handle f data g ∧
      Ran (origin (int 2) (argument args 1).wide.toInt) g [] (.ok o) g ∧
      Origin.position? data.length f.position o = some n ∧ q.tree = g.tree.withPosition handle n
  | .getenv => ∃ name, g.memory.readText (nat 0) (nat 1) = .ok name ∧
      match g.environment.find? fun e => e.1 == name with
      | some (_, value) => Stored (nat 2) ((Text.encode value).take (nat 3)) n q
      | none => n = 0
  | .getcwd => (Text.encode workingDirectory.text).length ≤ nat 1 ∧
      Stored (nat 0) (Text.encode workingDirectory.text) n q
  | .readdir => ∃ text names, g.memory.readText (nat 0) (nat 1) = .ok text ∧
      FileTree.list (workingDirectory.resolve text) g.tree = .ok names g.tree ∧
      Stored (nat 2) (listing (nat 3) names) n q
  | .stat | .mkdir | .rmdir | .unlink | .rename => n = 0
  | .exit => False

/-! ## The functions -/

lemma standsFor_of_get? {k handle : Nat} {f : OpenFile} {data : Bytes} {m : Moment}
    (hk : g.descriptors.get? k = some handle) (hf : g.tree.opened.get? handle = some f)
    (hn : g.tree.node? f.path = some (.file data m)) :
    StandsFor (k + firstFile) handle f data g :=
  ⟨⟨k, rfl, hk⟩, hf, m, hn⟩

/-- What follows an open descriptor works on its handle. -/
lemma ran_handle_bind_ok {fd v : Int} {f : Nat → Sys Int} (h : Ran (handle fd >>= f) g log (.ok v) q) :
    ∃ k i : Nat, fd = k + firstFile ∧ g.descriptors.get? k = some i ∧
      Ran (f i) g log (.ok v) q := by
  rcases ran_handle_bind h with ⟨_, hr, -⟩ | hgo
  · cases hr
  · exact hgo

lemma done_read {fd v : Int} {address size : Nat} (h : Ran (read fd address size) g log (.ok v) q) :
    ∃ bytes, Gave fd size bytes g log q ∧ v = bytes.length ∧ q.memory.Holds address bytes := by
  obtain ⟨_, -, hrest⟩ := exists_of_ran_reading_bind_ok h
  -- the bytes are stored in the end, whatever gave them
  have stored {bytes : Bytes} {u : Guest} {after : Log}
      (hend : Ran (do
        System.write address bytes
        return (bytes.length : Int) : Sys Int) u after (.ok v) q) :
      after = [] ∧ v = bytes.length ∧ q.memory.Holds address bytes ∧ q.stdin = u.stdin ∧
        q.tree = u.tree := by
    obtain ⟨m, hholds, hlast⟩ := exists_of_ran_write_bind_ok hend
    obtain ⟨rfl, rfl, rfl⟩ := eq_of_ran_pure_ok hlast
    exact ⟨rfl, rfl, hholds, rfl, rfl⟩
  split_ifs at hrest with h0 h12
  · obtain ⟨bytes, u, before, _, rfl, hinput, hend⟩ := exists_of_ran_bind_ok hrest
    obtain ⟨rfl, hv, hholds, hstdin, -⟩ := stored hend
    refine ⟨bytes, .inl ⟨h0, ?_⟩, hv, hholds⟩
    obtain ⟨⟨chunk | chunk, s⟩, log₁, log₂, hlog, hread, hlast⟩ := Task.runs_bind_iff.1 hinput
    · cases (Task.runs_done_pair_iff.1 hlast).2.1
    · obtain ⟨rfl, hr, rfl⟩ := Task.runs_done_pair_iff.1 hlast
      cases hr
      rw [hstdin, List.append_nil, hlog, List.append_nil]
      exact hread
  · exact absurd hrest not_ran_fail_bind_ok
  · obtain ⟨k, i, rfl, hk, hopen⟩ := ran_handle_bind_ok hrest
    obtain ⟨bytes, t, hok, hend⟩ := exists_of_ran_onTree_bind_ok hopen
    obtain ⟨-, hv, hholds, -, htree⟩ := stored hend
    rcases read_cases i size g.tree with ⟨_, herror⟩ | ⟨f, data, m, hf, hn, hread⟩
    · cases herror.symm.trans hok
    · cases hread.symm.trans hok
      exact ⟨_, .inr ⟨i, f, data, standsFor_of_get? hk hf hn, rfl, htree⟩, hv, hholds⟩

lemma done_write {fd v : Int} {address size : Nat} (h : Ran (write fd address size) g log (.ok v) q) :
    v = size ∧ Took fd (g.memory.area address size) g log q := by
  obtain ⟨bytes, hread, hrest⟩ := exists_of_ran_reading_bind_ok h
  rw [Memory.read] at hread
  split_ifs at hread
  cases hread
  have hlength := Memory.length_area g.memory address size
  split_ifs at hrest with h1 h2 h0
  · obtain ⟨_, _, rfl, hend⟩ := exists_of_ran_ask_bind_ok hrest
    obtain ⟨rfl, rfl, rfl⟩ := eq_of_ran_pure_ok hend
    exact ⟨by rw [hlength], .inl ⟨h1, rfl⟩⟩
  · obtain ⟨_, _, rfl, hend⟩ := exists_of_ran_ask_bind_ok hrest
    obtain ⟨rfl, rfl, rfl⟩ := eq_of_ran_pure_ok hend
    exact ⟨by rw [hlength], .inr (.inl ⟨h2, rfl⟩)⟩
  · exact absurd hrest not_ran_fail_bind_ok
  · obtain ⟨k, i, rfl, hk, hopen⟩ := ran_handle_bind_ok hrest
    obtain ⟨now, _, t, _, hok, hend⟩ := exists_of_ran_onTreeNow_bind_ok hopen
    obtain ⟨-, rfl, rfl⟩ := eq_of_ran_pure_ok hend
    rcases write_cases now i (g.memory.area address size) g.tree with
      ⟨_, herror⟩ | ⟨f, data, m, position, hf, hn, hposition, -, hrun⟩
    · cases herror.symm.trans hok
    · cases hrun.symm.trans hok
      exact ⟨by rw [hlength], .inr (.inr ⟨i, f, data, position, now, standsFor_of_get? hk hf hn,
        hposition, rfl⟩)⟩

lemma done_seek {fd offset whence v : Int} (h : Ran (seek fd offset whence) g log (.ok v) q) :
    ∃ n : Nat, v = n ∧ ∃ handle f data o, StandsFor fd handle f data g ∧
      Ran (origin whence offset) g [] (.ok o) g ∧
      Origin.position? data.length f.position o = some n ∧
      q.tree = g.tree.withPosition handle n := by
  obtain ⟨k, i, rfl, hk, hopen⟩ := ran_handle_bind_ok h
  have horigin : Looks (origin whence offset) :=
    looks_ite (looks_pure _) (looks_ite (looks_pure _) (looks_ite (looks_pure _) (looks_fail _)))
  rcases horigin.ran_bind hopen with ⟨_, hr, -⟩ | ⟨o, ho, hrest⟩
  · cases hr
  obtain ⟨n, t, hok, hend⟩ := exists_of_ran_onTree_bind_ok hrest
  obtain ⟨-, rfl, rfl⟩ := eq_of_ran_pure_ok hend
  rcases seek_cases i o g.tree with ⟨_, herror⟩ | ⟨f, data, m, p, hf, hn, hp, hrun⟩
  · cases herror.symm.trans hok
  · cases hrun.symm.trans hok
    exact ⟨n, rfl, i, f, data, o, standsFor_of_get? hk hf hn, ho, hp, rfl⟩

lemma done_copyOut {address room : Nat} {bytes : Bytes} {v : Int}
    (h : Ran (copyOut address room bytes) g log (.ok v) q) :
    ∃ n : Nat, v = n ∧ Stored address (bytes.take room) n q := by
  obtain ⟨m, hholds, hend⟩ := exists_of_ran_write_bind_ok h
  obtain ⟨-, rfl, rfl⟩ := eq_of_ran_pure_ok hend
  exact ⟨_, rfl, rfl, hholds⟩

lemma done_change {a : Moment → Action Unit} {v : Int} (h : Ran (change a) g log (.ok v) q) :
    v = 0 := by
  obtain ⟨_, _, _, _, -, hend⟩ := exists_of_ran_onTreeNow_bind_ok h
  exact (eq_of_ran_pure_ok hend).2.1

lemma ran_path_bind_ok {address size : Nat} {f : Path → Sys Int} {v : Int}
    (h : Ran (path address size >>= f) g log (.ok v) q) :
    ∃ text, g.memory.readText address size = .ok text ∧
      Ran (f (workingDirectory.resolve text)) g log (.ok v) q := by
  rw [path, bind_assoc] at h
  obtain ⟨text, htext, hrest⟩ := exists_of_ran_reading_bind_ok h
  exact ⟨text, htext, hrest⟩

lemma done_getenv {args : List Value} {v : Int} (h : Ran (perform .getenv args) g log (.ok v) q) :
    ∃ n : Nat, v = n ∧ Done .getenv args g log n q := by
  obtain ⟨name, hname, hrest⟩ := exists_of_ran_reading_bind_ok h
  rw [getenv, ran_process_bind_iff] at hrest
  cases hfind : g.environment.find? fun e => e.1 == name with
  | some e =>
    rw [hfind] at hrest
    obtain ⟨n, hv, hstored⟩ := done_copyOut hrest
    refine ⟨n, hv, name, hname, ?_⟩
    rw [hfind]
    exact hstored
  | none =>
    rw [hfind] at hrest
    obtain ⟨-, rfl, -⟩ := eq_of_ran_pure_ok hrest
    refine ⟨0, rfl, name, hname, ?_⟩
    rw [hfind]

lemma done_getcwd {args : List Value} {v : Int} (h : Ran (perform .getcwd args) g log (.ok v) q) :
    ∃ n : Nat, v = n ∧ Done .getcwd args g log n q := by
  rw [perform, getcwd] at h
  split_ifs at h with hroom
  · exact absurd h not_ran_fail_bind_ok
  · obtain ⟨n, hv, hstored⟩ := done_copyOut h
    rw [List.take_of_length_le (Nat.not_lt.1 hroom)] at hstored
    exact ⟨n, hv, Nat.not_lt.1 hroom, hstored⟩

lemma done_readdir {args : List Value} {v : Int} (h : Ran (perform .readdir args) g log (.ok v) q) :
    ∃ n : Nat, v = n ∧ Done .readdir args g log n q := by
  obtain ⟨text, htext, hrest⟩ := ran_path_bind_ok h
  obtain ⟨names, t, hok, hwrite⟩ := exists_of_ran_onTree_bind_ok hrest
  have hlooks := looks_list (workingDirectory.resolve text) g.tree
  rw [after_ok hok] at hlooks
  obtain ⟨m, hholds, hend⟩ := exists_of_ran_write_bind_ok hwrite
  obtain ⟨-, rfl, rfl⟩ := eq_of_ran_pure_ok hend
  exact ⟨_, rfl, text, names, htext, hlooks ▸ hok, rfl, hholds⟩

/-- **A function that ends with a number has done what the number says.**  In particular the number is
not negative. -/
theorem done_perform (hm : Matched some g.tree g.descriptors) {c : PosixCall} {args : List Value}
    {v : Int} (h : Ran (perform c args) g log (.ok v) q) :
    ∃ n : Nat, v = n ∧ Done c args g log n q := by
  have hturns := (turns_perform hm h).2
  cases c with
  | read =>
    obtain ⟨bytes, hgave, hv, hholds⟩ := done_read h
    exact ⟨_, hv, bytes, hgave, rfl, hholds⟩
  | write =>
    obtain ⟨hv, htook⟩ := done_write h
    exact ⟨_, hv, rfl, htook⟩
  | open_ =>
    obtain ⟨k, hv, hopened⟩ := hturns
    exact ⟨k + firstFile, hv, k, rfl, hopened⟩
  | close =>
    rcases ran_close hm h with ⟨_, hr, -⟩ | ⟨-, -, hr, -⟩ | ⟨_, _, -, -, hr, -⟩
    · cases hr
    · cases hr
      exact ⟨0, rfl, rfl, hturns⟩
    · cases hr
      exact ⟨0, rfl, rfl, hturns⟩
  | seek => exact done_seek h
  | exit =>
    cases (ran_throw_iff.1 h).2.1
  | getenv => exact done_getenv h
  | getcwd => exact done_getcwd h
  | stat =>
    obtain ⟨_, -, hrest⟩ := ran_path_bind_ok h
    obtain ⟨_, _, -, hwrite⟩ := exists_of_ran_onTree_bind_ok hrest
    obtain ⟨_, -, hend⟩ := exists_of_ran_write_bind_ok hwrite
    obtain ⟨-, rfl, -⟩ := eq_of_ran_pure_ok hend
    exact ⟨0, rfl, rfl⟩
  | readdir => exact done_readdir h
  | mkdir | rmdir | unlink =>
    obtain ⟨_, -, hrest⟩ := ran_path_bind_ok h
    exact ⟨0, done_change hrest, rfl⟩
  | rename =>
    obtain ⟨_, -, hrest⟩ := ran_path_bind_ok h
    obtain ⟨_, -, hchange⟩ := ran_path_bind_ok hrest
    exact ⟨0, done_change hchange, rfl⟩

/-! ## The words -/

/-- Unless it opens a file or moves in one, a function ends with a number of 32 bits. -/
lemma Done.lt {c : PosixCall} {args : List Value} (h : Done c args g log n q) (hopen : c ≠ .open_)
    (hseek : c ≠ .seek) : n < UInt32.size := by
  have below {k : Nat} (hn : n ≤ (argument args k).address) : n < UInt32.size :=
    hn.trans_lt (Value.address_lt _)
  have zero (hn : n = 0) : n < UInt32.size := hn ▸ by decide
  cases c with
  | read =>
    obtain ⟨bytes, ⟨-, hread⟩ | ⟨_, f, data, -, rfl, -⟩, rfl, -⟩ := h
    · exact below (Task.always_iff_runs.1 (always_read_length _ _) _ _ hread bytes rfl)
    · exact below (List.length_take_le _ _)
  | write => exact below h.1.le
  | open_ => exact absurd rfl hopen
  | close => exact zero h.1
  | seek => exact absurd rfl hseek
  | exit => exact h.elim
  | getenv =>
    obtain ⟨name, -, hstored⟩ := h
    split at hstored
    · exact below (hstored.1.le.trans (List.length_take_le _ _))
    · exact zero hstored
  | getcwd => exact below (h.2.1.le.trans h.1)
  | readdir =>
    obtain ⟨_, names, -, -, rfl, -⟩ := h
    exact below (length_listing_le names _)
  | stat | mkdir | rmdir | unlink | rename => exact zero h

lemma Done.le_maxLength {args : List Value} (h : Done .seek args g log n q) : n ≤ maxLength := by
  obtain ⟨_, _, _, _, -, -, hp, -⟩ := h
  exact Origin.position?_le hp

lemma Done.ne_exit {c : PosixCall} {args : List Value} (h : Done c args g log n q) : c ≠ .exit := by
  rintro rfl
  exact h

lemma resultWord_narrow {c : PosixCall} (hc : c ≠ .seek) (v : Int) :
    resultWord c v = .i32 (Int32.ofInt v) := by
  cases c <;> first | rfl | exact absurd rfl hc

lemma kind_resultWord {c : PosixCall} (hc : c ≠ .exit) (v : Int) :
    c.signature.result = some (resultWord c v).kind := by
  cases c <;> first | rfl | exact absurd rfl hc

/-- A word of the width that a function has is told by its number. -/
lemma resultWord_toInt {c : PosixCall} {w : Value} (hkind : c.signature.result = some w.kind) :
    resultWord c w.toInt = w := by
  cases w with
  | i32 v =>
    have hc : c ≠ .seek := by
      rintro rfl
      cases hkind
    rw [resultWord_narrow hc]
    exact congrArg Value.i32 (Int32.ofInt_toInt v)
  | i64 v =>
    have hc : c.signature.result = some .i64 := hkind
    rw [resultWord, if_pos hc]
    exact congrArg Value.i64 (Int64.ofInt_toInt v)

lemma narrow_bounds : Int32.minValue.toInt = -2147483648 ∧ Int32.maxValue.toInt = 2147483647 ∧
    (Int32.size : Int) = 4294967296 :=
  ⟨rfl, rfl, rfl⟩

/-- What fits into the narrow width is told as it is. -/
lemma toInt_resultWord (c : PosixCall) {v : Int} (hlow : Int32.minValue.toInt ≤ v)
    (hhigh : v ≤ Int32.maxValue.toInt) : (resultWord c v).toInt = v := by
  obtain ⟨hmin, hmax, -⟩ := narrow_bounds
  by_cases hc : c = .seek
  · subst hc
    exact Int64.toInt_ofInt_of_le (by omega) (by omega)
  · rw [resultWord_narrow hc]
    exact Int32.toInt_ofInt_of_le (by omega) (by omega)

lemma toInt_resultWord_narrow {c : PosixCall} (hc : c ≠ .seek) (v : Int) :
    (resultWord c v).toInt = v.bmod Int32.size := by
  rw [resultWord_narrow hc]
  exact Int32.toInt_ofInt

/-- Every error code is negative, and fits. -/
lemma code_bounds (e : PosixError) : -11 ≤ e.code.toInt ∧ e.code.toInt ≤ -2 := by
  cases e <;> decide

/-- How the outcome of a function is told to the guest.  The last case is a flaw: the number is cut,
and unless it is that of a descriptor the guest takes it for an error code. -/
inductive Answers (c : PosixCall) (args : List Value) (g : Guest) (log : Log) (q : Guest) :
    Except (Failure PosixError) Int → Except HostStop (Option Value) → Prop
  | stopped (s : HostStop) : Answers c args g log q (.error (.stop s)) (.error s)
  | failed (e : PosixError) (w : Value) (hkind : c.signature.result = some w.kind)
      (hword : w.toInt = e.code.toInt) (hneg : w.toInt < 0) :
      Answers c args g log q (.error (.code e)) (.ok (some w))
  | exact (n : Nat) (w : Value) (hkind : c.signature.result = some w.kind)
      (hdone : Done c args g log n q) (hword : w.toInt = n) :
      Answers c args g log q (.ok n) (.ok (some w))
  | cut (n : Nat) (w : Value) (hkind : c.signature.result = some w.kind)
      (hnarrow : w.kind = .i32) (hdone : Done c args g log n q) (hlong : Int32.maxValue.toInt < n)
      (hword : w.toInt = (n : Int).bmod Int32.size) (hneg : c ≠ .open_ → w.toInt < 0) :
      Answers c args g log q (.ok n) (.ok (some w))

/-- What the outcome of a function becomes for the guest. -/
def told (c : PosixCall) : Except (Failure PosixError) Int → Except HostStop (Option Value)
  | .ok v => .ok (some (resultWord c v))
  | .error (.code e) => .ok (some (resultWord c e.code.toInt))
  | .error (.stop s) => .error s

lemma runs_call_iff {index : Nat} {c : PosixCall} (hc : PosixCall.all[index]? = some c)
    {args : List Value} {a : Except HostStop (Option Value)} :
    Task.Runs (call index args g) log (a, q) ↔
      ∃ r, Ran (perform c args) g log r q ∧ a = told c r := by
  simp only [call, hc]
  rw [Task.runs_bind_iff]
  constructor
  · rintro ⟨⟨r, u⟩, before, after, rfl, hrun, hend⟩
    refine ⟨r, ?_⟩
    obtain (e | s) | v := r
    all_goals
      obtain ⟨rfl, ha, rfl⟩ := Task.runs_done_pair_iff.1 hend
      rw [List.append_nil]
      exact ⟨hrun, ha⟩
  · rintro ⟨r, hrun, rfl⟩
    refine ⟨(r, q), log, [], (List.append_nil log).symm, hrun, ?_⟩
    obtain (e | s) | v := r
    all_goals exact .done _

/-- A number that the function is done with is told as it is, or cut. -/
lemma Done.answers {c : PosixCall} {args : List Value} (h : Done c args g log n q) :
    Answers c args g log q (.ok n) (.ok (some (resultWord c n))) := by
  have hkind := kind_resultWord h.ne_exit n
  by_cases hseek : c = .seek
  · subst hseek
    have hle := h.le_maxLength
    have hmax : maxLength < 2 ^ 63 := by decide
    exact .exact n _ hkind h (Int64.toInt_ofInt_of_le (by omega) (by omega))
  obtain ⟨hmin, hmax, hsize⟩ := narrow_bounds
  by_cases hlong : Int32.maxValue.toInt < n
  · have hnarrow : (resultWord c n).kind = .i32 := by
      rw [resultWord_narrow hseek]
      rfl
    have hword := toInt_resultWord_narrow hseek n
    refine .cut n _ hkind hnarrow h hlong hword fun hopen => ?_
    have hlt : n < 4294967296 := h.lt hopen hseek
    rw [hword, Int.bmod_def, hsize, Int.emod_eq_of_lt (by omega) (by omega), if_neg (by omega)]
    omega
  · exact .exact n _ hkind h (toInt_resultWord c (by omega) (by omega))

/-- **What the word that a guest gets says of its call**, wherever the run has come to, whatever the
arguments and the memory are.  A call that fails with a code is told by this code, which is negative.
A call that succeeds has done what its number says, and the number is told as it is, except that a
number of 2³¹ or more is cut where words have 32 bits. -/
theorem call_answers {now : Moment} {i : Invocation} (hg : Course now i g) {index : Nat}
    {c : PosixCall} (hc : PosixCall.all[index]? = some c) (args : List Value) (m : Memory)
    (a : Except HostStop (Option Value)) (log : Log) (q : Guest) :
    let g' := { g with memory := m }
    Task.Runs (call index args g') log (a, q) ↔
      ∃ r, Ran (perform c args) g' log r q ∧ Answers c args g' log q r a := by
  intro g'
  have hm : Matched some g.tree g.descriptors := matched_of_course hg
  rw [runs_call_iff hc]
  refine exists_congr fun r => and_congr_right fun hrun => ?_
  constructor
  · rintro rfl
    obtain (e | s) | v := r
    · have hexit : c ≠ .exit := by
        rintro rfl
        exact sure_stop _ _ _ _ hrun
      have hbounds := code_bounds e
      obtain ⟨hmin, hmax, -⟩ := narrow_bounds
      have hword : (resultWord c e.code.toInt).toInt = e.code.toInt :=
        toInt_resultWord c (by omega) (by omega)
      exact .failed e _ (kind_resultWord hexit _) hword (by omega)
    · exact .stopped s
    · obtain ⟨n, rfl, hdone⟩ := done_perform (g := g') hm hrun
      exact hdone.answers
  · rintro (s | ⟨e, w, hkind, hword, -⟩ | ⟨n, w, hkind, -, hword⟩ |
      ⟨n, w, hkind, hnarrow, hdone, -, hword, -⟩)
    · rfl
    · rw [told, ← hword, resultWord_toInt hkind]
    · rw [told, ← hword, resultWord_toInt hkind]
    · have hseek : c ≠ .seek := by
        rintro rfl
        rw [hnarrow] at hkind
        cases hkind
      have hsame := hkind.symm.trans (kind_resultWord hdone.ne_exit n)
      have hw : w = resultWord c n := Value.eq_of_toInt (Option.some.inj hsame)
        (hword.trans (toInt_resultWord_narrow hseek n).symm)
      rw [told, hw]

/-- Two bytes are read from the file, and writing to it fails: it was opened for reading only. -/
theorem call_answers_one_file :
    let g : Guest := { reader with memory := .ofList [97, 98, 99] }
    Course 7 oneFile reader ∧
      (∃ log q, Done .read [.i32 3, .i32 1, .i32 2] g log 2 q ∧
        Task.Runs (call 0 [.i32 3, .i32 1, .i32 2] g) log (.ok (some (.i32 2)), q)) ∧
      ∃ log q, Ran (perform .write [.i32 3, .i32 0, .i32 1]) g log
        (.error (.code .permissionDenied)) q ∧
        Task.Runs (call 1 [.i32 3, .i32 0, .i32 1] g) log (.ok (some (.i32 (-3))), q) := by
  intro g
  have hcourse : Course 7 oneFile reader := Runnable.Course.start.next _
  have hm : Matched some reader.tree reader.descriptors := matched_of_course hcourse
  have hread : Ran (perform .read [.i32 3, .i32 1, .i32 2]) g _ (.ok 2) _ :=
    ran_trace (fun _ => Runnable.stillness) _ _
  have hwrite : Ran (perform .write [.i32 3, .i32 0, .i32 1]) g _
      (.error (.code .permissionDenied)) _ := ran_trace (fun _ => Runnable.stillness) _ _
  obtain ⟨n, hn, hdone⟩ := done_perform (g := g) hm hread
  obtain rfl : 2 = n := Int.ofNat_inj.1 hn
  refine ⟨hcourse, ⟨_, _, hdone, ?_⟩, _, _, hwrite, ?_⟩
  · exact (call_answers hcourse rfl _ _ _ _ _).2 ⟨_, hread, .exact 2 _ rfl hdone rfl⟩
  · exact (call_answers hcourse rfl _ _ _ _ _).2
      ⟨_, hwrite, .failed .permissionDenied _ rfl (by decide) (by decide)⟩

/-- What lies in memory can be written to the output. -/
lemma ran_write_output {address size : Nat} (h : address + size ≤ g.memory.size) :
    Ran (write 1 address size) g [⟨.stdout (g.memory.area address size), ()⟩] (.ok size) g := by
  have hread : Ran (reading (·.read address size) : Sys Bytes) g []
      (.ok (g.memory.area address size)) g :=
    ran_reading_iff.2 ⟨rfl, rfl, .inl ⟨_, by rw [Memory.read, if_pos h], rfl⟩⟩
  have hask : Ran (ask (.stdout (g.memory.area address size)) : Sys Unit) g
      [⟨.stdout (g.memory.area address size), ()⟩] (.ok ()) g := ran_ask_iff.2 ⟨(), rfl, rfl, rfl⟩
  have hend : Ran (pure ((g.memory.area address size).length : Int) : Sys Int) g [] (.ok size) g := by
    rw [Memory.length_area]
    exact ran_pure_iff.2 ⟨rfl, rfl, rfl⟩
  refine ran_bind_iff.2 (.inr ⟨_, g, [], _, rfl, hread, ?_⟩)
  rw [if_pos rfl]
  exact ran_bind_iff.2 (.inr ⟨(), g, _, [], rfl, hask, hend⟩)

/-- **A write that succeeds can look as if it had failed.**  In a memory of 2 GiB all of it can be
written to the output, and the guest gets the least number of all. -/
theorem long_write_looks_failed :
    let g : Guest := { Guest.start 7 oneFile with memory := .zeros 32768 }
    let args : List Value := [.i32 1, .i32 0, .i32 (-2147483648)]
    Course 7 oneFile (Guest.start 7 oneFile) ∧ g.memory.size ≤ UInt32.size ∧
      ∃ log, Ran (perform .write args) g log (.ok 2147483648) g ∧
        Task.Runs (call 1 args g) log (.ok (some (.i32 (-2147483648))), g) := by
  intro g args
  have hsize : g.memory.size = 2147483648 := rfl
  have hwrite : Ran (write 1 0 2147483648) g _ (.ok (2147483648 : Nat)) g :=
    ran_write_output (by rw [hsize])
  have hrun : Ran (perform .write args) g _ (.ok 2147483648) g := hwrite
  exact ⟨.start, by rw [hsize]; decide, _, hrun, (runs_call_iff rfl).2 ⟨_, hrun, rfl⟩⟩

end Posix

end GuestShell
