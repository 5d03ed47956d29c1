import GuestShell.Proofs.Json.ReadBack
import GuestShell.Session.Wire
import Mathlib.Data.List.Nodup

/-!
# What travels arrives

A job that is written, printed and read is the same job, and so is an event (`Job.ofText?_print`,
`Event.ofText?_print`).  What a failure is reduced to before it travels is told by
`RunError.travelled`: exit codes and interrupts are kept, and any failure of the engine becomes an
abort with the reason or the wording of it.

Each reader finds what the writer of the same kind has put there, field by field.
-/

namespace GuestShell

namespace Json

/-! ## Writing and reading records -/

variable {α : Type}

/-- Members with the names of the fields are the fields. -/
lemma Fields.ofJson?_obj (names : List String) {members : List (String × Json)}
    (h : members.map (·.1) = names) (hnames : names.Nodup) :
    Fields.ofJson? names (.obj members) = some ⟨members, true⟩ := by
  have honce (n : String) : occurrences n members ≤ 1 := by
    have hcount := List.nodup_iff_count_le_one.1 hnames n
    rwa [← h, List.count, List.countP_map, List.countP_eq_length_filter] at hcount
  have hall : members.filter (fun m => names.contains m.1) = members := by
    refine List.filter_eq_self.2 fun m hm => ?_
    simpa [← h] using ⟨m.2, hm⟩
  rw [Fields.ofJson?, if_pos (by simpa using fun n _ => honce n), hall]

lemma listOf?_map (read : Json → Option α) (write : α → Json) (h : ∀ x, read (write x) = some x)
    (l : List α) : listOf? read (.arr (l.map write)) = some l := by
  rw [listOf?]
  induction l with
  | nil => rfl
  | cons x l ih =>
    rw [List.map_cons, List.mapM_cons, h, ih]
    rfl

lemma natBelow?_int {bound n : Nat} (h : n < bound) : natBelow? bound (.int n) = some n := by
  have hrange : (0 : Int) ≤ n ∧ (n : Int) ≤ bound - 1 := by omega
  rw [natBelow?, intIn?, if_pos hrange]
  rfl

lemma bytes?_ofBytes (bytes : List UInt8) : bytes? (ofBytes bytes) = some bytes := by
  refine listOf?_map _ _ (fun b => ?_) bytes
  rw [natBelow?_int b.toNat_lt]
  simp

lemma plainItems_map {write : α → Json} (h : ∀ x, (write x).isPlain = true) (l : List α) :
    isPlain.plainItems (l.map write) = true := by
  induction l with
  | nil => rfl
  | cons x l ih =>
    rw [List.map_cons, isPlain.plainItems, h, ih]
    rfl

lemma depthItems_map_le {write : α → Json} {d : Nat} (h : ∀ x, (write x).depth ≤ d) (l : List α) :
    depth.depthItems (l.map write) ≤ d := by
  induction l with
  | nil => exact Nat.zero_le d
  | cons x l ih => exact Nat.max_le.2 ⟨h x, ih⟩

end Json

namespace Wire

open Json

/-! ## Saved files -/

lemma isWord_natCast {n : Nat} (h : n < UInt64.size) : IsWord n :=
  ⟨Int.le_trans (Int.neg_nonpos_of_nonneg (Int.natCast_nonneg _)) (Int.natCast_nonneg n),
    Int.ofNat_lt.2 h⟩

lemma isPlain_ofBytes (bytes : Bytes) : (Json.ofBytes bytes).isPlain = true := by
  refine plainItems_map (fun b => ?_) bytes
  have hb : b.toNat < UInt64.size := Nat.lt_trans b.toNat_lt (by decide)
  rw [isPlain, decide_eq_true_iff]
  exact isWord_natCast hb

lemma isPlain_ofFile (f : SavedFile) : (ofFile f).isPlain = true := by
  have htime := isWord_natCast f.timestamp.toNat_lt
  simp only [ofFile, isPlain, isPlain.plainMembers, isPlain_ofBytes, htime, decide_true,
    Bool.and_self]

lemma file?_ofFile (f : SavedFile) : file? (ofFile f) = some f := by
  have htime := natBelow?_int f.timestamp.toNat_lt
  rw [file?, ofFile, Fields.ofJson?_obj fileFields rfl (by decide)]
  show ((natBelow? UInt64.size (.int f.timestamp.toNat)).bind fun time =>
    (bytes? (.ofBytes f.bytes)).bind fun bytes => some ⟨f.path, .ofNat time, bytes⟩) = some f
  rw [htime, bytes?_ofBytes, Option.bind_some, Option.bind_some, UInt64.ofNat_toNat]

lemma depth_ofBytes_le (bytes : Bytes) : (Json.ofBytes bytes).depth ≤ 1 :=
  Nat.succ_le_succ (depthItems_map_le (fun _ => Nat.le_refl 0) bytes)

lemma depth_ofFile_le (f : SavedFile) : (ofFile f).depth ≤ 2 := by
  have hbytes := depth_ofBytes_le f.bytes
  simp only [ofFile, depth, depth.depthMembers]
  omega

/-! ## Jobs -/

namespace Job

lemma isPlain_toJson (j : Job) : j.toJson.isPlain = true := by
  have hargs : isPlain.plainItems (j.invocation.args.map .str) = true :=
    plainItems_map (fun _ => rfl) _
  have hfiles := plainItems_map isPlain_ofFile j.invocation.files
  have hinput : (Wire.ofText? j.invocation.input).isPlain = true := by
    cases j.invocation.input <;> rfl
  have hglue : (Wire.ofBytes? j.glue).isPlain = true := by
    cases j.glue with
    | none => rfl
    | some bytes => exact isPlain_ofBytes bytes
  simp only [toJson, isPlain, isPlain.plainMembers, hargs, hfiles, hinput, hglue, Bool.and_self]

lemma ofJson?_toJson (j : Job) : ofJson? j.toJson = some j := by
  have hargs : listOf? text? (.arr (j.invocation.args.map .str)) = some j.invocation.args :=
    listOf?_map text? .str (fun _ => rfl) _
  have hfiles := listOf?_map file? ofFile file?_ofFile j.invocation.files
  have hinput : orNull? text? (Wire.ofText? j.invocation.input) = some j.invocation.input := by
    cases j.invocation.input <;> rfl
  have habi : wordIn? abiNames (.str j.abi.name) = some j.abi := by
    cases j.abi <;> rfl
  have hglue : orNull? bytes? (Wire.ofBytes? j.glue) = some j.glue := by
    cases j.glue with
    | none => rfl
    | some bytes => exact congrArg (Option.map some) (bytes?_ofBytes bytes)
  rw [ofJson?, toJson, Fields.ofJson?_obj fieldNames rfl (by decide)]
  show ((listOf? text? (.arr (j.invocation.args.map .str))).bind fun args =>
    (listOf? file? (.arr (j.invocation.files.map ofFile))).bind fun files =>
    (orNull? text? (Wire.ofText? j.invocation.input)).bind fun input =>
    (wordIn? abiNames (.str j.abi.name)).bind fun abi =>
    (orNull? bytes? (Wire.ofBytes? j.glue)).bind fun glue =>
    some ⟨⟨j.invocation.program, args, files, input⟩, abi, glue, j.headless⟩) = some j
  rw [hargs, hfiles, hinput, habi, hglue]
  rfl

/-- **A job arrives as it was sent.** -/
theorem ofText?_print (j : Job) : ofText? j.toJson.print = some j := by
  rw [ofText?, ofString?_print j.isPlain_toJson]
  exact ofJson?_toJson j

end Job

/-! ## Events -/

namespace Event

/-- The name of the kind of an event, and its fields. -/
def parts : Event → String × List (String × Json)
  | .stdout data => ("stdout", [("data", .ofBytes data)])
  | .stderr data => ("stderr", [("data", .ofBytes data)])
  | .readLine caption => ("read_line", [("caption", .str caption)])
  | .failed message exitCode interrupted =>
    ("failed", [("message", .str message), ("exit_code", ofCode? exitCode),
      ("interrupted", .bool interrupted)])
  | .finished files => ("finished", [("files", .arr (files.map ofFile))])

lemma tagged?_toJson (e : Event) : tagged? e.toJson = some (e.parts.1, .obj e.parts.2) := by
  cases e <;> rfl

lemma code?_ofCode? (exitCode : Option Int32) :
    orNull? code? (ofCode? exitCode) = some exitCode := by
  cases exitCode with
  | none => rfl
  | some code =>
    have hlow := code.le_toInt
    have hhigh := code.toInt_lt
    have hrange : -0x80000000 ≤ code.toInt ∧ code.toInt ≤ 0x7fffffff := by omega
    show (((intIn? (-0x80000000) 0x7fffffff (.int code.toInt)).map Int32.ofInt).map some) = _
    rw [intIn?, if_pos hrange, Option.map_some, Option.map_some, Int32.ofInt_toInt]

lemma ofFields?_parts (e : Event) : ofFields? e.parts.1 (.obj e.parts.2) = some e := by
  cases e with
  | stdout data =>
    rw [parts, ofFields?, Fields.ofJson?_obj ["data"] rfl (by decide)]
    show ((bytes? (.ofBytes data)).bind fun data => some (Event.stdout data)) = _
    rw [bytes?_ofBytes]
    rfl
  | stderr data =>
    rw [parts, ofFields?, Fields.ofJson?_obj ["data"] rfl (by decide)]
    show ((bytes? (.ofBytes data)).bind fun data => some (Event.stderr data)) = _
    rw [bytes?_ofBytes]
    rfl
  | readLine caption =>
    rw [parts, ofFields?, Fields.ofJson?_obj ["caption"] rfl (by decide)]
    rfl
  | failed message exitCode interrupted =>
    rw [parts, ofFields?,
      Fields.ofJson?_obj ["message", "exit_code", "interrupted"] rfl (by decide)]
    show ((orNull? code? (ofCode? exitCode)).bind fun exitCode =>
      some (Event.failed message exitCode interrupted)) = _
    rw [code?_ofCode?]
    rfl
  | finished files =>
    rw [parts, ofFields?, Fields.ofJson?_obj ["files"] rfl (by decide)]
    show ((listOf? file? (.arr (files.map ofFile))).bind fun files =>
      some (Event.finished files)) = _
    rw [listOf?_map file? ofFile file?_ofFile]
    rfl

lemma isPlain_ofCode? (exitCode : Option Int32) : (ofCode? exitCode).isPlain = true := by
  cases exitCode with
  | none => rfl
  | some code =>
    have hlow := code.le_toInt
    have hhigh := code.toInt_lt
    have hword : IsWord code.toInt := by
      constructor
      · exact Int.le_trans (by decide) hlow
      · exact Int.lt_trans hhigh (by decide)
    rw [ofCode?, isPlain, decide_eq_true_iff]
    exact hword

lemma isPlain_toJson (e : Event) : e.toJson.isPlain = true := by
  cases e with
  | stdout data =>
    simp only [toJson, isPlain, isPlain.plainMembers, isPlain_ofBytes, Bool.and_self]
  | stderr data =>
    simp only [toJson, isPlain, isPlain.plainMembers, isPlain_ofBytes, Bool.and_self]
  | readLine caption => rfl
  | failed message exitCode interrupted =>
    simp only [toJson, isPlain, isPlain.plainMembers, isPlain_ofCode?, Bool.and_self]
  | finished files =>
    simp only [toJson, isPlain, isPlain.plainMembers, plainItems_map isPlain_ofFile, Bool.and_self]

/-- An event is kept as a whole until its kind is known. -/
lemma isKeepable_toJson (e : Event) : e.toJson.isKeepable = true := by
  have hsound := isSound_of_isPlain _ e.isPlain_toJson
  have hdepth : e.toJson.depth ≤ 4 := by
    cases e with
    | stdout data =>
      have hbytes := depth_ofBytes_le data
      simp only [toJson, depth, depth.depthMembers]
      omega
    | stderr data =>
      have hbytes := depth_ofBytes_le data
      simp only [toJson, depth, depth.depthMembers]
      omega
    | readLine caption => exact (by decide : 1 ≤ 4)
    | failed message exitCode interrupted => cases exitCode <;> exact (by decide : 1 ≤ 4)
    | finished files =>
      have hfiles := depthItems_map_le depth_ofFile_le files
      simp only [toJson, depth, depth.depthMembers]
      omega
  rw [isKeepable, hsound, decide_eq_true (Nat.le_trans hdepth (by decide))]
  rfl

lemma ofJson?_toJson (e : Event) : ofJson? e.toJson = some e := by
  rw [ofJson?, e.isKeepable_toJson, e.tagged?_toJson]
  exact e.ofFields?_parts

/-- **An event arrives as it was sent.** -/
theorem ofText?_print (e : Event) : ofText? e.toJson.print = some e := by
  rw [ofText?, ofString?_print e.isPlain_toJson]
  exact ofJson?_toJson e

end Event

end Wire

/-! ## What a failure is reduced to -/

/-- What arrives of a failure: of what the engine says, a reason. -/
def RunError.travelled : RunError → RunError
  | .exit code => .exit code
  | .interrupted => .interrupted
  | .engine (.aborted reason) => .engine (.aborted reason)
  | .engine (.instantiationFailed reason) => .engine (.aborted reason)
  | .engine e => .engine (.aborted e.message)

/-- What arrives of an event. -/
def Worker.Event.travelled : Worker.Event → Worker.Event
  | .failed e => .failed e.travelled
  | e => e

namespace Wire

/-- What an event is after it was written, printed, read and taken for an event again. -/
def passedOn? (e : Worker.Event) : Option Worker.Event :=
  (Event.ofText? (Event.ofEvent e).toJson.print).map Event.toEvent

lemma toEvent_ofEvent (e : Worker.Event) : (Event.ofEvent e).toEvent = e.travelled := by
  cases e with
  | failed e =>
    cases e with
    | exit code => rfl
    | interrupted => rfl
    | engine e => cases e <;> rfl
  | _ => rfl

/-- **The wire format loses nothing that it promises to keep.**  A job arrives as it was sent.  An
event arrives as it was sent, but for what the engine says of a failure, of which the reason or the
wording is kept; and what has travelled once does not change any more. -/
theorem wire_keeps :
    (∀ j : Job, Job.ofText? j.toJson.print = some j) ∧
    (∀ e : Worker.Event, passedOn? e = some e.travelled) ∧
    (∀ e : RunError, (∀ code, e.travelled = .exit code ↔ e = .exit code) ∧
      (e.travelled = .interrupted ↔ e = .interrupted)) ∧
    ∀ e : Worker.Event, passedOn? e.travelled = some e.travelled := by
  have hpassed (e : Worker.Event) : passedOn? e = some e.travelled := by
    rw [passedOn?, Event.ofText?_print, Option.map_some, toEvent_ofEvent]
  refine ⟨Job.ofText?_print, hpassed, fun e => ?_, fun e => ?_⟩
  · rcases e with code | _ | e
    · simp [RunError.travelled]
    · simp [RunError.travelled]
    · cases e <;> simp [RunError.travelled]
  · rw [hpassed]
    cases e with
    | failed e =>
      rcases e with code | _ | e
      · rfl
      · rfl
      · cases e <;> rfl
    | _ => rfl

end Wire

end GuestShell
