import GuestShell.Proofs.Module.Sections
import GuestShell.Proofs.Text.Utf8
import Mathlib.Data.List.Induction

/-!
# What is written is found

The format of a module file, as far as imports and exports go, told from the side of the writer:
`WritesName`, `WritesBounds` and so on up to `WritesSection` say which bytes stand for a thing.  They
leave open what the format leaves open, above all the form of each number.

Each reader takes from the front just the bytes of what it reads (`Takes`), whatever comes after them,
and so readers that follow each other take what is written one after another (`Takes.bind`).  The type
of an import is not kept, but it has to be taken whole: the next import begins after it.

So in a file with at most one section of imports and one of exports just these are found
(`inspect_written`).
-/

namespace GuestShell.ModuleFile

open Leb128

/-! ## What can be written -/

/-- The bounds of a table or memory. -/
structure Bounds where
  least : Nat
  most : Option Nat

/-- The type of an import. -/
inductive ImportType where
  | function (type : Nat)
  | table (element : UInt8) (bounds : Bounds)
  | memory (bounds : Bounds)
  | global (type mutability : UInt8)
  | tag (form : UInt8) (type : Nat)

/-- What kind of thing has the type. -/
def ImportType.kind : ImportType → ExternKind
  | .function _ => .function
  | .table _ _ => .table
  | .memory _ => .memory
  | .global _ _ => .global
  | .tag _ _ => .tag

/-- An import with its type. -/
structure ImportDeclaration where
  library : String
  name : String
  type : ImportType

/-- An export with its index. -/
structure ExportDeclaration where
  name : String
  kind : ExternKind
  index : Nat

/-- What is kept of an import. -/
def ImportDeclaration.kept (d : ImportDeclaration) : Import := ⟨d.library, d.name, d.type.kind⟩

/-- What is kept of an export. -/
def ExportDeclaration.kept (d : ExportDeclaration) : Export := ⟨d.name, d.kind⟩

/-- What a section can hold. -/
inductive Content where
  | imports (declared : List ImportDeclaration)
  | exports (declared : List ExportDeclaration)
  /-- Anything else; it is not looked at. -/
  | other (id : UInt8) (body : Bytes) (no_imports : id ≠ importSection)
    (no_exports : id ≠ exportSection)

namespace Content

/-- The number of the section. -/
def id : Content → UInt8
  | imports _ => importSection
  | exports _ => exportSection
  | other id _ _ _ => id

/-- The imports, if it is a section of imports. -/
def imports? : Content → Option (List ImportDeclaration)
  | imports declared => some declared
  | _ => none

/-- The exports, if it is a section of exports. -/
def exports? : Content → Option (List ExportDeclaration)
  | exports declared => some declared
  | _ => none

end Content

/-! ## How it is written -/

/-- A name: the number of its bytes, and the bytes. -/
inductive WritesName (s : String) : Bytes → Prop
  | intro {size : Bytes} (length : Writes (Text.byteLength s) size) :
    WritesName s (size ++ Text.encode s)

/-- Bounds: flags, of which the lowest says whether there is a greatest size, and the sizes. -/
inductive WritesBounds : Bounds → Bytes → Prop
  | unlimited {flags : UInt8} {least : Nat} {low : Bytes} (hflags : flags &&& 1 = 0)
      (hleast : Writes least low) : WritesBounds ⟨least, none⟩ ([flags] ++ low)
  | limited {flags : UInt8} {least most : Nat} {low high : Bytes} (hflags : flags &&& 1 ≠ 0)
      (hleast : Writes least low) (hmost : Writes most high) :
      WritesBounds ⟨least, some most⟩ ([flags] ++ (low ++ high))

/-- The type of an import. -/
inductive WritesType : ImportType → Bytes → Prop
  | function {type : Nat} {x : Bytes} (h : Writes type x) : WritesType (.function type) x
  | table {element : UInt8} {b : Bounds} {x : Bytes} (h : WritesBounds b x) :
    WritesType (.table element b) ([element] ++ x)
  | memory {b : Bounds} {x : Bytes} (h : WritesBounds b x) : WritesType (.memory b) x
  | global {type mutability : UInt8} : WritesType (.global type mutability) ([type] ++ [mutability])
  | tag {form : UInt8} {type : Nat} {x : Bytes} (h : Writes type x) :
    WritesType (.tag form type) ([form] ++ x)

/-- An import: its library, its name, the code of its kind, and its type. -/
inductive WritesImport (d : ImportDeclaration) : Bytes → Prop
  | intro {library name type : Bytes} (hlibrary : WritesName d.library library)
    (hname : WritesName d.name name) (htype : WritesType d.type type) :
    WritesImport d (library ++ (name ++ ([kindCode d.type.kind] ++ type)))

/-- An export: its name, the code of its kind, and its index. -/
inductive WritesExport (d : ExportDeclaration) : Bytes → Prop
  | intro {name index : Bytes} (hname : WritesName d.name name) (hindex : Writes d.index index) :
    WritesExport d (name ++ ([kindCode d.kind] ++ index))

/-- Entries of a section, their number in front. -/
inductive WritesCounted {α : Type} (W : α → Bytes → Prop) (l : List α) : Bytes → Prop
  | intro {count items : Bytes} (hcount : Writes l.length count) (hitems : Each W l items) :
    WritesCounted W l (count ++ items)

/-- The body of a section. -/
inductive WritesBody : Content → Bytes → Prop
  | imports {l : List ImportDeclaration} {body : Bytes} (h : WritesCounted WritesImport l body) :
    WritesBody (.imports l) body
  | exports {l : List ExportDeclaration} {body : Bytes} (h : WritesCounted WritesExport l body) :
    WritesBody (.exports l) body
  | other {id : UInt8} {body : Bytes} {no_imports : id ≠ importSection}
      {no_exports : id ≠ exportSection} : WritesBody (.other id body no_imports no_exports) body

/-- A section: its number, the length of its body, and the body. -/
inductive WritesSection (c : Content) : Bytes → Prop
  | intro {size body : Bytes} (hbody : WritesBody c body) (hsize : Writes body.length size) :
    WritesSection c (c.id :: (size ++ body))

/-! ## Readers -/

/-- A reader takes just these bytes from the front, and gives a value for them. -/
def Takes {α : Type} (r : Reader α) (v : α) (bytes : Bytes) : Prop :=
  ∀ rest, r (bytes ++ rest) = .ok (v, rest)

section Readers

variable {α β : Type} {r : Reader α} {v : α} {x y : Bytes} {n : Nat}

lemma takes_pure (v : α) : Takes (pure v) v [] := fun _ => rfl

/-- **Readers that follow each other take what is written one after another.** -/
theorem Takes.bind {f : α → Reader β} {w : β} (hr : Takes r v x) (hf : Takes (f v) w y) :
    Takes (r >>= f) w (x ++ y) := by
  intro rest
  change (r (x ++ y ++ rest) >>= fun s => f s.1 s.2) = .ok (w, rest)
  rw [List.append_assoc, hr]
  exact hf rest

/-- What is done with a value takes no bytes. -/
lemma Takes.map {f : α → Reader β} {w : β} (hr : Takes r v x) (hf : Takes (f v) w []) :
    Takes (r >>= f) w x := by
  have hboth := hr.bind hf
  rwa [List.append_nil] at hboth

lemma takes_byte (b : UInt8) : Takes byte b [b] := fun _ => rfl

lemma takes_number (h : Writes n x) : Takes number n x :=
  fun rest => number_ok_iff.2 (h.decode rest)

lemma takes_taken (x : Bytes) : Takes (taken x.length) x x := by
  intro rest
  simp [taken]

lemma takes_name {s : String} (h : WritesName s x) : Takes name s x := by
  obtain ⟨hlength⟩ := h
  refine (takes_number hlength).bind (Takes.map (takes_taken (Text.encode s)) ?_)
  rw [Text.decodeLossy_encode]
  exact takes_pure s

lemma takes_kind (k : ExternKind) : Takes kind k [kindCode k] := by
  refine (takes_byte (kindCode k)).map ?_
  cases k <;> exact fun _ => rfl

lemma takes_bounds {b : Bounds} (h : WritesBounds b x) : Takes bounds () x := by
  cases h with
  | @unlimited flags least low hflags hleast =>
    refine (takes_byte flags).bind ((takes_number hleast).map ?_)
    rw [hflags]
    exact takes_pure ()
  | @limited flags least most low high hflags hleast hmost =>
    refine (takes_byte flags).bind ((takes_number hleast).bind ?_)
    rw [if_pos (bne_iff_ne.2 hflags)]
    exact (takes_number hmost).map (takes_pure ())

/-- The type of an import is taken whole. -/
lemma takes_importType {t : ImportType} (h : WritesType t x) : Takes (importType t.kind) () x := by
  cases h with
  | function h => exact (takes_number h).map (takes_pure ())
  | table h => exact (takes_byte _).bind (takes_bounds h)
  | memory h => exact takes_bounds h
  | global => exact (takes_byte _).bind ((takes_byte _).map (takes_pure ()))
  | tag h => exact (takes_byte _).bind ((takes_number h).map (takes_pure ()))

lemma takes_importEntry {d : ImportDeclaration} (h : WritesImport d x) :
    Takes importEntry d.kept x := by
  obtain ⟨hlibrary, hname, htype⟩ := h
  exact (takes_name hlibrary).bind ((takes_name hname).bind
    ((takes_kind d.type.kind).bind ((takes_importType htype).map (takes_pure d.kept))))

lemma takes_exportEntry {d : ExportDeclaration} (h : WritesExport d x) :
    Takes exportEntry d.kept x := by
  obtain ⟨hname, hindex⟩ := h
  exact (takes_name hname).bind
    ((takes_kind d.kind).bind ((takes_number hindex).map (takes_pure d.kept)))

variable {W : β → Bytes → Prop} {kept : β → α} {l : List β}

lemma takes_entries (hr : ∀ d x, W d x → Takes r (kept d) x) (h : Each W l x) :
    Takes (entries r l.length) (l.map kept) x := by
  induction h with
  | nil => exact takes_pure []
  | cons first _ ih => exact (hr _ _ first).bind (ih.map (takes_pure _))

lemma takes_counted (hr : ∀ d x, W d x → Takes r (kept d) x) (h : WritesCounted W l x) :
    Takes (counted r) (l.map kept) x := by
  obtain ⟨hcount, hitems⟩ := h
  exact (takes_number hcount).bind (takes_entries hr hitems)

lemma Takes.all (h : Takes r v x) : r x = .ok (v, []) := by
  have hall := h []
  rwa [List.append_nil] at hall

end Readers

/-! ## Files -/

/-- What is known after a section. -/
def Content.learned (info : ModuleInfo) (c : Content) : ModuleInfo where
  imports := (c.imports?.map (·.map ImportDeclaration.kept)).getD info.imports
  exports := (c.exports?.map (·.map ExportDeclaration.kept)).getD info.exports

variable {c : Content} {cs : List Content} {body bytes : Bytes}

lemma learn_written (info : ModuleInfo) (h : WritesBody c body) :
    learn info ⟨c.id, body⟩ = .ok (c.learned info) := by
  cases h with
  | imports h =>
    have hread := (takes_counted (W := WritesImport) (fun _ _ => takes_importEntry) h).all
    simp only [learn, Content.id, if_true, hread]
    rfl
  | exports h =>
    have hread := (takes_counted (W := WritesExport) (fun _ _ => takes_exportEntry) h).all
    have hno : exportSection ≠ importSection := by decide
    simp only [learn, Content.id, if_neg hno, if_true, hread]
    rfl
  | @other id _ no_imports no_exports =>
    change (if id = importSection then _ else if id = exportSection then _ else _) = _
    rw [if_neg no_imports, if_neg no_exports]
    rfl

/-- Written sections are sections, and what they add is what was written. -/
lemma foldlM_learn_written (h : Each WritesSection cs bytes) (info : ModuleInfo) :
    ∃ ss, Each IsSection ss bytes ∧ ss.foldlM learn info = .ok (cs.foldl Content.learned info) := by
  induction h generalizing info with
  | nil => exact ⟨[], .nil, rfl⟩
  | @cons c cs x y first _ ih =>
    obtain @⟨size, body, hbody, hsize⟩ := first
    obtain ⟨ss, hss, hfold⟩ := ih (c.learned info)
    have hsection : IsSection ⟨c.id, body⟩ (c.id :: (size ++ body)) :=
      .intro hsize.form hsize.fits (Nat.mod_eq_of_lt hsize.bounded)
    refine ⟨⟨c.id, body⟩ :: ss, .cons hsection hss, ?_⟩
    rw [List.foldlM_cons, learn_written info hbody]
    exact hfold

/-- The last section of each kind counts. -/
lemma foldl_learned (cs : List Content) (info : ModuleInfo) :
    cs.foldl Content.learned info =
      ⟨((cs.filterMap Content.imports?).getLast?.map (·.map ImportDeclaration.kept)).getD info.imports,
        ((cs.filterMap Content.exports?).getLast?.map (·.map ExportDeclaration.kept)).getD
          info.exports⟩ := by
  induction cs using List.reverseRecOn with
  | nil => rfl
  | append_singleton cs c ih =>
    rw [List.foldl_append, ih]
    cases c <;> simp [Content.learned, Content.imports?, Content.exports?]

lemma getLast?_getD_of_length_le_one {α β : Type} (f : α → β) {l : List (List α)}
    (h : l.length ≤ 1) : (l.getLast?.map (·.map f)).getD [] = l.flatten.map f := by
  match l, h with
  | [], _ => rfl
  | [a], _ => simp

/-- **What is written is found.**  In a file that was written with at most one section of imports and
at most one of exports, among others at any place, just these imports and exports are found, in their
order. -/
theorem inspect_written (h : Each WritesSection cs bytes)
    (himports : (cs.filterMap Content.imports?).length ≤ 1)
    (hexports : (cs.filterMap Content.exports?).length ≤ 1) :
    inspect (header ++ bytes) =
      .ok ⟨(cs.filterMap Content.imports?).flatten.map ImportDeclaration.kept,
        (cs.filterMap Content.exports?).flatten.map ExportDeclaration.kept⟩ := by
  obtain ⟨ss, hss, hfold⟩ := foldlM_learn_written h .empty
  refine inspect_ok_iff.2 ⟨ss, bytes, rfl, hss, ?_⟩
  rw [hfold, foldl_learned]
  simp only [ModuleInfo.empty, getLast?_getD_of_length_le_one _ himports,
    getLast?_getD_of_length_le_one _ hexports]

/-- Imports and exports between other sections, with some numbers in longer forms than needed. -/
def paddedBytes : Bytes :=
  [1, 0x81, 0x00, 0x60] ++
    ([2, 0x13, 2, 1, 0x6d, 1, 0x74, 1, 0x70, 1, 1, 0xac, 0x82, 0x00,
      1, 0x6d, 1, 0x65, 4, 0, 2] ++
    ([0, 0] ++ ([7, 0x85, 0x80, 0x00, 1, 1, 0x67, 0, 5] ++ [])))

theorem inspect_written_padded : inspect (header ++ paddedBytes) =
    .ok ⟨[⟨"m", "t", .table⟩, ⟨"m", "e", .tag⟩], [⟨"g", .function⟩]⟩ := by
  have name_one : ∀ {s : String} {b : UInt8}, Text.encode s = [b] →
      WritesName s ([1] ++ Text.encode s) := by
    refine fun hs => .intro ?_
    rw [Text.byteLength, hs]
    exact writes_of_lt (by decide : 1 < 128)
  have hm : WritesName "m" ([1] ++ Text.encode "m") := name_one (b := 0x6d) (by decide +kernel)
  have ht : WritesName "t" ([1] ++ Text.encode "t") := name_one (b := 0x74) (by decide +kernel)
  have he : WritesName "e" ([1] ++ Text.encode "e") := name_one (b := 0x65) (by decide +kernel)
  have hg : WritesName "g" ([1] ++ Text.encode "g") := name_one (b := 0x67) (by decide +kernel)
  -- three numbers in longer forms
  have hmost : Writes 300 [0xac, 0x82, 0x00] :=
    ⟨.more (by decide : 44 < 128) (.more (by decide : 2 < 128) (.last (by decide : 0 < 128))),
      by decide, by decide⟩
  have hone : Writes 1 [0x81, 0x00] :=
    ⟨.more (by decide : 1 < 128) (.last (by decide : 0 < 128)), by decide, by decide⟩
  have hfive : Writes 5 [0x85, 0x80, 0x00] :=
    ⟨.more (by decide : 5 < 128) (.more (by decide : 0 < 128) (.last (by decide : 0 < 128))),
      by decide, by decide⟩
  have hbounds : WritesBounds ⟨1, some 300⟩ ([1] ++ ([1] ++ [0xac, 0x82, 0x00])) :=
    .limited (by decide) (writes_of_lt (by decide : 1 < 128)) hmost
  have htable : WritesImport ⟨"m", "t", .table 0x70 ⟨1, some 300⟩⟩ _ :=
    .intro hm ht (.table hbounds)
  have htag : WritesImport ⟨"m", "e", .tag 0 2⟩ _ :=
    .intro hm he (.tag (writes_of_lt (by decide : 2 < 128)))
  have hexport : WritesExport ⟨"g", .function, 5⟩ _ := .intro hg (writes_of_lt (by decide : 5 < 128))
  have himports : WritesCounted WritesImport
      [⟨"m", "t", .table 0x70 ⟨1, some 300⟩⟩, ⟨"m", "e", .tag 0 2⟩] _ :=
    .intro (writes_of_lt (by decide : 2 < 128)) (.cons htable (.cons htag .nil))
  have hexports : WritesCounted WritesExport [⟨"g", .function, 5⟩] _ :=
    .intro (writes_of_lt (by decide : 1 < 128)) (.cons hexport .nil)
  have hfirst : WritesSection (.other 1 [0x60] (by decide) (by decide)) _ := .intro .other hone
  have hthird : WritesSection (.other 0 [] (by decide) (by decide)) _ :=
    .intro .other (writes_of_lt (by decide : 0 < 128))
  have hall : Each WritesSection [.other 1 [0x60] _ _, .imports [_, _], .other 0 [] _ _, .exports [_]]
      paddedBytes :=
    .cons hfirst (.cons (.intro (.imports himports) (writes_of_lt (by decide : 19 < 128)))
      (.cons hthird (.cons (.intro (.exports hexports) hfive) .nil)))
  exact inspect_written hall (by decide) (by decide)

end GuestShell.ModuleFile
