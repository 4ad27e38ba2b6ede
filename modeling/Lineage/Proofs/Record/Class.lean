import Lineage.Proofs.FileTree
import Lineage.Proofs.Json.Record
import Lineage.Scan.Extraction

/-!
# Class records read back

A list of class records that is written down in JSON is read back as it was: whatever characters the
names and types and paths hold, and whichever optional fields are absent. The absent ones are written
in two ways (`null`, or nothing at all), and both come back as absent.

Records need not come from the printer. Those that people write leave out what is not needed, keep an
order of their own and hold members that no reader knows.

**Forms (`WrittenAs`).** `c.WrittenAs v` says that the value `v` is such a record of `c`. At every
level of it, each field that holds its default may be left out, the fields may come in any order, and
members with other keys may stand among them.

**Lines (`LinesFit`).** Reading refuses a line that needs more than 64 bits, so the lines of the
records have to fit.

**Results.** Record by record, `WrittenAs.ofJson?_eq` is that every form is read as the record that it
stands for, `writtenAs_toJson` that the printed one is a form, `plain_toJson` that the printers write
it. `loadRecords_written` and `sparse_read_exactly` put them together, down to the file.
-/
namespace Lineage

/-! ## Lines that fit -/

def SourceLocation.LineFits (l : SourceLocation) : Prop := l.line < UInt64.size

def Method.LineFits (m : Method) : Prop := ∀ n ∈ m.line, n < UInt64.size

/-- Every line in the record fits in 64 bits. -/
def ClassDecl.LinesFit (c : ClassDecl) : Prop :=
  (∀ m ∈ c.methods, m.LineFits) ∧ ∀ l ∈ c.location, l.LineFits

instance (l : SourceLocation) : Decidable l.LineFits := inferInstanceAs (Decidable (_ < _))

instance (m : Method) : Decidable m.LineFits :=
  inferInstanceAs (Decidable (∀ n ∈ m.line, n < UInt64.size))

instance (c : ClassDecl) : Decidable c.LinesFit := inferInstanceAs (Decidable (_ ∧ _))

/-! ## Types -/

namespace TypeRef

theorem toJson_ne_null (t : TypeRef) : t.toJson ≠ .null := by
  cases t <;> simp [toJson]

theorem ofJson?_toJson (t : TypeRef) : ofJson? t.toJson = some t := by
  cases t with
  | scalar text => rfl
  | qualified segments =>
    have h : Json.list? Json.string? (.strings segments) = some segments :=
      Json.list?_array_map fun s _ => rfl
    simp [toJson, ofJson?, h]

/-- An optional field for a type is read as the type. -/
theorem optional_ofJson? {type : Option TypeRef} {field : Option Json}
    (h : Json.Omissible none (Json.OrNull (Json.Exactly toJson)) type field) :
    Json.optional ofJson? field = some type := by
  apply h.optional_eq
  rintro t - _ rfl
  exact ⟨t.toJson_ne_null, t.ofJson?_toJson⟩

theorem plain_toJson (t : TypeRef) : t.toJson.Plain := by
  cases t with
  | scalar text => exact .object (by simp [Json.Plain.string])
  | qualified segments =>
    have h : (Json.strings segments).Plain := .array_map fun s _ => .string s
    exact .object (by simp [h])

end TypeRef

/-! ## Locations -/

namespace SourceLocation

/-- The object `v` is a record of `l`. -/
def WrittenAs (l : SourceLocation) (v : Json) : Prop :=
  v.HasFields [("file", some (.string l.file)), ("line", some (.natural l.line))]

theorem WrittenAs.ofJson?_eq {l : SourceLocation} {v : Json} (h : l.WrittenAs v)
    (hfit : l.LineFits) : ofJson? v = some l := by
  have hrecord := h.record?_eq (by simp) 2
  simp only [List.map_cons, List.map_nil] at hrecord
  simp [ofJson?, hrecord, Json.required, Json.string?, Json.word64?_natural hfit]

theorem writtenAs_toJson (l : SourceLocation) : l.WrittenAs l.toJson := .of_present rfl

/-- An optional field for a location is read as the location. -/
theorem optional_ofJson? {location : Option SourceLocation} {field : Option Json}
    (h : Json.Omissible none (Json.OrNull WrittenAs) location field)
    (hfit : ∀ l ∈ location, l.LineFits) : Json.optional ofJson? field = some location := by
  apply h.optional_eq
  intro l hl v hv
  exact ⟨Json.HasFields.ne_null hv, hv.ofJson?_eq (hfit l hl)⟩

theorem plain_toJson (l : SourceLocation) : l.toJson.Plain :=
  .object (by simp [Json.Plain.string, Json.Plain.natural])

end SourceLocation

/-! ## Parameters and methods -/

namespace Parameter

/-- The object `v` is a record of `p`. -/
def WrittenAs (p : Parameter) (v : Json) : Prop :=
  ∃ byReference type hasDefault,
    Json.Omissible false (Json.Exactly .bool) p.byReference byReference ∧
    Json.Omissible none (Json.OrNull (Json.Exactly TypeRef.toJson)) p.type type ∧
    Json.Omissible false (Json.Exactly .bool) p.hasDefault hasDefault ∧
    v.HasFields [("name", some (.string p.name)), ("by_reference", byReference), ("type", type),
      ("has_default", hasDefault)]

theorem WrittenAs.ofJson?_eq {p : Parameter} {v : Json} (h : p.WrittenAs v) :
    ofJson? v = some p := by
  obtain ⟨byReference, type, hasDefault, href, htype, hdefault, hfields⟩ := h
  have hrecord := hfields.record?_eq (by simp) 1
  simp only [List.map_cons, List.map_nil] at hrecord
  simp [ofJson?, hrecord, Json.required, Json.string?, href.defaulted_bool?,
    TypeRef.optional_ofJson? htype, hdefault.defaulted_bool?]

theorem writtenAs_toJson (p : Parameter) : p.WrittenAs p.toJson :=
  ⟨_, _, _, .written rfl, .written (.of_ofOption (Json.exactly_write _) p.type), .written rfl,
    .of_present rfl⟩

theorem plain_toJson (p : Parameter) : p.toJson.Plain :=
  .object (by
    simp [Json.Plain.string, Json.Plain.bool, Json.Plain.ofOption TypeRef.plain_toJson])

end Parameter

namespace Method

/-- The object `v` is a record of `m`. -/
def WrittenAs (m : Method) (v : Json) : Prop :=
  ∃ byReference returnType parameters line,
    Json.Omissible false (Json.Exactly .bool) m.byReference byReference ∧
    Json.Omissible none (Json.OrNull (Json.Exactly TypeRef.toJson)) m.returnType returnType ∧
    Json.Omissible [] (Json.Lists Parameter.WrittenAs) m.parameters parameters ∧
    Json.Omissible none (Json.OrNull (Json.Exactly .natural)) m.line line ∧
    v.HasFields [("name", some (.string m.name)), ("by_reference", byReference),
      ("return_type", returnType), ("parameters", parameters), ("line", line)]

theorem WrittenAs.ofJson?_eq {m : Method} {v : Json} (h : m.WrittenAs v) (hfit : m.LineFits) :
    ofJson? v = some m := by
  obtain ⟨byReference, returnType, parameters, line, href, htype, hparams, hline, hfields⟩ := h
  have hrecord := hfields.record?_eq (by simp) 1
  simp only [List.map_cons, List.map_nil] at hrecord
  have hparams : Json.defaulted [] (Json.list? Parameter.ofJson?) parameters = some m.parameters :=
    hparams.defaulted_eq fun _ hlist => hlist.list?_eq fun _ _ _ hp => hp.ofJson?_eq
  have hline : Json.optional Json.word64? line = some m.line := by
    apply hline.optional_eq
    rintro n hn _ rfl
    exact ⟨by simp, Json.word64?_natural (hfit n hn)⟩
  simp [ofJson?, hrecord, Json.required, Json.string?, href.defaulted_bool?,
    TypeRef.optional_ofJson? htype, hparams, hline]

theorem writtenAs_toJson (m : Method) : m.WrittenAs m.toJson := by
  refine ⟨_, _, _, _, .written rfl, .written (.of_ofOption (Json.exactly_write _) m.returnType),
    .written (.of_map Parameter.writtenAs_toJson m.parameters), .of_map (Json.exactly_write _) m.line, ?_⟩
  unfold toJson
  cases m.line <;> exact .of_present rfl

theorem plain_toJson (m : Method) : m.toJson.Plain := by
  have hparams : (Json.array (m.parameters.map Parameter.toJson)).Plain :=
    .array_map fun p _ => p.plain_toJson
  refine .object_append ?_ "line" .natural m.line
  simp [Json.Plain.string, Json.Plain.bool, Json.Plain.ofOption TypeRef.plain_toJson, hparams]

end Method

/-! ## Classes -/

namespace ClassDecl

/-- The object `v` is a record of `c`: at every level with any fields left out that hold their
default, in any order, and among any members with other keys. -/
def WrittenAs (c : ClassDecl) (v : Json) : Prop :=
  ∃ parentName methods location,
    Json.Omissible none (Json.OrNull (Json.Exactly .string)) c.parentName parentName ∧
    Json.Omissible [] (Json.Lists Method.WrittenAs) c.methods methods ∧
    Json.Omissible none (Json.OrNull SourceLocation.WrittenAs) c.location location ∧
    v.HasFields [("name", some (.string c.name)), ("parent_name", parentName),
      ("methods", methods), ("location", location)]

theorem WrittenAs.ofJson?_eq {c : ClassDecl} {v : Json} (h : c.WrittenAs v) (hfit : c.LinesFit) :
    ofJson? v = some c := by
  obtain ⟨parentName, methods, location, hparent, hmethods, hlocation, hfields⟩ := h
  have hrecord := hfields.record?_eq (by simp) 1
  simp only [List.map_cons, List.map_nil] at hrecord
  have hparent : Json.optional Json.string? parentName = some c.parentName := by
    apply hparent.optional_eq
    rintro s - _ rfl
    exact ⟨by simp, rfl⟩
  have hmethods : Json.defaulted [] (Json.list? Method.ofJson?) methods = some c.methods :=
    hmethods.defaulted_eq fun _ hlist =>
      hlist.list?_eq fun m hm _ hv => hv.ofJson?_eq (hfit.1 m hm)
  simp [ofJson?, hrecord, Json.required, Json.string?, hparent, hmethods,
    SourceLocation.optional_ofJson? hlocation hfit.2]

theorem writtenAs_toJson (c : ClassDecl) : c.WrittenAs c.toJson := by
  refine ⟨_, _, _, .written (.of_ofOption (Json.exactly_write _) c.parentName),
    .written (.of_map Method.writtenAs_toJson c.methods),
    .of_map SourceLocation.writtenAs_toJson c.location, ?_⟩
  unfold toJson
  cases c.location <;> exact .of_present rfl

theorem plain_toJson (c : ClassDecl) : c.toJson.Plain := by
  have hmethods : (Json.array (c.methods.map Method.toJson)).Plain :=
    .array_map fun m _ => m.plain_toJson
  refine .object_append ?_ "location" SourceLocation.plain_toJson c.location
  simp [Json.Plain.string, Json.Plain.ofOption Json.Plain.string, hmethods]

/-- The records as one JSON value. -/
def listToJson (cs : List ClassDecl) : Json := .array (cs.map toJson)

theorem plain_listToJson (cs : List ClassDecl) : (listToJson cs).Plain :=
  .array_map fun c _ => c.plain_toJson

theorem lists_listToJson (cs : List ClassDecl) : Json.Lists WrittenAs cs (listToJson cs) :=
  .of_map writtenAs_toJson cs

theorem listOfText?_of_read? {cs : List ClassDecl} (h : ∀ c ∈ cs, c.LinesFit) {text : String}
    {v : Json} (hv : Json.Lists WrittenAs cs v) (hread : Json.read? text = some v) :
    listOfText? text = some cs := by
  rw [listOfText?, hread, Option.bind_some]
  exact hv.list?_eq fun c hc _ hv => hv.ofJson?_eq (h c hc)

end ClassDecl

/-! ## Files of records -/

open ClassDecl in
/-- Class records that were written to a file, on one line or over many, load as they were. -/
theorem FileTree.loadRecords_written (cs : List ClassDecl) (h : ∀ c ∈ cs, c.LinesFit) :
    ∀ text ∈ [(listToJson cs).compact, (listToJson cs).render], ∀ (t : FileTree) (path : String),
      t.read path = .ok (Text.Utf8.encode text) → t.loadRecords path = .ok cs := by
  intro text htext t path hfile
  have hread : Json.read? text = some (listToJson cs) := by
    rcases List.mem_pair.mp htext with rfl | rfl
    · exact Json.read?_compact (plain_listToJson cs)
    · exact Json.read?_render (plain_listToJson cs)
  rw [FileTree.loadRecords, FileTree.readText_of_read hfile]
  simp only [listOfText?_of_read? h (lists_listToJson cs) hread]

/-- Names that need escapes, the last line there is, and every optional field once present and once
absent. -/
def awkwardRecords : List ClassDecl :=
  [{ name := "A\"\\B\n\x01\x7f", parentName := some ""
     methods :=
      [{ name := "größe😀", byReference := true, returnType := some (.qualified ["App", "É"])
         parameters :=
          [{ name := "a\tb", byReference := true, type := some (.scalar "?int"), hasDefault := true },
            { name := "" }]
         line := some 18446744073709551615 },
        { name := "null", returnType := some (.qualified []) }]
     location := some { file := "src/\u2028.php", line := 18446744073709551615 } },
    { name := "" }]

def awkwardFile : FileTree where
  items :=
    [(["records.json"], .file (Text.Utf8.encode (ClassDecl.listToJson awkwardRecords).render))]

theorem awkwardRecords_load :
    (∀ c ∈ awkwardRecords, c.LinesFit) ∧
      awkwardFile.read "records.json" =
        .ok (Text.Utf8.encode (ClassDecl.listToJson awkwardRecords).render) ∧
      awkwardFile.loadRecords "records.json" = .ok awkwardRecords := by
  have hfit : ∀ c ∈ awkwardRecords, c.LinesFit := by decide
  have hfile : awkwardFile.read "records.json" =
      .ok (Text.Utf8.encode (ClassDecl.listToJson awkwardRecords).render) := by
    have hres : awkwardFile.resolve "records.json" = .ok ["records.json"] := by
      rw [FileTree.resolve_relative (by decide) (by decide) (by decide) (by decide)]
      rfl
    exact FileTree.read_eq_ok_iff.mpr ⟨_, hres, rfl⟩
  exact ⟨hfit, hfile, FileTree.loadRecords_written awkwardRecords hfit _ (by simp) _ _ hfile⟩

/-- **Sparse records.** The printed form of a record is one of its forms. Every form is read as the
record that it stands for, and so is every file that lists such forms. -/
theorem ClassDecl.sparse_read_exactly :
    (∀ c : ClassDecl, c.WrittenAs c.toJson) ∧
    (∀ (c : ClassDecl) (v : Json), c.LinesFit → c.WrittenAs v → ofJson? v = some c) ∧
    ∀ (cs : List ClassDecl) (v : Json) (text : String), (∀ c ∈ cs, c.LinesFit) →
      Json.Lists WrittenAs cs v → Json.read? text = some v →
      ∀ (t : FileTree) (path : String), t.readText path = .ok text → t.loadRecords path = .ok cs := by
  refine ⟨writtenAs_toJson, fun c v hfit hv => hv.ofJson?_eq hfit, ?_⟩
  intro cs v text hfit hv hread t path hfile
  rw [FileTree.loadRecords, hfile]
  simp only [listOfText?_of_read? hfit hv hread]

namespace SparseCart

def item : Parameter := { name := "item", hasDefault := true }

def add : Method := { name := "add", parameters := [item] }

def place : SourceLocation := { file := "Cart.php", line := 3 }

def cart : ClassDecl := { name := "Cart", methods := [add], location := some place }

/-- `item` without what is not needed, its name last, and a note ahead. -/
def itemRecord : Json :=
  .object [("default", .array []), ("has_default", .bool true), ("name", .string "item")]

def addRecord : Json :=
  .object [("return", .null), ("parameters", .array [itemRecord]), ("name", .string "add")]

def placeRecord : Json :=
  .object [("column", .natural 7), ("line", .natural 3), ("file", .string "Cart.php")]

/-- A note may come twice. -/
def cartRecord : Json :=
  .object [("parent", .string "Base"), ("parent", .bool true), ("location", placeRecord),
    ("methods", .array [addRecord]), ("name", .string "Cart")]

def file : FileTree where
  items := [(["carts.json"], .file (Text.Utf8.encode (Json.array [cartRecord]).compact))]

theorem writtenAs_cartRecord : cart.WrittenAs cartRecord := by
  -- At every level: the fields that are there, then the notes, the whole turned round.
  have hitem : item.WrittenAs itemRecord :=
    ⟨none, none, _, .omitted, .omitted, .written rfl,
      .of_reverse [("default", .array [])] rfl (by simp)⟩
  have hadd : add.WrittenAs addRecord :=
    ⟨none, none, _, none, .omitted, .omitted, .written ⟨_, rfl, .cons hitem .nil⟩, .omitted,
      .of_reverse [("return", .null)] rfl (by simp)⟩
  have hplace : place.WrittenAs placeRecord := .of_reverse [("column", .natural 7)] rfl (by simp)
  exact ⟨none, _, _, .omitted, .written ⟨_, rfl, .cons hadd .nil⟩, .written (.present hplace),
    .of_reverse [("parent", .bool true), ("parent", .string "Base")] rfl (by simp)⟩

theorem plain_cartRecord : cartRecord.Plain := by
  have hitem : itemRecord.Plain :=
    .object (by simp [Json.Plain.string, Json.Plain.bool, Json.Plain.array])
  have hadd : addRecord.Plain :=
    .object (by simp [Json.Plain.string, Json.Plain.null, Json.Plain.array, hitem])
  have hplace : placeRecord.Plain := .object (by simp [Json.Plain.string, Json.Plain.natural])
  exact .object (by simp [Json.Plain.string, Json.Plain.bool, Json.Plain.array, hadd, hplace])

theorem readText_file : file.readText "carts.json" = .ok (Json.array [cartRecord]).compact := by
  have hres : file.resolve "carts.json" = .ok ["carts.json"] := by
    rw [FileTree.resolve_relative (by decide) (by decide) (by decide) (by decide)]
    rfl
  exact FileTree.readText_of_read (FileTree.read_eq_ok_iff.mpr ⟨_, hres, rfl⟩)

theorem cart_read :
    cart.LinesFit ∧ cart.WrittenAs cartRecord ∧ ClassDecl.ofJson? cartRecord = some cart ∧
      file.loadRecords "carts.json" = .ok [cart] := by
  have hfit : cart.LinesFit := by decide
  have hread : Json.read? (Json.array [cartRecord]).compact = some (.array [cartRecord]) :=
    Json.read?_compact (.array (by simp [plain_cartRecord]))
  obtain ⟨-, hvalue, hfile⟩ := ClassDecl.sparse_read_exactly
  exact ⟨hfit, writtenAs_cartRecord, hvalue cart _ hfit writtenAs_cartRecord,
    hfile [cart] _ _ (by simp [hfit]) ⟨_, rfl, .cons writtenAs_cartRecord .nil⟩ hread _ _
      readText_file⟩

end SparseCart

end Lineage
