import Lineage.Output.Render
import Lineage.Proofs.Record.Class

/-!
# Results read back from JSON

The JSON form of the results of a scan loses nothing: whoever reads the document has the results
again. `ofJson?` is such a reader. It knows the names of the members and no more of how they are laid
out, and takes the reports as they are read everywhere else (`Report.ofJson?`), where a side of a pair
that is absent is written `null` and a location that is absent is not written.

**Results.** `Report.ofJson?_toJson`: each report is read back. `jsonText_faithful`: the text is one
document and a line end, and the document gives the results back. As in files of class records, lines
have to fit in 64 bits (`LineFits`).
-/
namespace Lineage

/-! ## Reports -/

theorem Verdict.ofJson?_toJson (v : Verdict) : ofJson? v.toJson = some v :=
  v.ofWord?_word

namespace ParameterPair

theorem record?_toJson (p : ParameterPair) :
    p.toJson.record? ["ancestor", "descendant"] 2 =
      some [some (.ofOption .string p.ancestor), some (.ofOption .string p.descendant)] :=
  rfl

theorem ofJson?_toJson (p : ParameterPair) : ofJson? p.toJson = some p := by
  simp [ofJson?, record?_toJson, Json.optional_string?]

theorem plain_toJson (p : ParameterPair) : p.toJson.Plain :=
  .object (by simp [Json.Plain.ofOption Json.Plain.string])

end ParameterPair

namespace Report

/-- The line of the report's location, if it has one, fits in 64 bits. -/
def LineFits (r : Report) : Prop := ∀ l ∈ r.location, l.LineFits

instance (r : Report) : Decidable r.LineFits :=
  inferInstanceAs (Decidable (∀ l ∈ r.location, l.LineFits))

theorem record?_toJson (r : Report) :
    r.toJson.record? ["ancestor_class", "ancestor_method", "descendant_class", "descendant_method",
        "kind", "parameter_pairs", "location"] 6 =
      some [some (.string r.ancestorClass), some (.string r.ancestorMethod),
        some (.string r.descendantClass), some (.string r.descendantMethod), some r.kind.toJson,
        some (.array (r.parameterPairs.map ParameterPair.toJson)),
        r.location.map SourceLocation.toJson] := by
  unfold toJson
  cases r.location <;> rfl

theorem ofJson?_toJson {r : Report} (h : r.LineFits) : ofJson? r.toJson = some r := by
  have hpairs := Json.list?_array_map (l := r.parameterPairs) fun p _ => p.ofJson?_toJson
  have hlocation := SourceLocation.optional_ofJson?
    (.of_map SourceLocation.writtenAs_toJson r.location) h
  simp [ofJson?, record?_toJson, Json.required, Json.string?, Verdict.ofJson?_toJson, hpairs,
    hlocation]

theorem plain_toJson (r : Report) : r.toJson.Plain := by
  have hkind : r.kind.toJson.Plain := .string _
  have hpairs : (Json.array (r.parameterPairs.map ParameterPair.toJson)).Plain :=
    .array_map fun p _ => p.plain_toJson
  refine .object_append ?_ "location" SourceLocation.plain_toJson r.location
  simp [Json.Plain.string, hkind, hpairs]

end Report

/-! ## Summaries and failures -/

namespace Summary

/-- The summary in a JSON value that has its seven numbers. -/
def ofJson? (v : Json) : Option Summary := do
  let number (key : String) := (v.member? key).bind Json.natural?
  return {
    files := ← number "files"
    failedFiles := ← number "failed_files"
    classes := ← number "classes"
    roots := ← number "roots"
    orphans := ← number "orphans"
    maxDepth := ← number "max_depth"
    reports := ← number "reports" }

theorem ofJson?_toJson (s : Summary) : ofJson? s.toJson = some s := rfl

theorem plain_toJson (s : Summary) : s.toJson.Plain := .object (by simp [Json.Plain.natural])

end Summary

namespace FailedFile

def ofJson? (v : Json) : Option FailedFile := do
  return {
    path := ← (v.member? "path").bind Json.string?
    message := ← (v.member? "message").bind Json.string? }

theorem ofJson?_toJson (f : FailedFile) : ofJson? f.toJson = some f := rfl

theorem plain_toJson (f : FailedFile) : f.toJson.Plain := .object (by simp [Json.Plain.string])

end FailedFile

/-! ## Results -/

namespace ScanResults

/-- The results in a JSON value, member by member. -/
def ofJson? (v : Json) : Option ScanResults := do
  return {
    projectPath := ← (v.member? "project_path").bind Json.string?
    summary := ← (v.member? "summary").bind Summary.ofJson?
    reports := ← (v.member? "reports").bind (Json.list? Report.ofJson?)
    failures := ← (v.member? "failures").bind (Json.list? FailedFile.ofJson?) }

theorem member?_toJson (r : ScanResults) :
    r.toJson.member? "project_path" = some (.string r.projectPath) ∧
      r.toJson.member? "summary" = some r.summary.toJson ∧
      r.toJson.member? "reports" = some (.array (r.reports.map Report.toJson)) ∧
      r.toJson.member? "failures" = some (.array (r.failures.map FailedFile.toJson)) :=
  ⟨rfl, rfl, rfl, rfl⟩

theorem ofJson?_toJson {r : ScanResults} (h : ∀ x ∈ r.reports, x.LineFits) :
    ofJson? r.toJson = some r := by
  obtain ⟨hpath, hsummary, hreports, hfailures⟩ := r.member?_toJson
  have hlist := Json.list?_array_map fun x hx => Report.ofJson?_toJson (h x hx)
  have hfailed := Json.list?_array_map (l := r.failures) fun f _ => f.ofJson?_toJson
  simp [ofJson?, hpath, hsummary, hreports, hfailures, Json.string?, Summary.ofJson?_toJson, hlist,
    hfailed]

theorem plain_toJson (r : ScanResults) : r.toJson.Plain := by
  have hreports : (Json.array (r.reports.map Report.toJson)).Plain :=
    .array_map fun x _ => x.plain_toJson
  have hfailures : (Json.array (r.failures.map FailedFile.toJson)).Plain :=
    .array_map fun f _ => f.plain_toJson
  refine .object ?_
  simp [Json.Plain.string, Summary.plain_toJson, hreports, hfailures]

/-- The text is one document and a line end. It reads as a value from which the results come back:
the path, the numbers, and in order all reports and failures. -/
theorem jsonText_faithful (r : ScanResults) (h : ∀ x ∈ r.reports, x.LineFits) :
    ∃ document v, r.jsonText = document ++ "\n" ∧ Json.Writes (.value v) document.toList ∧
      Json.read? document = some v ∧ Json.read? r.jsonText = some v ∧ ofJson? v = some r :=
  ⟨r.toJson.render, r.toJson, rfl, Json.writes_pretty r.plain_toJson 0,
    Json.read?_render r.plain_toJson, Json.read?_render_line r.plain_toJson, ofJson?_toJson h⟩

/-- Results with every kind of absence, and texts that need escapes. -/
def awkward : ScanResults where
  projectPath := "src\\\"new\"\n"
  summary :=
    { files := 3, failedFiles := 1, classes := 18446744073709551615, roots := 2, orphans := 0
      maxDepth := 1, reports := 2 }
  reports :=
    [{ ancestorClass := "Größe", ancestorMethod := "\x00\x1f", descendantClass := "😀"
       descendantMethod := "", kind := .defaultValueDropped
       parameterPairs := [⟨some "a\tb", none⟩, ⟨none, some "null"⟩, ⟨none, none⟩]
       location := some { file := "a b.php", line := 18446744073709551615 } },
      { ancestorClass := "A", ancestorMethod := "m", descendantClass := "B"
        descendantMethod := "m", kind := .fewerParameters, parameterPairs := [] }]
  failures := [⟨"x.php", "line 1:\r\n\x08"⟩]

theorem awkward_faithful :
    (∀ x ∈ awkward.reports, x.LineFits) ∧
      ∃ document v, awkward.jsonText = document ++ "\n" ∧
        Json.Writes (.value v) document.toList ∧ Json.read? document = some v ∧
        Json.read? awkward.jsonText = some v ∧ ofJson? v = some awkward := by
  have hfit : ∀ x ∈ awkward.reports, x.LineFits := by decide
  exact ⟨hfit, jsonText_faithful awkward hfit⟩

end ScanResults

end Lineage
