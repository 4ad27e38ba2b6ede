import Lineage.Json.Printer
import Lineage.Output.Format
import Lineage.Output.Style
import Lineage.Output.Table
import Lineage.Scan.Results

/-!
# Writing results

The results of a scan in one of three forms: JSON for machines, Markdown for documents, and text
with tables for a terminal, which alone may have colours.
-/
namespace Lineage

/-! ## JSON -/

def Summary.toJson (s : Summary) : Json :=
  .object [("files", .natural s.files), ("failed_files", .natural s.failedFiles),
    ("classes", .natural s.classes), ("roots", .natural s.roots), ("orphans", .natural s.orphans),
    ("max_depth", .natural s.maxDepth), ("reports", .natural s.reports)]

def FailedFile.toJson (f : FailedFile) : Json :=
  .object [("path", .string f.path), ("message", .string f.message)]

def ScanResults.toJson (r : ScanResults) : Json :=
  .object [("project_path", .string r.projectPath), ("summary", r.summary.toJson),
    ("reports", .array (r.reports.map Report.toJson)),
    ("failures", .array (r.failures.map FailedFile.toJson))]

/-- One document, and a line end. -/
def ScanResults.jsonText (r : ScanResults) : String := r.toJson.render ++ "\n"

/-! ## Lines -/

/-- The lines, each with its line end. -/
def textOfLines (lines : List String) : String := String.join (lines.map (· ++ "\n"))

/-! ## Markdown -/

def Report.markdownLines (r : Report) : List String :=
  ["## `" ++ r.ancestorId ++ "` vs `" ++ r.descendantId ++ "`", ""] ++
    (match r.location with
      | some l => ["Location: `" ++ l.text ++ "`", ""]
      | none => []) ++
    ["| " ++ r.ancestorId ++ " | " ++ r.descendantId ++ " |", "|---|---|"] ++
    (r.parameterPairs.map fun p => "| " ++ p.cells.1 ++ " | " ++ p.cells.2 ++ " |") ++
    ["", "Result: " ++ r.kind.text, ""]

def ScanResults.markdownText (r : ScanResults) : String :=
  let s := r.summary
  let metric (name : String) (n : Nat) := "| " ++ name ++ " | " ++ toString n ++ " |"
  textOfLines
    (["# Signature Compatibility Report", "", "Scanned: `" ++ r.projectPath ++ "`", "",
      "| Metric | Value |", "|--------|-------|", metric "Files" s.files,
      metric "Unparsable files" s.failedFiles, metric "Classes" s.classes,
      metric "Hierarchy roots" s.roots, metric "Orphans" s.orphans,
      metric "Discrepancies" s.reports, ""] ++ r.reports.flatMap Report.markdownLines)

/-! ## Terminal -/

def Report.terminalLines (color : Bool) (r : Report) : List String :=
  ["", Style.redBold.paint color "Signature mismatch between" ++ " " ++
      Style.yellow.paint color r.ancestorId ++ " and " ++
      Style.yellow.paint color r.descendantId] ++
    (match r.location with
      | some l => ["  at " ++ Style.dimmed.paint color l.text]
      | none => []) ++
    [r.table.text, "Result: " ++ r.kind.text]

def ScanResults.failureLines (color : Bool) (r : ScanResults) : List String :=
  if r.failures.isEmpty then []
  else
    ["", Style.yellowBold.paint color "Skipped files" ++ " (" ++
      toString r.failures.length ++ "):"] ++
      r.failures.map fun f => "  - " ++ f.message

def Summary.terminalLines (color : Bool) (s : Summary) : List String :=
  let count := if s.reports = 0 then Style.green else Style.red
  ["", Style.bold.paint color "Summary:", "  Files scanned: " ++ toString s.files,
    "  Classes: " ++ toString s.classes,
    "  Hierarchy roots: " ++ toString s.roots ++ " (" ++ toString s.orphans ++ " orphans)",
    "  Deepest chain: " ++ toString s.maxDepth,
    "  Discrepancies: " ++ count.paint color (toString s.reports)]

def ScanResults.terminalText (color : Bool) (r : ScanResults) : String :=
  textOfLines (r.reports.flatMap (Report.terminalLines color) ++ r.failureLines color ++
    r.summary.terminalLines color)

/-! ## All forms -/

/-- The results in the given form; only the terminal form has colours. -/
def ScanResults.render (r : ScanResults) (format : OutputFormat) (color : Bool) : String :=
  match format with
  | .json => r.jsonText
  | .markdown => r.markdownText
  | .terminal => r.terminalText color

end Lineage
