import Lineage.Forest.Build
import Lineage.Override.Analysis
import Lineage.Record.Report
import Lineage.Scan.Extraction

/-!
# Results of a scan

What a scan reports: the incompatible overrides that were asked for, the files that failed, and the
numbers that sum it up. `ofExtraction` says how results follow from the records that were collected.
-/
namespace Lineage

/-- The numbers that sum up a scan. -/
structure Summary where
  files : Nat := 0
  failedFiles : Nat := 0
  classes : Nat := 0
  roots : Nat := 0
  orphans : Nat := 0
  maxDepth : Nat := 0
  reports : Nat := 0
  deriving DecidableEq, Repr, Inhabited

structure FailedFile where
  path : String
  message : String
  deriving DecidableEq, Repr, Inhabited

structure ScanResults where
  projectPath : String
  summary : Summary
  reports : List Report
  failures : List FailedFile
  deriving DecidableEq, Repr, Inhabited

/-- The orders in which the tasks of the two phases finish. -/
structure Schedules where
  files : Schedule := .inOrder
  trees : Schedule := .inOrder

structure ScanOptions where
  extensions : List String := ["php"]
  /-- Globs of paths to leave out. -/
  ignore : List String := []
  /-- Kinds of discrepancy to leave out. -/
  ignoreKinds : List Verdict := []
  parallel : Bool := true
  deriving DecidableEq, Repr, Inhabited

namespace ScanResults

def hasDiscrepancies (r : ScanResults) : Bool := !r.reports.isEmpty

/-- All reports about the forest, the trees checked side by side or one after the other. -/
def allReports (options : ScanOptions) (schedule : Schedule) (f : Forest) : List Report :=
  if options.parallel then f.analyzeParallel schedule else f.analyze

/-- The results for the records of `files` files. Reports of ignored kinds are left out and not
counted. -/
def ofExtraction (options : ScanOptions) (schedule : Schedule) (projectPath : String) (files : Nat)
    (e : Extraction) : ScanResults :=
  let f := Forest.build e.classes
  let stats := f.stats
  let reports := (allReports options schedule f).filter fun r =>
    !options.ignoreKinds.contains r.kind
  { projectPath := projectPath
    summary :=
      { files := files
        failedFiles := e.failures.length
        classes := stats.classes
        roots := stats.roots
        orphans := stats.orphans
        maxDepth := stats.maxDepth
        reports := reports.length }
    reports := reports
    failures := e.failures.map fun (path, f) => { path := path, message := f.message } }

end ScanResults

end Lineage
