import Lineage.Discovery
import Lineage.Scan.Results

/-!
# Running a scan

Sources are discovered, extracted and checked; a file of records is only checked. A scan fails as a
whole only if an ignore pattern has a fault, if the walk of the sources is given up, or if the records
do not load.

Of the files, a scan of sources depends on two things: what the walk of the root yields, and how
each file reads. A `Project` is those two.
-/
namespace Lineage

/-- What to scan. -/
inductive ScanInput where
  /-- A directory of sources, or a single one. -/
  | sources (root : String)
  /-- A file of class records. -/
  | records (path : String)
  deriving DecidableEq, Repr, Inhabited

def ScanInput.path : ScanInput → String
  | sources root => root
  | records path => path

/-- Sources as a scan sees them. -/
structure Project where
  root : String
  /-- The files below the root as the walk yields them, each by the names that lead to it. -/
  walked : Except WalkFault (List (List String))
  reader : SourceReader

namespace Project

/-- The files of a scan, in order. -/
def files (p : Project) (options : ScanOptions) : Except Failure (List String) := do
  let search ← Search.ofPatterns p.root options.extensions options.ignore
  search.discover p.walked

def scan (p : Project) (options : ScanOptions) (schedules : Schedules) :
    Except Failure ScanResults := do
  let files ← p.files options
  return .ofExtraction options schedules.trees p.root files.length
    (p.reader.extractAll options.parallel schedules.files files)

end Project

namespace FileTree

def project (t : FileTree) (root : String) : Project :=
  { root := root, walked := t.walk root, reader := t.reader }

/-- The sources of a scan, in order. -/
def sources (t : FileTree) (root : String) (options : ScanOptions) :
    Except Failure (List String) :=
  (t.project root).files options

def scan (t : FileTree) (input : ScanInput) (options : ScanOptions) (schedules : Schedules) :
    Except Failure ScanResults :=
  match input with
  | .records path => do
    let classes ← t.loadRecords path
    return .ofExtraction options schedules.trees path 0 { classes := classes }
  | .sources root => (t.project root).scan options schedules

end FileTree

end Lineage
