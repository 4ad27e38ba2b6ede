import Lineage.FileTree
import Lineage.Json.Reader
import Lineage.Parallel
import Lineage.Php.Extraction
import Lineage.Record.Class

/-!
# Collecting class records

Records come from sources, each file on its own, or from a file of records. A source that cannot be
read or parsed is noted and costs only itself. Records are in file order, and in source order within
a file.
-/
namespace Lineage

/-- What came of a list of files. -/
structure Extraction where
  classes : List ClassDecl := []
  /-- The files that gave no records, with the reason. -/
  failures : List (String × Failure) := []
  deriving DecidableEq, Repr, Inhabited

/-- What came of one file. -/
abbrev FileOutcome := Except Failure (List ClassDecl)

namespace Extraction

/-- The classes of the files that succeeded, and the failures of the others. -/
def ofOutcomes (outcomes : List (String × FileOutcome)) : Extraction where
  classes := outcomes.flatMap fun (_, o) => match o with
    | .ok classes => classes
    | .error _ => []
  failures := outcomes.filterMap fun (path, o) => match o with
    | .ok _ => none
    | .error f => some (path, f)

end Extraction

/-- How sources become classes: what reading a file gives, and what is found in its bytes. -/
structure SourceReader where
  read : String → Except FileFault (List UInt8)
  extract : String → List UInt8 → FileOutcome

namespace SourceReader

/-- The classes of one source. A file that never mentions `class` is not parsed. -/
def extractFile (r : SourceReader) (path : String) : FileOutcome :=
  match r.read path with
  | .error fault => .error (.unreadable "Failed to read source file" path fault)
  | .ok bytes => if Php.mayDeclareClass bytes then r.extract path bytes else .ok []

/-- The classes of many sources. -/
def extractAll (r : SourceReader) (parallel : Bool) (schedule : Schedule) (files : List String) :
    Extraction :=
  .ofOutcomes (files.zip (Parallel.mapIf parallel schedule r.extractFile files))

end SourceReader

namespace FileTree

/-- Files of the tree, with classes as PHP declares them. -/
def reader (t : FileTree) : SourceReader := { read := t.read, extract := Php.extract }

def extractFile (t : FileTree) (path : String) : FileOutcome := t.reader.extractFile path

def extractAll (t : FileTree) (parallel : Bool) (schedule : Schedule) (files : List String) :
    Extraction :=
  t.reader.extractAll parallel schedule files

/-- The records in a file of them. -/
def loadRecords (t : FileTree) (path : String) : FileOutcome :=
  match t.readText path with
  | .error fault => .error (.unreadable "Failed to read class records" path fault)
  | .ok text =>
    match ClassDecl.listOfText? text with
    | some classes => .ok classes
    | none => .error (.during ("Invalid class records in " ++ path) .records)

end FileTree

end Lineage
