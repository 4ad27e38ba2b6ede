import Lineage.Glob
import Lineage.Ignore.Rules
import Lineage.Text.Split

/-!
# Finding sources

`discover` lists the source files below a root: those with a wanted extension, not left out by an
ignore file or by a glob. A root that is itself a file is never left out by ignore files, and a root
called `-` stands for the standard input, where there are no files.

A walk meets files and faults, and the first fault ends it: a root that is not there, complaints about
ignore files above the root, or a directory anywhere below that cannot be listed. What is ignored is
not looked into, so its faults are not met.

The list is sorted by the components of the paths, so it does not depend on the order in which
directories list their names. `select` is the part that works on the names alone: what was walked,
in any order, gives the files of the scan.
-/
namespace Lineage

/-- What files to look for. -/
structure Search where
  root : String
  extensions : List String
  ignore : List Glob
  deriving Repr, Inhabited

namespace Search

/-- Does a file below the root, by the names that lead to it, take part in the scan? No names lead
to a root that is a file. -/
def wants (s : Search) (names : List String) : Bool :=
  let path := Path.descend s.root names
  match (Path.fileName? path).bind Path.extension? with
  | none => false
  | some ext =>
    s.extensions.contains (String.ofList (Text.asciiLower ext.toList)) &&
      !s.ignore.any fun g => g.accepts ("/".intercalate names) || g.accepts path

/-- Components are compared one by one, and a path comes before what is below it. -/
def precedes : List String → List String → Bool
  | [], _ => true
  | _ :: _, [] => false
  | a :: as, b :: bs => if a = b then precedes as bs else decide (a < b)

/-- The files of the scan among those walked, in order of their components. -/
def select (s : Search) (walked : List (List String)) : List String :=
  ((walked.filter s.wants).mergeSort precedes).map (Path.descend s.root)

end Search

/-- Why a walk is given up. -/
inductive WalkFault where
  /-- What stands at `path` cannot be looked at or into. -/
  | entry (path : String) (fault : FileFault)
  /-- There are complaints about ignore files above the root. -/
  | rules (complaints : List String)
  deriving DecidableEq, Repr, Inhabited

def WalkFault.text : WalkFault → String
  | entry path fault => path ++ ": IO error for operation on " ++ path ++ ": " ++ fault.systemText
  | rules complaints => "\n".intercalate complaints

namespace FileTree

/-- Is the path too long for the system? -/
def exceedsLimit (path : String) : Bool := pathLimit < path.utf8ByteSize

/-- Why the directory at `place` cannot be listed by its path, if so. -/
def listFault? (t : FileTree) (path : String) (place : List String) : Option FileFault :=
  if exceedsLimit path then some .tooLong
  else if t.isOpen place then none
  else some .other

/-- What a walk meets below `place`: faults, and files by the names that lead to them from the root;
`above` are the names down to `place`. Directories are entered down to the given depth. A file whose
path is too long is no file to the walk. -/
def walkBelow (t : FileTree) (root : String) :
    Nat → List String → List String → List (Except WalkFault (List String))
  | 0, _, _ => []
  | depth + 1, place, above =>
    match t.listFault? (Path.descend root above) place with
    | some fault => [.error (.entry (Path.descend root above) fault)]
    | none =>
      let levels := Ignore.levels t place
      (t.names place).flatMap fun name =>
        let here := place ++ [name]
        let isDirectory := t.isDirectory here
        if Ignore.isIgnored t levels here isDirectory then []
        else if isDirectory then t.walkBelow root depth here (above ++ [name])
        else if exceedsLimit (Path.descend root (above ++ [name])) then []
        else [.ok (above ++ [name])]

/-- What a walk of a directory meets first: the complaints about ignore files above it. -/
def complaintsMet (t : FileTree) (place : List String) : List (Except WalkFault (List String)) :=
  match Ignore.complaintsAbove t place with
  | [] => []
  | complaints => [.error (.rules complaints)]

/-- What a walk from the root meets; the root alone if it is a file. No path is longer than the
number of items. -/
def met (t : FileTree) (root : String) : List (Except WalkFault (List String)) :=
  if root = "-" then []
  else
    match t.locate root with
    | .error fault => [.error (.entry root fault)]
    | .ok place =>
      if t.isDirectory place then
        t.complaintsMet place ++ t.walkBelow root (t.items.length + 1) place []
      else [.ok []]

/-- The files of a walk, each by the names that lead to it from the root, or its first fault. -/
def walk (t : FileTree) (root : String) : Except WalkFault (List (List String)) :=
  (t.met root).mapM id

end FileTree

/-- The files of a scan, in order, from what the walk of the root gave. -/
def Search.discover (s : Search) (walked : Except WalkFault (List (List String))) :
    Except Failure (List String) :=
  match walked with
  | .ok walked => .ok (s.select walked)
  | .error fault => .error (.files fault.text)

/-- A search whose ignore patterns are still text. The first pattern with a fault is reported. -/
def Search.ofPatterns (root : String) (extensions ignore : List String) :
    Except Failure Search := do
  return { root := root, extensions := extensions, ignore := ← ignore.mapM Glob.parse }

end Lineage
