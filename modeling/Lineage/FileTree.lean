import Lineage.Failure
import Lineage.Path
import Lineage.Text.Utf8

/-!
# File trees

The files that a command sees, as a value: each file and directory below the top one by the list of
names that leads to it. Relative paths start at the working directory, which may have been removed.

A path is followed piece by piece, and each piece but the last has to be a directory that exists. So
`missing/../a.php` is not found, and `a.php/b` is refused because `a.php` is no directory. A name
has at most 255 bytes, and a path at most 4095.

Permissions are all or none: what is locked can be seen, but a locked file cannot be read or written,
and a locked directory cannot be listed or entered. There are no links in a tree: a link to a file
stands there as the file, and one to a directory not at all. Pipes, sockets and devices are left out
too.
-/
namespace Lineage

/-- What a name stands for. -/
inductive FileItem where
  | file (content : List UInt8)
  | directory
  | lockedFile
  | lockedDirectory
  deriving DecidableEq, Repr, Inhabited

/-- Is it a directory, be it locked or not? -/
def FileItem.isDirectory : FileItem → Bool
  | directory | lockedDirectory => true
  | file _ | lockedFile => false

structure FileTree where
  /-- Every item with the names that lead to it; the top directory is not listed. -/
  items : List (List String × FileItem) := []
  /-- The working directory. -/
  workingDirectory : List String := []
  /-- What the user's own ignore file holds, which counts in every repository. -/
  ownRules : List UInt8 := []
  deriving DecidableEq, Repr, Inhabited

namespace FileTree

/-- The path of a place. -/
def pathOf (place : List String) : String := "/" ++ "/".intercalate place

/-! ## Looking -/

/-- What stands at `place`. -/
def item? (t : FileTree) (place : List String) : Option FileItem :=
  if place = [] then some .directory else t.items.lookup place

def isDirectory (t : FileTree) (place : List String) : Bool :=
  (t.item? place).any FileItem.isDirectory

/-- Is it a directory that is not locked? -/
def isOpen (t : FileTree) (place : List String) : Bool := t.item? place == some .directory

/-- The working directory as a path, unless it has been removed. -/
def workingPath? (t : FileTree) : Option String :=
  if t.isDirectory t.workingDirectory then some (pathOf t.workingDirectory) else none

/-- The names in the directory at `place`. -/
def names (t : FileTree) (place : List String) : List String :=
  t.items.filterMap fun (p, _) =>
    if p.dropLast = place then p.getLast? else none

/-- The greatest number of bytes in a name. -/
def nameLimit : Nat := 255

/-- The greatest number of bytes in a path. -/
def pathLimit : Nat := 4095

/-- Follows the pieces from `place`. The last piece need not exist. -/
def follow (t : FileTree) (place : List String) : List String → Except FileFault (List String)
  | [] => .ok place
  | piece :: rest =>
    match t.item? place with
    | none => .error .notFound
    | some (.file _) => .error .notDirectory
    | some .lockedFile => .error .notDirectory
    | some .lockedDirectory => .error .other
    | some .directory =>
      if piece = "" ∨ piece = "." then follow t place rest
      else if piece = ".." then follow t place.dropLast rest
      else if nameLimit < piece.utf8ByteSize then .error .tooLong
      else follow t (place ++ [piece]) rest

/-- The place that a path leads to, which need not exist. -/
def resolve (t : FileTree) (path : String) : Except FileFault (List String) :=
  if path.isEmpty then .error .notFound
  else if '\x00' ∈ path.toList then .error .zeroByte
  else if pathLimit < path.utf8ByteSize then .error .tooLong
  else
    let start := if path.startsWith "/" then [] else t.workingDirectory
    t.follow start ((Path.pieces path).map String.ofList)

/-- The place of something that exists. -/
def locate (t : FileTree) (path : String) : Except FileFault (List String) := do
  let place ← t.resolve path
  if (t.item? place).isSome then return place else .error .notFound

def contains (t : FileTree) (path : String) : Bool := (t.locate path).isOk

/-! ## Reading -/

/-- The bytes of a file. -/
def read (t : FileTree) (path : String) : Except FileFault (List UInt8) := do
  let place ← t.resolve path
  match t.item? place with
  | some (.file content) => return content
  | some .directory => .error .isDirectory
  | some .lockedFile => .error .other
  | some .lockedDirectory => .error .other
  | none => .error .notFound

/-- The text of a file that is UTF-8. -/
def readText (t : FileTree) (path : String) : Except FileFault String := do
  match Text.Utf8.decode? (← t.read path) with
  | some text => return text
  | none => .error .notText

/-! ## Changing -/

/-- The tree with `item` at `place`. -/
def put (t : FileTree) (place : List String) (item : FileItem) : FileTree :=
  { t with items := t.items.filter (fun (p, _) => p ≠ place) ++ [(place, item)] }

/-- Why no file can be created at `place`, or emptied there, if so. -/
def createFault? (t : FileTree) (place : List String) : Option FileFault :=
  match t.item? place with
  | none => none
  | some (.file _) => none
  | some .lockedFile => some .other
  | some .directory => some .isDirectory
  | some .lockedDirectory => some .isDirectory

/-- Creates an empty file at a path whose directory exists, and gives its place too. A file that is
there already loses its content. -/
def create (t : FileTree) (path : String) : Except FileFault (List String × FileTree) :=
  if path.endsWith "/" then do
    -- A slash at the end asks for a directory, whatever is there.
    let _ ← t.resolve (Path.dropSlashes path)
    .error .isDirectory
  else do
    let place ← t.resolve path
    match t.createFault? place with
    | some fault => .error fault
    | none => return (place, t.put place (.file []))

/-- Adds `bytes` at the end of the file at `place`. -/
def append (t : FileTree) (place : List String) (bytes : List UInt8) : FileTree :=
  match t.item? place with
  | some (.file content) => t.put place (.file (content ++ bytes))
  | _ => t

/-- The tree with the directory `dir` and those above it. -/
def makeDirectories (t : FileTree) (dir : List String) : FileTree :=
  (List.range (dir.length + 1)).foldl (fun t n =>
    let place := dir.take n
    if (t.item? place).isSome then t else t.put place .directory) t

/-- The tree without what stands at `place` or below. -/
def remove (t : FileTree) (place : List String) : FileTree :=
  { t with items := t.items.filter fun (p, _) => !(place.isPrefixOf p) }

end FileTree

end Lineage
