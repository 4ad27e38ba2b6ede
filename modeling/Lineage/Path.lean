import Lineage.Text.Split

/-!
# Paths

Paths are kept as they were given: `src/../a//b.php` stays so in messages and results. What is asked
of them here concerns their text alone and no file is looked at.

Between slashes, empty pieces and single dots say nothing, but the first piece does: nothing there
means the top directory, and a dot is kept.
-/
namespace Lineage.Path

/-- The pieces between the slashes. -/
def pieces (path : String) : List (List Char) := Text.split '/' path.toList

/-- A piece behind the first that says nothing. -/
def isIdle (piece : List Char) : Bool := piece.isEmpty || piece == ['.']

/-- The directory that a path is in: all but its last piece. A path of no pieces has none. -/
def parent? (path : String) : Option String :=
  match pieces path with
  | [] => none
  | first :: rest =>
    match rest.reverse.dropWhile isIdle with
    | _ :: before =>
      let kept := (before.dropWhile isIdle).reverse
      if first.isEmpty && kept.isEmpty then some "/"
      else some (String.ofList (Text.join ['/'] (first :: kept)))
    | [] => if first.isEmpty then none else some ""

/-- The path and the directories above it, at most `limit` of them in all. -/
def ancestors (path : String) : Nat → List String
  | 0 => []
  | limit + 1 =>
    path :: match parent? path with
      | none => []
      | some up => ancestors up limit

/-- `name` inside the directory `dir`. -/
def join (dir name : String) : String :=
  if dir.isEmpty || name.startsWith "/" then name
  else if dir.endsWith "/" then dir ++ name
  else dir ++ "/" ++ name

/-- The path without the slashes at its end. The top directory keeps its own. -/
def dropSlashes (path : String) : String :=
  match path.toList.reverse.dropWhile (· == '/') with
  | [] => path
  | kept => String.ofList kept.reverse

/-- The names in `names` one inside the other, below `dir`. -/
def descend (dir : String) (names : List String) : String := names.foldl join dir

/-- The name that a path ends with. -/
def fileName? (path : String) : Option String :=
  match ((pieces path).reverse.dropWhile isIdle) with
  | last :: _ => if last == ['.', '.'] then none else some (String.ofList last)
  | [] => none

/-- What stands behind the last dot of a file name, unless the name starts with that dot. -/
def extension? (name : String) : Option String :=
  let back := name.toList.reverse
  match back.dropWhile (· != '.') with
  | _ :: _ :: _ => some (String.ofList (back.takeWhile (· != '.')).reverse)
  | _ => none

end Lineage.Path
