import Lineage.FileTree
import Lineage.Ignore.Pattern
import Lineage.Text.Blank

/-!
# Ignore files

Which files a walk leaves out. A rule is one line of an ignore file; it concerns paths below the
file's directory. The last rule of a file that matches decides, and a rule that starts with an
exclamation mark lets a path in again.

Of several files the nearest one with a matching rule decides. `.ignore` files go before
`.gitignore` files, those before `.git/info/exclude`, and last comes the user's own file. All but the
first kind count only inside a repository, which is a directory tree with a `.git` or a `.jj`, and
those of directories only up to the nearest one that has either.

A line that is no pattern is passed over, but there is a complaint about it. Complaints about files
above the root of a walk make the walk fail.
-/
namespace Lineage.Ignore

structure Rule where
  steps : List Step
  /-- Paths that match are let in, not left out. -/
  allows : Bool := false
  directoriesOnly : Bool := false
  deriving Repr, Inhabited

/-! ## Reading -/

/-- A line without the blanks at its end, unless the last one is escaped. -/
def trimLine (line : List Char) : List Char :=
  if Text.endsWith ['\\', ' '] line then line else Text.trimEnd line

/-- The line without its slash at the end, and whether it had one. An escape before the slash goes
too. -/
def dropSlash (line : List Char) : List Char × Bool :=
  match line.reverse with
  | '/' :: '\\' :: rest => (rest.reverse, true)
  | '/' :: rest => (rest.reverse, true)
  | _ => (line, false)

/-- The pattern that a line stands for: without a slash it matches in any directory, and what ends
in `/**` matches only inside. -/
def completePattern (anchored : Bool) (line : List Char) : List Char :=
  let starts := line == ['*', '*'] || (Text.stripPrefix? ['*', '*', '/'] line).isSome
  let placed := if !anchored && !line.contains '/' && !starts then ['*', '*', '/'] ++ line else line
  if Text.endsWith ['/', '*', '*'] placed then placed ++ ['/', '*'] else placed

/-- The rule of a line. Comments and empty lines give none. -/
def Rule.ofLine (line : List Char) : Except PatternFault (Option Rule) :=
  if line.head? == some '#' then .ok none
  else
    match trimLine line with
    | [] => .ok none
    | '\\' :: '!' :: rest => build false false ('!' :: rest)
    | '\\' :: '#' :: rest => build false false ('#' :: rest)
    | '!' :: '/' :: rest => build true true rest
    | '!' :: rest => build true false rest
    | '/' :: rest => build false true rest
    | rest => build false false rest
where
  build (allows anchored : Bool) (line : List Char) : Except PatternFault (Option Rule) :=
    let (line, directoriesOnly) := dropSlash line
    (readPattern (completePattern anchored line)).map fun steps =>
      some { steps := steps, allows := allows, directoriesOnly := directoriesOnly }

/-- The line read so far, last byte first, without the carriage return of its line end. -/
def finishLine (line : List UInt8) : List UInt8 :=
  match line with
  | 13 :: rest => rest.reverse
  | _ => line.reverse

/-- The lines of the bytes, without line ends. `line` is what was read of the first, last byte
first. -/
def byteLines (line : List UInt8) : List UInt8 → List (List UInt8)
  | [] => if line.isEmpty then [] else [line.reverse]
  | b :: rest => if b = 10 then finishLine line :: byteLines [] rest else byteLines (b :: line) rest

/-- The text of the lines up to the first one that is not UTF-8. -/
def decodedLines : List (List UInt8) → List (List Char)
  | [] => []
  | line :: lines =>
    match Text.Utf8.decode? line with
    | some text => text.toList :: decodedLines lines
    | none => []

/-- An ignore file that was read: its rules, and what there is to say against its lines. -/
structure RuleFile where
  rules : List Rule := []
  complaints : List String := []
  deriving Repr, Inhabited

/-- The complaint about one line of the file at `path`. -/
def complaint (path : String) (number : Nat) (text : String) : String :=
  path ++ ": line " ++ toString number ++ ": " ++ text

/-- The rules of the lines, the first of which has the given number, and the complaints. -/
def readLines (path : String) (number : Nat) : List (List Char) → RuleFile
  | [] => {}
  | line :: lines =>
    let rest := readLines path (number + 1) lines
    match Rule.ofLine line with
    | .ok none => rest
    | .ok (some rule) => { rest with rules := rule :: rest.rules }
    | .error fault =>
      let text := "error parsing glob '" ++ String.ofList (trimLine line) ++ "': " ++ fault.text
      { rest with complaints := complaint path number text :: rest.complaints }

/-- Reads an ignore file. A byte order mark at its start is skipped. A line that is not UTF-8 ends
it, and counts among the complaints only if there are others. -/
def readFile (path : String) (bytes : List UInt8) : RuleFile :=
  let all := byteLines [] bytes
  let lines := decodedLines all
  let read := readLines path 1 (match lines with
    | [] => []
    | first :: more => first.dropWhile (·.toNat == 0xFEFF) :: more)
  if read.complaints.isEmpty || lines.length = all.length then read
  else
    let last := complaint path (lines.length + 1) FileFault.notText.systemText
    { read with complaints := read.complaints ++ [last] }

/-! ## Deciding -/

/-- What the rules say of a path below their directory: left out, let in, or nothing. -/
def verdict? (rules : List Rule) (path : List UInt8) (isDirectory : Bool) : Option Bool :=
  (rules.reverse.find? fun r =>
    (isDirectory || !r.directoriesOnly) && acceptsSteps r.steps path).map fun r => !r.allows

/-- The ignore files of one directory. -/
structure Level where
  directory : List String
  ignore : List Rule
  gitIgnore : List Rule
  gitExclude : List Rule
  /-- Is it the top directory of a repository? -/
  hasGit : Bool
  /-- The complaints about its ignore files. -/
  complaints : List String

/-- The first line of a text file. An empty file has none, and nothing is said about that. -/
def firstLine (path : String) (bytes : List UInt8) : Except (List String) String :=
  match byteLines [] bytes with
  | [] => .error []
  | line :: _ =>
    match Text.Utf8.decode? line with
    | some text => .ok text
    | none => .error [path ++ ": " ++ FileFault.notText.systemText]

/-- The repository's own directory, if its `.git` is a file at `path` with this content, which names
it; else the complaints. -/
def ownDirectory (path : String) (content : List UInt8) : Except (List String) String := do
  let line ← firstLine path content
  match Text.stripPrefix? "gitdir: ".toList line.toList with
  | some own => return String.ofList own
  | none => .error []

/-- The directory that the repository shares with others. A file in its own directory names it. -/
def sharedDirectory (t : FileTree) (path : String) (content : List UInt8) :
    Except (List String) String := do
  let own ← ownDirectory path content
  let common := Path.join own "commondir"
  match t.read common with
  | .error _ => .error []
  | .ok bytes =>
    let shared ← firstLine common bytes
    return if shared.startsWith "." then Path.join own shared else shared

/-- The ignore file at `place`; nothing if it cannot be read. -/
def fileAt (t : FileTree) (place : List String) : RuleFile :=
  match t.item? place with
  | some (.file content) => readFile (FileTree.pathOf place) content
  | _ => {}

/-- The rules that a repository keeps to itself. -/
def excludeFile (t : FileTree) (directory : List String) : RuleFile :=
  let git := FileTree.pathOf (directory ++ [".git"])
  match t.item? (directory ++ [".git"]) with
  | some (.file content) =>
    match sharedDirectory t git content with
    | .error complaints => { complaints := complaints }
    | .ok shared =>
      match t.read (Path.join shared "info/exclude") with
      | .ok bytes => readFile (Path.join shared "info/exclude") bytes
      | .error _ => {}
  | some .lockedFile => { complaints := [git ++ ": " ++ FileFault.other.systemText] }
  | _ => fileAt t (directory ++ [".git", "info", "exclude"])

def levelAt (t : FileTree) (directory : List String) : Level :=
  let ignore := fileAt t (directory ++ [".ignore"])
  let gitIgnore := fileAt t (directory ++ [".gitignore"])
  let gitExclude := excludeFile t directory
  { directory := directory
    ignore := ignore.rules
    gitIgnore := gitIgnore.rules
    gitExclude := gitExclude.rules
    hasGit := (t.item? (directory ++ [".git"])).isSome || (t.item? (directory ++ [".jj"])).isSome
    complaints := ignore.complaints ++ gitIgnore.complaints ++ gitExclude.complaints }

/-- The levels of a directory and of all above it, the nearest first. -/
def levels (t : FileTree) (directory : List String) : List Level :=
  ((List.range (directory.length + 1)).map fun n => levelAt t (directory.take n)).reverse

/-- The complaints about the ignore files above a directory, from the top down. -/
def complaintsAbove (t : FileTree) (directory : List String) : List String :=
  (levels t directory).tail.reverse.flatMap (·.complaints)

/-- The levels up to the first with a repository. -/
def upToGit : List Level → List Level
  | [] => []
  | l :: ls => if l.hasGit then [l] else l :: upToGit ls

/-- What the user's own rules say of the item at `place`. They see a path below the working directory
from there, and any other from the top. -/
def ownVerdict? (t : FileTree) (place : List String) (isDirectory : Bool) : Option Bool :=
  let path :=
    if t.workingDirectory.isPrefixOf place then
      "/".intercalate (place.drop t.workingDirectory.length)
    else FileTree.pathOf place
  verdict? (readFile "" t.ownRules).rules (Text.Utf8.encode path) isDirectory

/-- Is the item at `place`, a directory or a file, left out of walks by the ignore files at
`levels` and by the user's own? -/
def isIgnored (t : FileTree) (levels : List Level) (place : List String) (isDirectory : Bool) :
    Bool :=
  let ask (rules : Level → List Rule) (l : Level) : Option Bool :=
    verdict? (rules l)
      (Text.Utf8.encode ("/".intercalate (place.drop l.directory.length))) isDirectory
  let inRepository := levels.any (·.hasGit)
  let gitLevels := if inRepository then upToGit levels else []
  let answer := (levels.findSome? (ask (·.ignore))).or
    ((gitLevels.findSome? (ask (·.gitIgnore))).or
      ((gitLevels.findSome? (ask (·.gitExclude))).or
        (if inRepository then ownVerdict? t place isDirectory else none)))
  answer.getD false

end Lineage.Ignore
