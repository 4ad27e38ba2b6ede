import Lineage.Command.Run

/-!
# The program

Loads the files that a command line concerns, runs it on them, writes the files that changed,
prints, and exits with its status.
-/
namespace Lineage.Program

/-! ## Loading -/

/-- What stands at a place on disk, if anything does; with `links`, a link to a directory is one too.
Walks do not follow such links, and pipes, sockets and devices count as nothing. -/
def itemAt? (links : Bool) (place : List String) : IO (Option FileItem) := do
  let path := (← IO.appPath) / FileTree.pathOf place
  try
    match (← path.metadata).type with
    | .dir =>
      if !links && (← path.symlinkMetadata).type == .symlink then return none
      try
        let _ ← path.readDir
        return some .directory
      catch _ => return some .lockedDirectory
    | .file =>
      try
        return some (.file (← IO.FS.readBinFile path).toList)
      catch _ => return some .lockedFile
    | _ => return none
  catch _ => return none

/-- Stands for a working directory that has been removed: no name is empty. -/
def removed : List String := [""]

/-- Adds the item at a place, if there is one. -/
def loadItem (t : FileTree) (links : Bool) (place : List String) : IO FileTree := do
  if (t.item? place).isSome || removed.isPrefixOf place then return t
  match ← itemAt? links place with
  | some item => return t.put place item
  | none => return t

/-- Adds the directories that lead to a place, and the item there. -/
def loadTo (t : FileTree) (place : List String) : IO FileTree :=
  (List.range (place.length + 1)).foldlM (fun t n => loadItem t true (place.take n)) t

/-- The place of a path, taken piece by piece without looking at the disk. -/
def placeOf (workingDirectory : List String) (path : String) : List String :=
  (Path.pieces path).foldl (fun place piece =>
    if Path.isIdle piece then place
    else if piece == ['.', '.'] then place.dropLast
    else place ++ [String.ofList piece]) (if path.startsWith "/" then [] else workingDirectory)

def loadPath (t : FileTree) (path : String) : IO FileTree :=
  loadTo t (placeOf t.workingDirectory path)

/-- Adds the files that a `.git` leads to, if it is a file. -/
def loadShared (t : FileTree) (directory : List String) : IO FileTree := do
  let git := directory ++ [".git"]
  match t.item? git with
  | some (.file content) =>
    match Ignore.ownDirectory (FileTree.pathOf git) content with
    | .error _ => return t
    | .ok own =>
      let t ← loadPath t (Path.join own "commondir")
      match Ignore.sharedDirectory t (FileTree.pathOf git) content with
      | .error _ => return t
      | .ok shared => loadPath t (Path.join shared "info/exclude")
  | _ => return t

/-- Adds everything at a place and below it. -/
partial def loadBelow (t : FileTree) (place : List String) : IO FileTree := do
  let mut t ← loadItem t false place
  if t.isOpen place then
    for entry in ← ((← IO.appPath) / FileTree.pathOf place).readDir do
      t ← loadBelow t (place ++ [entry.fileName])
    t ← loadShared t place
  return t

/-- Adds the directories that lead to a place, with the files in them that can concern what is
below. -/
def loadAbove (t : FileTree) (place : List String) : IO FileTree := do
  let mut t ← loadTo t place
  for n in List.range (place.length + 1) do
    let directory := place.take n
    for names in [[Settings.fileName], [".ignore"], [".gitignore"], [".jj"],
        [".git", "info", "exclude"]] do
      t ← loadTo t (directory ++ names)
    t ← loadShared t directory
  return t

/-- What the user's own ignore file holds, at the place where it is by default. A place that the
settings of a repository give is not looked up. -/
def ownRules : IO (List UInt8) := do
  let settings ← match ← IO.getEnv "XDG_CONFIG_HOME" with
    | some directory => pure directory
    | none => pure (Path.join ((← IO.getEnv "HOME").getD "/") ".config")
  try
    return (← IO.FS.readBinFile (Path.join settings "git/ignore")).toList
  catch _ => return []

/-- The files that the command line concerns. -/
def load (args : List String) : IO FileTree := do
  let here ← try pure (placeOf [] (← IO.currentDir).toString) catch _ => pure removed
  let mut t : FileTree := { workingDirectory := here, ownRules := ← ownRules }
  t ← loadAbove t here
  match Command.readInvocation args with
  | .ok (.scan c) =>
    t ← loadAbove t (placeOf here c.path).dropLast
    t ← loadPath t c.path
    t ← loadBelow t (placeOf here c.path)
    for path in c.config.toList ++ c.output.toList do
      t ← loadPath t path
  | _ => pure ()
  return t

/-! ## Running -/

/-- Writes the files of `after` that are not so in `before`. No command locks anything. -/
def save (before after : FileTree) : IO Unit := do
  for (place, item) in after.items do
    if before.item? place != some item then
      match item with
      | .file content => IO.FS.writeBinFile (FileTree.pathOf place) (ByteArray.mk content.toArray)
      | .directory => IO.FS.createDirAll (FileTree.pathOf place)
      | .lockedFile | .lockedDirectory => pure ()

/-- Are colours shown where the program prints? -/
def showsColor : IO Bool := do
  if (← IO.getEnv "NO_COLOR").isSome then return false
  (← IO.getStdout).isTty

/-- Runs the command line on the files of the disk. -/
def run (args : List String) : IO UInt32 := do
  let before ← load args
  let exit := Command.run before (← showsColor) {} args
  save before exit.files
  (← IO.getStdout).putStr exit.printed
  if let some complaint := exit.complaint then
    (← IO.getStderr).putStrLn complaint
  return exit.status.toUInt32

end Lineage.Program

def main (args : List String) : IO UInt32 := Lineage.Program.run args
