import Lineage.FileTree
import Lineage.Glob
import Lineage.Settings.Basic
import Lineage.Toml.Reader

/-!
# Settings files

A settings file is a TOML text whose values are also checked: the format has to be one of the three
by its exact name, and every ignore pattern has to be a glob. Extensions lose their leading dots and
capitals.

A file asked for by name has to load. Otherwise the working directory and those above it are
searched, at most ten in all: the first file that loads counts, files that do not load are passed
over, and without any the defaults hold.
-/
namespace Lineage.Settings

/-- The name under which settings files are searched. -/
def fileName : String := ".sigmap.toml"

/-- How many directories are searched. -/
def searchDepth : Nat := 10

/-- The formats by the names that a settings file may use. -/
def formatNames : List String := ["terminal", "markdown", "json"]

/-- The settings file that is written to start with. -/
def starterText : String :=
  "# Sigmap Configuration\n\n" ++
  "[scan]\n" ++
  "extensions = [\"php\"]\n" ++
  "ignore = [\n    \"vendor/**\",\n    \"node_modules/**\",\n]\n\n" ++
  "[output]\n" ++
  "default_format = \"terminal\"\n\n" ++
  "[analysis]\n" ++
  "# Kinds left out of the report, e.g. [\"default_value_dropped\"]\n" ++
  "ignore_kinds = []\n" ++
  "fail_on_discrepancy = false\n" ++
  "parallel = true\n"

/-! ## Checking -/

def checkFormat (s : Settings) : Except Failure Unit :=
  match s.output.defaultFormat with
  | none => .ok ()
  | some name =>
    if formatNames.contains name then .ok ()
    else .error (.configuration ("unknown output format '" ++ name ++ "', expected one of " ++
      ", ".intercalate formatNames))

/-- The first ignore pattern with a fault is reported. -/
def checkIgnore (s : Settings) : Except Failure Unit :=
  s.scan.ignore.forM fun pattern => (Glob.parse pattern).map fun _ => ()

/-- An extension without leading dots and ASCII capitals. -/
def normalizeExtension (extension : String) : String :=
  String.ofList (Text.asciiLower (extension.toList.dropWhile (· == '.')))

/-- Reads and checks the text of a settings file. -/
def parse (text : String) : Except Failure Settings :=
  match (Toml.read? text).bind ofToml? with
  | none => .error .settings
  | some s => do
    s.checkFormat
    s.checkIgnore
    return { s with scan := { s.scan with extensions := s.scan.extensions.map normalizeExtension } }

/-! ## Loading -/

/-- Loads the file at `path`. -/
def load (t : FileTree) (path : String) : Except Failure Settings :=
  match t.readText path with
  | .error fault => .error (.unreadable "Failed to read config file" path fault)
  | .ok text => parse text

/-- The settings of one directory, if it has a file that loads. -/
def inDirectory? (t : FileTree) (directory : String) : Option Settings :=
  (load t (Path.join directory fileName)).toOption

/-- The settings found from the directory `start` upward. -/
def search (t : FileTree) (start : String) : Settings :=
  ((Path.ancestors start searchDepth).findSome? (inDirectory? t)).getD {}

end Lineage.Settings
