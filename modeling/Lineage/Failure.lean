/-!
# What can go wrong

Building the forest and comparing signatures cannot fail. Failures come from the edges: reading
files, parsing sources, loading settings, decoding class records. Each is kept as its cause;
`Failure.message` words it.
-/
namespace Lineage

/-- Why a file operation was refused. -/
inductive FileFault where
  | notFound
  | isDirectory
  | notDirectory
  /-- The file is not UTF-8 text. -/
  | notText
  /-- The path holds a character with code zero. -/
  | zeroByte
  /-- A name in the path, or the whole path, is too long. -/
  | tooLong
  /-- Another reason: the permissions forbid it. -/
  | other
  deriving DecidableEq, Repr, Inhabited

/-- What the operating system says of a fault. -/
def FileFault.systemText : FileFault → String
  | notFound => "No such file or directory (os error 2)"
  | notDirectory => "Not a directory (os error 20)"
  | isDirectory => "Is a directory (os error 21)"
  | notText => "stream did not contain valid UTF-8"
  | zeroByte => "file name contained an unexpected NUL byte"
  | tooLong => "File name too long (os error 36)"
  | other => "Permission denied (os error 13)"

/-- What is wrong with a glob. -/
inductive GlobProblem where
  | range
  | stars
  | component
  deriving DecidableEq, Repr, Inhabited

def GlobProblem.text : GlobProblem → String
  | range => "invalid range pattern"
  | stars => "wildcards are either regular `*` or recursive `**`"
  | component => "recursive wildcards must form a single path component"

inductive Failure where
  /-- A file could not be read; `action` says what for. -/
  | unreadable (action path : String) (fault : FileFault)
  /-- A source has a fault. -/
  | unparsable (file detail : String)
  | configuration (detail : String)
  /-- A failure together with what was being attempted. -/
  | during (attempt : String) (cause : Failure)
  | files (detail : String)
  /-- Class records that do not decode. -/
  | records
  /-- A settings file that does not decode. -/
  | settings
  /-- A glob with a fault near the character at `position`. -/
  | glob (position : Nat) (problem : GlobProblem)
  deriving DecidableEq, Repr, Inhabited

namespace Failure

/-- The failure in words, without its cause. -/
def message : Failure → String
  | unreadable action path _ => action ++ ": " ++ path
  | unparsable file detail => "Parse error in " ++ file ++ ": " ++ detail
  | configuration detail => "Configuration error: " ++ detail
  | during attempt _ => attempt
  | files detail => detail
  | records => "malformed class records"
  | settings => "malformed settings"
  | glob position problem =>
    "Pattern syntax error near position " ++ toString position ++ ": " ++ problem.text

/-- The failure inside all the attempts, the first one innermost. -/
def within (f : Failure) (attempts : List String) : Failure :=
  attempts.foldl (fun cause attempt => .during attempt cause) f

end Failure

end Lineage
