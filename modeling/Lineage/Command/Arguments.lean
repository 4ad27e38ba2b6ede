import Lineage.Command.Options
import Lineage.Output.Format

/-!
# The command line

Two commands: `scan` checks a project, `init` writes a settings file to start with.
-/
namespace Lineage.Command

/-- When to use colours. -/
inductive ColorChoice where
  | auto
  | always
  | never
  deriving DecidableEq, Repr, Inhabited

/-- What a scan was asked to do. -/
structure ScanArguments where
  path : String
  format : Option OutputFormat := none
  output : Option String := none
  config : Option String := none
  inputJson : Bool := false
  strict : Bool := false
  ignore : Option (List String) := none
  noParallel : Bool := false
  color : ColorChoice := .auto
  quiet : Bool := false
  verbosity : Nat := 0
  deriving DecidableEq, Repr, Inhabited

inductive Invocation where
  | scan (args : ScanArguments)
  | init (force : Bool)
  deriving DecidableEq, Repr, Inhabited

/-! ## The commands -/

def formatOf? : String → Option OutputFormat
  | "json" => some .json
  | "markdown" => some .markdown
  | "terminal" => some .terminal
  | _ => none

def colorOf? : String → Option ColorChoice
  | "auto" => some .auto
  | "always" => some .always
  | "never" => some .never
  | _ => none

def isPath (s : String) : Bool := !s.isEmpty

def helpOption : OptionSpec := { name := "help", short := some 'h', action := .help }

def scanSpec : CommandSpec where
  options :=
    [{ name := "format", short := some 'f', action := .value fun s => (formatOf? s).isSome },
      { name := "output", short := some 'o', action := .value isPath },
      { name := "config", short := some 'c', action := .value isPath },
      { name := "input-json", action := .flag },
      { name := "strict", action := .flag },
      { name := "ignore", action := .list ',' },
      { name := "no-parallel", action := .flag },
      { name := "color", action := .value fun s => (colorOf? s).isSome },
      { name := "quiet", short := some 'q', action := .flag },
      { name := "verbose", short := some 'v', action := .count },
      helpOption]
  argument := some { name := "path", action := .value isPath }

def initSpec : CommandSpec where
  options := [{ name := "force", short := some 'f', action := .flag }, helpOption]

/-- The values of all occurrences of an option. -/
def valuesOf (found : List (String × List String)) (name : String) : List String :=
  (found.filter fun f => f.1 == name).flatMap (·.2)

def isGiven (found : List (String × List String)) (name : String) : Bool :=
  found.any fun f => f.1 == name

/-- The most that `--verbose` counts to. -/
def maxVerbosity : Nat := 255

def ScanArguments.ofFound (found : List (String × List String)) : ScanArguments :=
  let first (name : String) := (valuesOf found name).head?
  { path := (first "path").getD ""
    format := (first "format").bind formatOf?
    output := first "output"
    config := first "config"
    inputJson := isGiven found "input-json"
    strict := isGiven found "strict"
    ignore := if isGiven found "ignore" then some (valuesOf found "ignore") else none
    noParallel := isGiven found "no-parallel"
    color := ((first "color").bind colorOf?).getD .auto
    quiet := isGiven found "quiet"
    verbosity := min maxVerbosity (found.filter fun f => f.1 == "verbose").length }

/-! ## Reading -/

def subcommands : List String := ["scan", "init", "help"]

/-- The topics behind `help`: at most the name of one command. -/
def readHelp : List String → Usage
  | [] => .help
  | [topic] => if subcommands.contains topic then .help else .invalidSubcommand
  | _ => .invalidSubcommand

/-- What comes before any command can only ask for help or for the version. -/
def readTopOption (arg : List Char) : Usage :=
  match arg with
  | '-' :: '-' :: body =>
    let name := body.takeWhile (· != '=')
    let known := name == "help".toList || name == "version".toList
    if !known then .unknownArgument
    else if body.contains '=' then .tooManyValues
    else if name == "help".toList then .help
    else .version
  | '-' :: 'h' :: _ => .help
  | '-' :: 'V' :: _ => .version
  | _ => .unknownArgument

/-- The command that the arguments (without the program's name) stand for. -/
def readInvocation : List String → Except Usage Invocation
  | [] => .error .helpForNothing
  | "scan" :: rest => (scanSpec.read rest).map fun found => .scan (.ofFound found)
  | "init" :: rest => (initSpec.read rest).map fun found => .init (isGiven found "force")
  | "help" :: rest => .error (readHelp rest)
  | ["--"] => .error .helpForNothing
  | "--" :: next :: _ =>
    .error (if subcommands.contains next then .unknownArgument else .invalidSubcommand)
  | arg :: _ =>
    match arg.toList with
    | '-' :: c :: rest => .error (readTopOption ('-' :: c :: rest))
    | _ => .error .invalidSubcommand

end Lineage.Command
