import Lineage.Command.Arguments
import Lineage.Command.Routine
import Lineage.Output.Render
import Lineage.Scan.Run
import Lineage.Settings.File

/-!
# The scan command

Settings come from the file that was asked for, or from the nearest one that loads. What the command
line says goes first: the format, the colours, further patterns to ignore. The report goes to a file
or is printed. Nothing is written unless the scan succeeded.

Progress is shown on the terminal while the scan runs, and is wiped off before the report is written.
Of all this only the end matters here: wiping may fail, and then there is no report.
-/
namespace Lineage

open Command (ScanArguments ColorChoice)

/-- How a scan ended. -/
structure ScanOutcome where
  discrepancies : Nat
  /-- Discrepancies were found, and they count as failure. -/
  failed : Bool
  deriving DecidableEq, Repr, Inhabited

namespace Command.ScanArguments

/-- The settings that hold for a scan. Without a working directory to start at, the defaults do. -/
def settings (c : ScanArguments) (t : FileTree) : Except CommandFailure Settings :=
  match c.config with
  | some path => CommandFailure.attempting ("Failed to load config " ++ path) (Settings.load t path)
  | none =>
    match t.workingPath? with
    | some here => .ok (Settings.search t here)
    | none => .ok {}

/-- The format asked for, else the one of the settings, else the terminal's. -/
def resolveFormat (c : ScanArguments) (s : Settings) : Except CommandFailure OutputFormat :=
  match c.format, s.output.defaultFormat with
  | some f, _ => .ok f
  | none, some name => (OutputFormat.parse name).mapError .message
  | none, none => .ok .terminal

/-- Whether to use colours. `terminal` says whether the output is printed where colours show. -/
def usesColor (c : ScanArguments) (s : Settings) (terminal : Bool) : Bool :=
  match c.color with
  | .always => true
  | .never => false
  | .auto => if c.output.isSome then false else s.output.useColor.getD terminal

/-- The patterns of the settings come before those of the command line. -/
def options (c : ScanArguments) (s : Settings) : ScanOptions where
  extensions := s.scan.extensions
  ignore := s.scan.ignore ++ c.ignore.getD []
  ignoreKinds := s.analysis.ignoreKinds
  parallel := s.analysis.parallel && !c.noParallel

def input (c : ScanArguments) : ScanInput :=
  if c.inputJson then .records c.path else .sources c.path

/-- How a scan with these results ends. -/
def outcome (c : ScanArguments) (s : Settings) (results : ScanResults) : ScanOutcome where
  discrepancies := results.reports.length
  failed := (c.strict || s.analysis.failOnDiscrepancy) && results.hasDiscrepancies

/-- Writes the report to the file that was asked for, or prints it. -/
def deliver (c : ScanArguments) (text : String) : Routine Unit :=
  match c.output with
  | none => Routine.print text
  | some path => do
    let place ← Routine.create path fun fault =>
      .during ("Failed to create output file " ++ path) (.file fault)
    Routine.append place (Text.Utf8.encode text)

/-- The scan, step by step. `terminal` says whether colours show where the program prints, and
`wiped` what comes of wiping the progress off. -/
def steps (c : ScanArguments) (terminal : Bool) (schedules : Schedules)
    (wiped : Except FileFault Unit) : Routine ScanOutcome := do
  let s ← Routine.look c.settings
  let format ← Routine.look fun _ => c.resolveFormat s
  let results ← Routine.look fun t =>
    CommandFailure.attempting ("Failed to scan " ++ c.path) (t.scan c.input (c.options s) schedules)
  Routine.look fun _ =>
    wiped.mapError fun fault => .during "Failed to clear progress output" (.file fault)
  c.deliver (results.render format (c.usesColor s terminal))
  return c.outcome s results

/-- Runs the scan. -/
def run (c : ScanArguments) (t : FileTree) (terminal : Bool) (schedules : Schedules)
    (wiped : Except FileFault Unit := .ok ()) : Effect ScanOutcome :=
  c.steps terminal schedules wiped t

end Command.ScanArguments

end Lineage
