import Lineage.Command.Init
import Lineage.Command.Scan

/-!
# Running a command line

What the program prints, the status it exits with, and the files as it leaves them. Success exits
with 0, failure with 1, and a command line that is not understood with 2.

Two texts are left out: what is printed where help is asked for, and what is said of a command line
that is not understood. Both are put together by the reader of options from its table, and here
nothing is printed in their place.
-/
namespace Lineage.Command

/-- The phases of a scan, by the words under which their progress is shown. -/
def phaseLabels : List String :=
  ["Parsing files", "Building class hierarchy", "Checking overrides"]

/-- What the program says of its version. -/
def versionText : String := "sigmap 0.1.0\n"

structure Exit where
  status : Nat
  printed : String := ""
  /-- The first line of the complaint, if there is one. -/
  complaint : Option String := none
  files : FileTree

def exitOf (succeeded : α → Bool) (e : Effect α) : Exit :=
  match e.result with
  | .ok a => { status := if succeeded a then 0 else 1, printed := e.printed, files := e.files }
  | .error f =>
    { status := 1, printed := e.printed, complaint := some ("Error: " ++ f.headline)
      files := e.files }

/-- Runs the command line. Asking for help or for the version is no failure. `wiped` is what comes of
wiping the progress off before a report. -/
def run (t : FileTree) (terminal : Bool) (schedules : Schedules) (args : List String)
    (wiped : Except FileFault Unit := .ok ()) : Exit :=
  match readInvocation args with
  | .ok (.scan c) => exitOf (fun o => !o.failed) (c.run t terminal schedules wiped)
  | .ok (.init force) => exitOf (fun _ => true) (Settings.init t force)
  | .error .version => { status := 0, printed := versionText, files := t }
  | .error .help => { status := 0, files := t }
  | .error _ => { status := 2, files := t }

end Lineage.Command
