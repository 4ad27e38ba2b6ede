import Lineage.Command.Routine
import Lineage.Settings.File

/-!
# The init command

Writes a settings file to start with, and does not replace one unless it is told to.
-/
namespace Lineage

/-- Writes the starting file to `path`. -/
def Settings.starting (path : String) (force : Bool) : Routine Unit := do
  Routine.look fun t =>
    if t.contains path && !force then
      .error (.message "Configuration file already exists. Use --force to overwrite.")
    else .ok ()
  let place ← Routine.create path .file
  Routine.append place (Text.Utf8.encode Settings.starterText)

def Settings.writeStarter (t : FileTree) (path : String) (force : Bool) : Effect Unit :=
  starting path force t

/-- Writes the file into the working directory and says so. -/
def Settings.init (t : FileTree) (force : Bool) : Effect Unit :=
  let steps : Routine Unit := do
    starting fileName force
    Routine.print ("Created " ++ fileName ++ " configuration file\n")
  steps t

end Lineage
