import Lineage.Discovery

/-!
# Failures of commands

A command fails with a failure of the scan, with a refused file operation, or with a plain message,
and tells what it was doing. `headline` is the outermost text.
-/
namespace Lineage

inductive CommandFailure where
  | during (attempt : String) (cause : CommandFailure)
  | failure (f : Failure)
  | file (fault : FileFault)
  | message (text : String)
  deriving DecidableEq, Repr, Inhabited

namespace CommandFailure

def headline : CommandFailure → String
  | during attempt _ => attempt
  | failure f => f.message
  | file fault => fault.systemText
  | message text => text

/-- The result with what was being attempted, if it is a failure. -/
def attempting (attempt : String) (result : Except Failure α) : Except CommandFailure α :=
  result.mapError fun f => .during attempt (.failure f)

end CommandFailure

end Lineage
