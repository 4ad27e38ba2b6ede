import Lineage.ClassDecl
import Lineage.Override.Verdict

/-!
# Override reports

A report names an incompatible override and the method it overrides, says how they differ, and lays
their parameter names side by side. The side-by-side list always ends with one position that is
absent on both sides.
-/
namespace Lineage

/-- The parameter names at one position; `none` past the end of that side's list. -/
structure ParameterPair where
  ancestor : Option String
  descendant : Option String
  deriving DecidableEq, Repr, Inhabited

/-- One incompatible override. -/
structure Report where
  ancestorClass : String
  ancestorMethod : String
  descendantClass : String
  descendantMethod : String
  kind : Verdict
  parameterPairs : List ParameterPair
  /-- The overriding class's file and the method's line, when known. -/
  location : Option SourceLocation := none
  deriving DecidableEq, Repr, Inhabited

namespace Report

/-- `Class::method` of the overridden method. -/
def ancestorId (r : Report) : String :=
  r.ancestorClass ++ "::" ++ r.ancestorMethod

/-- `Class::method` of the override. -/
def descendantId (r : Report) : String :=
  r.descendantClass ++ "::" ++ r.descendantMethod

end Report

/-- The parameter names of two methods side by side, with one position more than the longer has. -/
def Method.pairParameters (ancestor descendant : Method) : List ParameterPair :=
  (List.range (max ancestor.parameters.length descendant.parameters.length + 1)).map fun i =>
    { ancestor := ancestor.parameters[i]?.map (·.name)
      descendant := descendant.parameters[i]?.map (·.name) }

end Lineage
