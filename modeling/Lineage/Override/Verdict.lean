import Lineage.Signature

/-!
# The override check

How an override differs in shape from the method it overrides. The rules are tried in a fixed order
and the first that applies decides.

Two rules settle the whole comparison as compatible at a single position: an extra parameter that
has a default, and a pair of equal scalar types. Later positions are then not looked at.
-/
namespace Lineage

/-- The outcome of a comparison, in rule order. -/
inductive Verdict where
  | compatible
  | referenceMismatch
  | returnTypeMismatch
  | fewerParameters
  | extraParameterNoDefault
  | parameterReferenceMismatch
  | parameterNullabilityMismatch
  | parameterTypeMismatch
  | defaultValueDropped
  deriving DecidableEq, Repr, Inhabited

namespace Verdict

/-- All outcomes, in rule order. -/
def all : List Verdict :=
  [compatible, referenceMismatch, returnTypeMismatch, fewerParameters, extraParameterNoDefault,
    parameterReferenceMismatch, parameterNullabilityMismatch, parameterTypeMismatch,
    defaultValueDropped]

/-- The number shown in reports: the place in rule order. -/
def code : Verdict → Nat
  | compatible => 0
  | referenceMismatch => 1
  | returnTypeMismatch => 2
  | fewerParameters => 3
  | extraParameterNoDefault => 4
  | parameterReferenceMismatch => 5
  | parameterNullabilityMismatch => 6
  | parameterTypeMismatch => 7
  | defaultValueDropped => 8

/-- The word for an outcome in settings and records. -/
def word : Verdict → String
  | compatible => "compatible"
  | referenceMismatch => "reference_mismatch"
  | returnTypeMismatch => "return_type_mismatch"
  | fewerParameters => "fewer_parameters"
  | extraParameterNoDefault => "extra_parameter_no_default"
  | parameterReferenceMismatch => "parameter_reference_mismatch"
  | parameterNullabilityMismatch => "parameter_nullability_mismatch"
  | parameterTypeMismatch => "parameter_type_mismatch"
  | defaultValueDropped => "default_value_dropped"

/-- The outcome that `w` is the word for. -/
def ofWord? (w : String) : Option Verdict :=
  all.find? fun v => v.word == w

theorem ofWord?_word (v : Verdict) : ofWord? v.word = some v := by
  cases v <;> decide

def description : Verdict → String
  | compatible => "signatures are compatible"
  | referenceMismatch => "return-by-reference differs"
  | returnTypeMismatch => "return type differs"
  | fewerParameters => "override declares fewer parameters"
  | extraParameterNoDefault => "extra parameter has no default value"
  | parameterReferenceMismatch => "parameter pass-by-reference differs"
  | parameterNullabilityMismatch => "parameter type declared on one side only"
  | parameterTypeMismatch => "parameter type differs"
  | defaultValueDropped => "override drops a parameter default value"

/-- The outcome as a report shows it: code, then description. -/
def text (v : Verdict) : String :=
  toString v.code ++ " (" ++ v.description ++ ")"

def isCompatible (v : Verdict) : Bool :=
  v == compatible

end Verdict

/-- What one position decides about the whole comparison: `none` leaves it to the next position. -/
def Parameter.settle (ours theirs : Parameter) : Option Verdict :=
  if ours.byReference != theirs.byReference then some .parameterReferenceMismatch
  else match ours.type, theirs.type with
    | some _, none => some .parameterNullabilityMismatch
    | none, some _ => some .parameterNullabilityMismatch
    | some s, some t =>
      if s.isScalar || t.isScalar then
        if s = t then some .compatible else some .parameterTypeMismatch
      else if s ≠ t then some .parameterTypeMismatch
      else if ours.hasDefault && !theirs.hasDefault then some .defaultValueDropped
      else none
    | none, none =>
      if ours.hasDefault && !theirs.hasDefault then some .defaultValueDropped else none

/-- The comparison of parameter lists, the overridden method's first. -/
def Parameter.compareLists : List Parameter → List Parameter → Verdict
  | _, [] => .compatible
  | [], theirs :: _ => if theirs.hasDefault then .compatible else .extraParameterNoDefault
  | ours :: as, theirs :: ds =>
    match ours.settle theirs with
    | some v => v
    | none => compareLists as ds

/-- How the method `descendant` differs from the method `ancestor` that it overrides. -/
def Method.compare (ancestor descendant : Method) : Verdict :=
  if ancestor.byReference != descendant.byReference then .referenceMismatch
  else if ancestor.returnType ≠ descendant.returnType then .returnTypeMismatch
  else if descendant.parameters.length < ancestor.parameters.length then .fewerParameters
  else Parameter.compareLists ancestor.parameters descendant.parameters

end Lineage
