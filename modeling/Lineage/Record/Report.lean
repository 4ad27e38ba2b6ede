import Lineage.Override.Report
import Lineage.Record.Class

/-!
# Report records

Override reports as JSON. The absent side of a parameter pair is written `null`; an unknown
location is left out. When reading, a pair written as an array must have both sides.
-/
namespace Lineage

namespace Verdict

def toJson (v : Verdict) : Json :=
  .string v.word

/-- An outcome is its word, alone or as the key of a `null`. -/
def ofJson? : Json → Option Verdict
  | .string w => ofWord? w
  | .object [(w, .null)] => ofWord? w
  | _ => none

end Verdict

namespace ParameterPair

def toJson (p : ParameterPair) : Json :=
  .object [("ancestor", .ofOption .string p.ancestor),
    ("descendant", .ofOption .string p.descendant)]

def ofJson? (v : Json) : Option ParameterPair :=
  match v.record? ["ancestor", "descendant"] 2 with
  | some [ancestor, descendant] => do
    return {
      ancestor := ← Json.optional Json.string? ancestor
      descendant := ← Json.optional Json.string? descendant }
  | _ => none

end ParameterPair

namespace Report

def toJson (r : Report) : Json :=
  .object ([("ancestor_class", .string r.ancestorClass),
    ("ancestor_method", .string r.ancestorMethod),
    ("descendant_class", .string r.descendantClass),
    ("descendant_method", .string r.descendantMethod),
    ("kind", r.kind.toJson),
    ("parameter_pairs", .array (r.parameterPairs.map ParameterPair.toJson))] ++
    r.location.toList.map fun l => ("location", l.toJson))

def ofJson? (v : Json) : Option Report :=
  match v.record? ["ancestor_class", "ancestor_method", "descendant_class", "descendant_method",
      "kind", "parameter_pairs", "location"] 6 with
  | some [ancestorClass, ancestorMethod, descendantClass, descendantMethod, kind, pairs,
      location] => do
    return {
      ancestorClass := ← Json.required Json.string? ancestorClass
      ancestorMethod := ← Json.required Json.string? ancestorMethod
      descendantClass := ← Json.required Json.string? descendantClass
      descendantMethod := ← Json.required Json.string? descendantMethod
      kind := ← Json.required Verdict.ofJson? kind
      parameterPairs := ← Json.required (Json.list? ParameterPair.ofJson?) pairs
      location := ← Json.optional SourceLocation.ofJson? location }
  | _ => none

end Report

end Lineage
