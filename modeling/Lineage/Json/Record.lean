import Lineage.Json.Basic

/-!
# Records in JSON

A record is written as an object, or as the array of its fields in order. In an object, unknown keys
are skipped, keys may come in any order, and a known key may come only once. In an array, trailing
fields that have a default may be left out, and nothing may follow the last field.
-/
namespace Lineage.Json

/-- The values under `key`, in written order. -/
def valuesOf (key : String) (members : List (String × Json)) : List Json :=
  (members.filter fun m => m.1 == key).map (·.2)

/-- The value under `key`: absent is `some none`, repeated is `none`. -/
def field? (members : List (String × Json)) (key : String) : Option (Option Json) :=
  match valuesOf key members with
  | [] => some none
  | [v] => some (some v)
  | _ => none

/-- The fields called `names`, each present or absent. An array must have at least the first
`needed` of them. -/
def record? (names : List String) (needed : Nat) : Json → Option (List (Option Json))
  | object members => names.mapM (field? members)
  | array l =>
    if needed ≤ l.length ∧ l.length ≤ names.length then
      some (l.map some ++ List.replicate (names.length - l.length) none)
    else none
  | _ => none

/-- A field that must be there. -/
def required (read : Json → Option α) : Option Json → Option α
  | none => none
  | some v => read v

/-- A field that is `default` when it is not there. -/
def defaulted (default : α) (read : Json → Option α) : Option Json → Option α
  | none => some default
  | some v => read v

/-- An optional field: not there and `null` both mean absent. -/
def optional (read : Json → Option α) : Option Json → Option (Option α)
  | none => some none
  | some null => some none
  | some v => (read v).map some

/-- A list of which every element reads. -/
def list? (read : Json → Option α) : Json → Option (List α)
  | array l => l.mapM read
  | _ => none

/-- A number that fits in 64 bits. -/
def word64? : Json → Option Nat
  | natural n => if n < UInt64.size then some n else none
  | _ => none

end Lineage.Json
