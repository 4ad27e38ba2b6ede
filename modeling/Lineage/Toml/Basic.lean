/-!
# TOML values

A settings file is a table of values. Numbers and dates have no use in settings: they are checked
when they are read and kept without their value. A date counts as a table without any known key.
-/
namespace Lineage.Toml

inductive Value where
  | string (text : String)
  | boolean (b : Bool)
  | number
  /-- A date, a time or both. -/
  | date
  | array (elements : List Value)
  | table (entries : List (String × Value))
  deriving Repr, Inhabited

namespace Value

def string? : Value → Option String
  | string t => some t
  | _ => none

def boolean? : Value → Option Bool
  | boolean b => some b
  | _ => none

/-- An array of which every element reads. -/
def list? (read : Value → Option α) : Value → Option (List α)
  | array l => l.mapM read
  | _ => none

/-- The fields called `names`. They are written as a table, where unknown keys are skipped, or as an
array of the fields in order, where what follows the last field is skipped. A date has none of
them. -/
def fields? (names : List String) : Value → Option (List (Option Value))
  | table entries => some (names.map fun name => entries.lookup name)
  | array l =>
    some ((l.take names.length).map some ++ List.replicate (names.length - l.length) none)
  | date => some (names.map fun _ => none)
  | _ => none

end Value

end Lineage.Toml
