import Lineage.Text.Lowercase

/-!
# Output formats

The three forms a report can take. Names are read without regard to case, by the full Unicode rules,
and Markdown has a short name too.
-/
namespace Lineage

inductive OutputFormat where
  | json
  | markdown
  | terminal
  deriving DecidableEq, Repr, Inhabited

namespace OutputFormat

/-- The names by which formats are known; small letters only. -/
def ofSmallName? (name : String) : Option OutputFormat :=
  match name with
  | "json" => some json
  | "markdown" => some markdown
  | "md" => some markdown
  | "terminal" => some terminal
  | _ => none

/-- What is said of a name that is none. -/
def unknownText (name : String) : String := "unknown output format '" ++ name ++ "'"

/-- The format called `name`, or what to say if there is none. The message shows the name in small
letters. -/
def parse (name : String) : Except String OutputFormat :=
  let small := Text.lowercase name
  match ofSmallName? small with
  | some f => .ok f
  | none => .error (unknownText small)

end OutputFormat

end Lineage
