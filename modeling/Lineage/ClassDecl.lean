import Lineage.Signature

/-!
# Class declarations

One class as a source of records yields it. Names are unique by convention only: nothing here or
later assumes it, and a class may name itself, or a class that never arrives, as its parent.
-/
namespace Lineage

/-- A place in the sources: a file and a line counted from one. -/
structure SourceLocation where
  file : String
  line : Nat
  deriving DecidableEq, Repr, Inhabited

/-- The place as `file:line`. -/
def SourceLocation.text (l : SourceLocation) : String :=
  l.file ++ ":" ++ toString l.line

/-- One class: its name, the name of the class it extends, its methods in declaration order. -/
structure ClassDecl where
  name : String
  parentName : Option String := none
  methods : List Method := []
  location : Option SourceLocation := none
  deriving DecidableEq, Repr, Inhabited

/-- The first method called `name`. -/
def ClassDecl.method? (c : ClassDecl) (name : String) : Option Method :=
  c.methods.find? fun m => m.name == name

end Lineage
