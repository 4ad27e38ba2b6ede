import Lineage.Text.Blank
import Lineage.Text.Split

/-!
# Method signatures

The shape of a method as the override check sees it: whether it returns by reference, its return
type, and its parameters in order. Types are compared structurally and never resolved: a type is
either a primitive or composite kept as text, or a class name kept as its path of segments.

* `TypeRef.ofPath` splits a class name at its backslashes and drops empty segments and the blanks
  around segments, so `\App\Model` and `App \ Model` are the same path.
* `TypeRef.text` writes a type back, segments joined by backslashes.
-/
namespace Lineage

/-- A declared type. -/
inductive TypeRef where
  /-- A primitive name, or a nullable, union or intersection type as written. -/
  | scalar (text : String)
  /-- A class name, as the segments between its backslashes. -/
  | qualified (segments : List String)
  deriving DecidableEq, Repr, Inhabited

namespace TypeRef

/-- The segments of a class name: split at backslashes, trimmed, empty ones dropped. -/
def segments (path : String) : List String :=
  (((Text.split '\\' path.toList).map Text.trim).filter fun s => !s.isEmpty).map String.ofList

/-- The class-name type written `path`. -/
def ofPath (path : String) : TypeRef :=
  .qualified (segments path)

def isScalar : TypeRef → Bool
  | scalar _ => true
  | qualified _ => false

/-- The type as text. -/
def text : TypeRef → String
  | scalar t => t
  | qualified segs => String.ofList (Text.join ['\\'] (segs.map String.toList))

end TypeRef

/-- One formal parameter. -/
structure Parameter where
  name : String
  byReference : Bool := false
  type : Option TypeRef := none
  hasDefault : Bool := false
  deriving DecidableEq, Repr, Inhabited

/-- One method declaration. `line` is where it starts, when that is known. -/
structure Method where
  name : String
  byReference : Bool := false
  returnType : Option TypeRef := none
  parameters : List Parameter := []
  line : Option Nat := none
  deriving DecidableEq, Repr, Inhabited

namespace Method

/-- The name that marks a constructor. Constructors may change their signature freely. -/
def constructorName : String := "__construct"

def isConstructor (m : Method) : Bool :=
  m.name == constructorName

end Method

end Lineage
