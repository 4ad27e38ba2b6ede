import Lineage.Forest.Basic
import Lineage.Override.Report
import Lineage.Parallel

/-!
# Finding incompatible overrides

Every method of every class, constructors apart, is compared with the first method of its name in
the nearest ancestor that declares one. The search looks only at the parent chain and stops at the
first class that declares the name, whether or not the two agree.

Reports come tree by tree in root order, in preorder within a tree, and in declaration order within
a class.
-/
namespace Lineage.Forest

/-- The nearest ancestor of `id` that declares a method called `name`, with that method. -/
def nearestDeclaration? (f : Forest) (id : Nat) (name : String) : Option (Nat × Method) :=
  (f.ancestors id).findSome? fun a =>
    ((f.node? a).bind fun n => n.declaration.method? name).map fun m => (a, m)

/-- Where an override stands: its class's file, with its own line or else the class's. -/
def overrideLocation (c : ClassDecl) (m : Method) : Option SourceLocation :=
  c.location.map fun l => { file := l.file, line := m.line.getD l.line }

/-- The report about method `m` of the class `c` at `id`, if there is one to make. -/
def check? (f : Forest) (id : Nat) (c : ClassDecl) (m : Method) : Option Report :=
  if m.isConstructor then none
  else match f.nearestDeclaration? id m.name with
    | none => none
    | some (a, overridden) =>
      let kind := overridden.compare m
      if kind.isCompatible then none
      else some
        { ancestorClass := (f.name? a).getD ""
          ancestorMethod := overridden.name
          descendantClass := c.name
          descendantMethod := m.name
          kind := kind
          parameterPairs := overridden.pairParameters m
          location := overrideLocation c m }

/-- The reports about the class at `id`, in declaration order of its methods. -/
def checkNode (f : Forest) (id : Nat) : List Report :=
  match f.node? id with
  | none => []
  | some n => n.declaration.methods.filterMap (f.check? n.id n.declaration)

/-- The reports about the tree below `root`. -/
def analyzeTree (f : Forest) (root : Nat) : List Report :=
  (f.preorder root).flatMap f.checkNode

/-- The reports about the whole forest. -/
def analyze (f : Forest) : List Report :=
  f.roots.flatMap f.analyzeTree

/-- The reports about the whole forest, the trees checked side by side. -/
def analyzeParallel (f : Forest) (schedule : Schedule) : List Report :=
  (Parallel.map schedule f.analyzeTree f.roots).flatten

end Lineage.Forest
