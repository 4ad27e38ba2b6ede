import Lineage.ClassDecl

/-!
# Inheritance forests

A forest keeps one node per inserted class, in insertion order. A node stores its id, which is its
index. Parent and child links are ids. Roots are listed in the order in which they became roots.

Traversals are bounded by the number of nodes: no walk that follows links of a forest built by
insertion is longer than that, so the bound never cuts one short.
-/
namespace Lineage

/-- One class in the forest, with its own id and the ids of its parent and of its children in
attachment order. -/
structure Node where
  id : Nat
  declaration : ClassDecl
  parent : Option Nat := none
  children : List Nat := []
  deriving DecidableEq, Repr, Inhabited

/-- The trees built from the classes seen so far. -/
structure Forest where
  nodes : Array Node := #[]
  roots : List Nat := []
  deriving DecidableEq, Repr, Inhabited

namespace Forest

def size (f : Forest) : Nat := f.nodes.size

def node? (f : Forest) (id : Nat) : Option Node := f.nodes[id]?

/-- The name of the class at `id`. -/
def name? (f : Forest) (id : Nat) : Option String :=
  (f.node? id).map (·.declaration.name)

def parent? (f : Forest) (id : Nat) : Option Nat :=
  (f.node? id).bind (·.parent)

/-- The children of `id`, in attachment order. -/
def children (f : Forest) (id : Nat) : List Nat :=
  ((f.node? id).map (·.children)).getD []

/-! ## Walks -/

/-- Depth-first visit of the pending ids `stack`, at most `fuel` of them: the first pending id, then
its children ahead of the other pending ids. -/
def visit (f : Forest) : Nat → List Nat → List Nat
  | 0, _ => []
  | _ + 1, [] => []
  | fuel + 1, id :: stack => id :: visit f fuel (f.children id ++ stack)

/-- The tree below `root` in preorder: the root, then each child's tree in child order. -/
def preorder (f : Forest) (root : Nat) : List Nat :=
  f.visit f.size [root]

/-- Every tree in root order, each in preorder. -/
def order (f : Forest) : List Nat :=
  f.roots.flatMap f.preorder

/-- Parent links followed from `id`, at most `fuel` of them. -/
def climb (f : Forest) : Nat → Nat → List Nat
  | 0, _ => []
  | fuel + 1, id =>
    match f.parent? id with
    | none => []
    | some p => p :: climb f fuel p

/-- The parent chain of `id`, nearest first, without `id` itself. -/
def ancestors (f : Forest) (id : Nat) : List Nat :=
  f.climb f.size id

/-- The number of parent links between `id` and its root. -/
def depth (f : Forest) (id : Nat) : Nat :=
  (f.ancestors id).length

/-- The id of the first node called `name` in forest order. -/
def find? (f : Forest) (name : String) : Option Nat :=
  ((f.order.filterMap f.node?).find? fun n => n.declaration.name == name).map (·.id)

/-! ## Shape -/

/-- Roots whose class names a parent. -/
def orphans (f : Forest) : List Nat :=
  f.roots.filter fun id => ((f.node? id).bind (·.declaration.parentName)).isSome

/-- The numbers that describe a forest. -/
structure Stats where
  classes : Nat := 0
  roots : Nat := 0
  orphans : Nat := 0
  maxDepth : Nat := 0
  deriving DecidableEq, Repr, Inhabited

def stats (f : Forest) : Stats where
  classes := f.size
  roots := f.roots.length
  orphans := f.orphans.length
  maxDepth := (f.nodes.toList.map fun n => f.depth n.id).foldl max 0

end Forest

end Lineage
