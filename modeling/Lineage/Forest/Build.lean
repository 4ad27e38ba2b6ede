import Lineage.Forest.Basic

/-!
# Building a forest

Classes arrive in encounter order, not in hierarchy order: a class may come before its parent, and
some parents never come. Insertion resolves both directions as it goes.

* A new class first takes over every root that waits for a parent of its name.
* It is then attached under the first node that carries its own parent's name, or stays a root.

While the parent is searched for, the new node hangs below no root, so the search never lands in its
own subtree.
-/
namespace Lineage.Forest

/-- A node for `d` behind the others, neither a root nor anyone's child. -/
def push (f : Forest) (d : ClassDecl) : Forest :=
  { f with nodes := f.nodes.push { id := f.size, declaration := d } }

/-- `child` becomes the last child of `parent`. -/
def attach (f : Forest) (parent child : Nat) : Forest :=
  { f with
    nodes := (f.nodes.modify child fun n => { n with parent := some parent }).modify parent fun n =>
      { n with children := n.children ++ [child] } }

def addRoot (f : Forest) (id : Nat) : Forest :=
  { f with roots := f.roots ++ [id] }

/-- Does the root `id` name `name` as its parent? -/
def waitsFor (f : Forest) (name : String) (id : Nat) : Bool :=
  (f.node? id).bind (·.declaration.parentName) == some name

/-- Every root that waits for `name` moves below `id`, in root order. -/
def adopt (f : Forest) (name : String) (id : Nat) : Forest :=
  let adopted := f.roots.filter (f.waitsFor name)
  let kept := f.roots.filter fun r => !f.waitsFor name r
  adopted.foldl (fun g child => g.attach id child) { f with roots := kept }

/-- The forest after the arrival of `d`. -/
def insert (f : Forest) (d : ClassDecl) : Forest :=
  let id := f.size
  let g := (f.push d).adopt d.name id
  match d.parentName with
  | none => g.addRoot id
  | some parentName =>
    match g.find? parentName with
    | some parent => g.attach parent id
    | none => g.addRoot id

/-- The forest of the classes in `ds`, inserted in that order. -/
def build (ds : List ClassDecl) : Forest :=
  ds.foldl insert {}

end Lineage.Forest
