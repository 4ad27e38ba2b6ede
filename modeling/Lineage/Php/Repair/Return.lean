import Lineage.Php.Reader

/-!
# Ways back from a fault

The columns of a chart where a part that is still open starts, or goes on from one of its pieces to
the next. Behind such a column, reading can be taken up again without what comes after it.
-/
namespace Lineage.Php.Repair

open Lineage.Grammar (Item)

/-- How far back a column is. -/
structure Reach where
  /-- The number of pieces behind it. -/
  pieces : Nat
  /-- The number of steps to it, where a row of like pieces is one step. -/
  steps : Nat
  deriving Repr, Inhabited

/-- The reach of each column that can be gone back to. -/
abbrev Reaches := Array (Option Reach)

/-- Notes one more way to go back to a column. The nearest one counts. -/
def Reaches.note (m : Reaches) (column : Nat) (x : Reach) : Reaches :=
  m.modify column fun old =>
    match old with
    | some y => some { pieces := min x.pieces y.pieces, steps := min x.steps y.steps }
    | none => some x

/-- A column to go back to. -/
structure Return where
  column : Nat
  reach : Reach
  place : Place
  deriving Repr, Inhabited

/-- The number of tokens before the one that starts at an offset. -/
def tokenNumbers (r : Reader) : Std.HashMap Nat Nat :=
  r.places.reverse.zipIdx.foldl (fun m ((span, _), n) => m.insertIfNew span.start n) ∅

/-- Goes back through the item `x`, of which the pieces start at `columns`, the last one first.
There is a step to each of them, but a state where the item was before counts for the last time
only, and no step leads into a piece without a name. Operands that are joined are one piece. -/
def throughItem (chart : Grammar.Chart) (x : Item SyntaxTree) (here : Reach) (columns : List Nat)
    (m : Reaches) : Reaches :=
  let owner := (chart.grammar.state x.state).owner
  let statesAt (column : Nat) : List Nat :=
    (((chart.columns[column]?).getD {}).items.toList.filter fun y =>
      y.origin == x.origin && (chart.grammar.state y.state).owner == owner).map (·.state)
  let isJoined := chart.grammar.kinds[owner]?.join == some .expression
  go statesAt isJoined columns here [x.state] m
where
  go (statesAt : Nat → List Nat) (isJoined : Bool) :
      List Nat → Reach → List Nat → Reaches → Reaches
    | [], _, _, m => m
    | column :: more, here, seen, m =>
      let states := statesAt column
      if column != x.origin && (states.isEmpty || states.any seen.contains) then
        let here := if isJoined then here else { here with pieces := here.pieces + 1 }
        go statesAt isJoined more here seen m
      else
        let here := { pieces := here.pieces + 1, steps := here.steps + 1 }
        go statesAt isJoined more here (states ++ seen) (m.note column here)

/-- Goes back through the parts that are still open: `column` columns from the left are left to look
at, and `waiting` has, for each of them, the open parts that start there. In the last column the
parts that can go on are open. -/
def throughColumns (r : Reader) (numbers : Std.HashMap Nat Nat) :
    Nat → Array Nat → Reaches → Reaches
  | 0, _, m => m
  | column + 1, waiting, m =>
    let parts := waiting.getD column 0
    let isLast := column + 1 == r.chart.columns.size
    let items := ((r.chart.columns[column]?).getD {}).items.toList.filter fun x =>
      let s := r.chart.grammar.state x.state
      if isLast then s.opens != 0 else s.predicts &&& parts != 0
    let here := ((m[column]?).join).getD { pieces := 0, steps := 1 }
    let through (m : Reaches) (x : Item SyntaxTree) : Reaches :=
      throughItem r.chart x here (x.found.map fun p => numbers.getD p.span.start column)
        (m.note column here)
    throughColumns r numbers column
      (items.foldl (fun waiting x =>
        waiting.modify x.origin fun set =>
          set ||| Lineage.Grammar.bit (r.chart.grammar.state x.state).owner) waiting)
      (items.foldl through m)

/-- How many steps back are remembered. -/
def stepLimit : Nat := 16

/-- The columns to go back to, the nearest first. -/
def returns (r : Reader) : List Return :=
  let size := r.chart.columns.size
  let reaches := throughColumns r (tokenNumbers r) size (Array.replicate size 0)
    (Array.replicate size none)
  let places := r.places.reverse.toArray
  let placeOf (column : Nat) : Place :=
    match column with
    | 0 => r.opening
    | n + 1 => (places[n]?.map fun (span, row) => ⟨span.stop, row⟩).getD r.opening
  let all := ((List.range size).reverse.filterMap fun column =>
    ((reaches[column]?).join).map fun reach => { column, reach, place := placeOf column : Return })
  (all.filter fun x => x.reach.steps ≤ stepLimit).mergeSort fun a b => a.reach.steps ≤ b.reach.steps

end Lineage.Php.Repair
