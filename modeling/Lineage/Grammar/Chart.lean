import Lineage.Grammar.Automaton

/-!
# Charts

A chart follows every way in which the tokens read so far can be the start of a text of the grammar.
It has one column before the first token and one behind each token. An item of a column says that a
part was started at an earlier column, its origin, and how far it has been read. Nothing is ever
taken back: a choice between two readings is left open until the tokens decide it.

A part may not be empty, the first rule's apart, so a part that ends at a column started at an
earlier one. Of two readings of the same stretch as the same part, the one found first is kept.
-/
namespace Lineage.Grammar

/-- A part in the making: its state, the column where it started, and what was read for it, the last
piece first. -/
structure Item (α : Type) where
  state : Nat
  origin : Nat
  found : List α
  deriving Inhabited

structure Column (α : Type) where
  items : Array (Item α) := #[]
  /-- The parts that may start here, as a set of bits. -/
  predicts : Nat := 0
  /-- The tokens that may come next, as a set of bits. -/
  opens : Nat := 0
  deriving Inhabited

/-- How pieces are put together. -/
structure Assembly (κ ρ α : Type) where
  /-- The piece for a part of some kind, made from the pieces in it. -/
  node : κ → List α → α
  /-- The piece in a role. -/
  withRole : ρ → α → α

/-- The columns of a reading, with the grammar that it follows. -/
structure Chart (τ π κ ρ α : Type) [BEq τ] [Hashable τ] where
  grammar : Automaton τ π κ ρ
  assembly : Assembly κ ρ α
  columns : Array (Column α)

namespace Chart

variable {τ π κ ρ α : Type} [BEq τ] [Hashable τ]

/-- The column with one item more, unless it has an item of that state and origin. -/
def add (g : Automaton τ π κ ρ) (c : Column α) (item : Item α) : Column α :=
  if c.items.any fun x => x.state == item.state && x.origin == item.origin then c
  else
    let s := g.state item.state
    { items := c.items.push item
      predicts := c.predicts ||| s.predicts
      opens := c.opens ||| s.opens }

/-- The item in state `target` once `pieces` are read behind `found`. -/
def moved (chart : Chart τ π κ ρ α) (target origin : Nat) (found pieces : List α) : Item α :=
  let pieces := match (chart.grammar.state target).role with
    | some r => pieces.map (chart.assembly.withRole r)
    | none => pieces
  { state := target, origin, found := pieces.reverse ++ found }

/-- The pieces that a finished part gives to the part around it. -/
def finished (chart : Chart τ π κ ρ α) (owner : Nat) (found : List α) : List α :=
  match chart.grammar.kinds[owner]?.join with
  | some k => [chart.assembly.node k found.reverse]
  | none => found.reverse

/-- The items of `source` that read what `moves` lists as `x`, and the parts that may start there
with it, moved past it into the column `c`. -/
def advance (chart : Chart τ π κ ρ α) (source : Column α) (origin x : Nat)
    (moves : State ρ → List (Nat × Nat)) (starts : List (Nat × Nat)) (pieces : List α)
    (c : Column α) : Column α :=
  let c := source.items.foldl (fun c item =>
    (moves (chart.grammar.state item.state)).foldl (fun c (y, target) =>
      if y == x then add chart.grammar c (chart.moved target item.origin item.found pieces) else c)
      c) c
  starts.foldl (fun c (p, target) =>
    if source.predicts.testBit p then
      add chart.grammar c (chart.moved target origin [] pieces)
    else c) c

/-- The column with all that follows from the items from index `i` on: where a part ends, the parts
that wait for it move on. -/
def settle (chart : Chart τ π κ ρ α) : Nat → Nat → Column α → Column α
  | 0, _, c => c
  | fuel + 1, i, c =>
    match c.items[i]? with
    | none => c
    | some item =>
      let s := chart.grammar.state item.state
      if s.isFinal then
        match chart.columns[item.origin]? with
        | none => settle chart fuel (i + 1) c
        | some source =>
          settle chart fuel (i + 1)
            (chart.advance source item.origin s.owner State.onPart
              (chart.grammar.startsOnPart.getD s.owner []) (chart.finished s.owner item.found) c)
      else settle chart fuel (i + 1) c

/-- The chart before the first token, for the part of the first rule. -/
def start (grammar : Automaton τ π κ ρ) (assembly : Assembly κ ρ α) : Chart τ π κ ρ α :=
  { grammar, assembly, columns := #[add grammar {} { state := 0, origin := 0, found := [] }] }

def last (chart : Chart τ π κ ρ α) : Column α := chart.columns.back?.getD {}

/-- May the token `t` come behind the column `c`? -/
def allows (chart : Chart τ π κ ρ α) (c : Column α) (t : τ) : Bool :=
  chart.grammar.tokenIndex[t]?.any c.opens.testBit

/-- May the token `t` come next? -/
def expects (chart : Chart τ π κ ρ α) (t : τ) : Bool := chart.allows chart.last t

/-- The chart cut back to its first `n` columns. -/
def upTo (chart : Chart τ π κ ρ α) (n : Nat) : Chart τ π κ ρ α :=
  { chart with columns := chart.columns.extract 0 n }

/-- The column behind the token `t`, read as `pieces`, with the number of items that end at the
token itself. An item of a column is known by its state and its origin, which bounds their
number. -/
def columnBehind (chart : Chart τ π κ ρ α) (t : τ) (pieces : List α) : Column α × Nat :=
  match chart.grammar.tokenIndex[t]? with
  | none => ({}, 0)
  | some x =>
    let here := chart.columns.size - 1
    let c := chart.advance chart.last here x State.onToken
      (chart.grammar.startsOnToken.getD x []) pieces {}
    (chart.settle (chart.grammar.states.size * chart.columns.size + 1) 0 c, c.items.size)

/-- The chart behind the token `t`, read as `pieces`. -/
def shift (chart : Chart τ π κ ρ α) (t : τ) (pieces : List α) : Chart τ π κ ρ α :=
  let c := (chart.columnBehind t pieces).1
  { chart with columns := chart.columns.push c }

/-- The pieces of the whole text, if it can end at the column `c`. -/
def resultAt? (chart : Chart τ π κ ρ α) (c : Column α) : Option (List α) :=
  (c.items.find? fun item =>
    let s := chart.grammar.state item.state
    s.isFinal && s.owner == 0 && item.origin == 0).map (·.found.reverse)

/-- The pieces of the whole text, if it can end here. -/
def result? (chart : Chart τ π κ ρ α) : Option (List α) := chart.resultAt? chart.last

end Chart

end Lineage.Grammar
