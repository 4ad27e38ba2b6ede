import Lineage.Php.Repair.Return
import Lineage.Php.Repair.Sight

/-!
# Attempts at a repair

An attempt reads on behind a fault with the source changed. A change supposes a token that is not
there, or leaves out a stretch. Every change has a price, and attempts are ranked by what they paid
and by how much they have read since.
-/
namespace Lineage.Php.Repair

open Lineage.Grammar (Column)

/-- A stretch that is left out. -/
structure Gap where
  pieces : Nat
  start : Place
  deriving Repr, Inhabited

/-- The price of a gap that ends at `stop`. It counts the pieces, the bytes and the rows in it. -/
def Gap.price (g : Gap) (stop : Place) : Nat :=
  500 + 100 * g.pieces + (stop.offset - g.start.offset) + 30 * (stop.row - g.start.row)

/-- The price of a supposed token, a little more than that of a gap of one short token. -/
def supposedPrice : Nat := 610

/-- The first change of an attempt. -/
structure Change where
  place : Place
  /-- A token is supposed there. -/
  supposed : Bool
  deriving Repr, Inhabited

/-- What an attempt is about to do. -/
inductive Mode where
  | reading
  /-- The token ahead does not fit. -/
  | stuck
  /-- Tokens are being left out, until one fits behind one of the columns. -/
  | lost (columns : List Return) (gap : Option Gap)
  deriving Repr, Inhabited

structure Attempt where
  reader : Reader
  /-- Where what was read or left out last ends. -/
  stop : Place
  mode : Mode
  /-- The price of the changes, without a gap that is still open. -/
  paid : Nat := 0
  /-- How much was read since the last gap: three for a token and two for a comment. -/
  progress : Nat := 0
  change : Option Change := none
  /-- The last gap, with the column that it is behind and its price. -/
  closed : Option (Nat × Gap × Nat) := none

/-- How good an attempt is. -/
structure Rank where
  price : Nat
  isLost : Bool
  progress : Nat

namespace Rank

/-- Is `a` better than `b`? -/
def precedes (a b : Rank) : Bool :=
  if a.isLost != b.isLost then b.isLost else a.price < b.price

/-- Is `a` so much better that `b` is given up? -/
def dominates (a b : Rank) : Bool :=
  a.price < b.price &&
    (if a.isLost != b.isLost then b.isLost
      else 1800 < (b.price - a.price) * (1 + a.progress))

end Rank

namespace Attempt

/-- The price of the changes so far. -/
def price (a : Attempt) : Nat :=
  match a.mode with
  | .reading => a.paid
  | .stuck | .lost _ none => a.paid + 500
  | .lost _ (some gap) => a.paid + gap.price a.stop

def isStuck (a : Attempt) : Bool :=
  match a.mode with
  | .stuck => true
  | _ => false

def isReading (a : Attempt) : Bool :=
  match a.mode with
  | .reading => true
  | _ => false

def rank (a : Attempt) : Rank :=
  { price := if a.isStuck then a.price + 100 else a.price
    isLost := !a.isReading
    progress := a.progress / 2 }

/-- Is there nothing to choose between the attempts? -/
def isLike (a b : Attempt) : Bool :=
  a.isReading && b.isReading && a.stop.offset == b.stop.offset && a.paid == b.paid &&
    a.reader.chart.columns.size == b.reader.chart.columns.size

/-- The attempt with a change, if it is the first one in the source. -/
def changed (a : Attempt) (c : Change) : Option Change :=
  match a.change with
  | some old => if c.place.offset < old.place.offset then some c else some old
  | none => some c

end Attempt

/-- An attempt that got to the end: its price and its first change. -/
structure Arrival where
  price : Nat
  change : Option Change

/-- Is an attempt of this price not worth while, next to the others? -/
def isOutdone (others : List Attempt) (arrival : Option Arrival) (a : Attempt) (price : Nat) :
    Bool :=
  (arrival.any fun x => x.price ≤ price) ||
    others.any fun x => !x.isStuck && a.stop.offset ≤ x.stop.offset &&
      x.rank.dominates { price, isLost := false, progress := a.progress / 2 }

/-! ## Supposing a token -/

/-- The column behind a supposed token, with the tokens that what it completes lets come next. -/
def supposedColumn (r : Reader) (t : Terminal) : Column SyntaxTree :=
  let (column, own) := r.chart.columnBehind t []
  let completed := column.items.extract own column.items.size
  let opens := completed.foldl (fun s x => s ||| (r.chart.grammar.state x.state).opens) 0
  { column with opens }

/-- The token to suppose, so that it completes what is being read and what stands ahead fits behind
it. Names are supposed first. At the end of the source nothing but a `;` is supposed where one may
come. -/
def supposed? (r : Reader) : Option Terminal :=
  let all : List Terminal :=
    [.name, .symbol ";", .word "static", .symbol "\x7d"] ++ r.chart.grammar.tokens.toList
  let candidates : List Terminal :=
    match front r .names with
    | .ending => if r.chart.expects (.symbol ";") then [.symbol ";"] else all
    | _ => all
  candidates.find? fun t => r.chart.expects t && fits (supposedColumn r t) .names r

/-- The attempt with the token `t` supposed. -/
def suppose (a : Attempt) (t : Terminal) : Attempt :=
  let here : Span := { start := a.stop.offset, stop := a.stop.offset, row := a.stop.row }
  { a with
    reader := { a.reader with
      chart := a.reader.chart.shift t []
      places := (here, a.stop.row) :: a.reader.places }
    mode := .reading
    paid := a.paid + supposedPrice
    change := a.changed ⟨a.stop, true⟩ }

/-! ## Leaving out tokens -/

/-- The attempt that goes on behind the column, with everything behind it left out. A gap that was
right behind the column already becomes part of the new one. -/
def goBack (a : Attempt) (x : Return) (gap : Option Gap) : Attempt :=
  let places := a.reader.places
  let kept := places.drop (places.length - x.column)
  let first : Option Place :=
    (places.take (places.length - x.column)).getLast?.map fun (span, _) => ⟨span.start, span.row⟩
  let start := (first.or (gap.map Gap.start)).getD a.stop
  let leftOut := (gap.map Gap.pieces).getD 0
  let pieces := x.reach.pieces + leftOut
  let (whole, paid, progress) : Gap × Nat × Nat :=
    match a.closed with
    | some (column, before, price) =>
      if column = x.column then (⟨before.pieces + pieces, before.start⟩, a.paid - price, leftOut)
      else (⟨pieces, start⟩, a.paid, 1 + leftOut)
    | none => (⟨pieces, start⟩, a.paid, 1 + leftOut)
  { a with
    reader := { a.reader with chart := a.reader.chart.upTo (x.column + 1), places := kept }
    mode := .reading
    paid := paid + whole.price a.stop
    progress := 2 * progress
    change := a.changed ⟨whole.start, false⟩
    closed := some (x.column, whole, whole.price a.stop) }

/-- The attempt that goes on behind the nearest column where the token ahead fits, if it is worth
while. Columns right before the token do not count, nor do those where another attempt is. -/
def recover? (others : List Attempt) (arrival : Option Arrival) (use : WordUse) (a : Attempt)
    (gap : Option Gap) : List Return → Option Attempt
  | [] => none
  | x :: more =>
    let taken := others.any fun b => b.isReading && b.stop.offset == a.stop.offset &&
      b.reader.chart.columns.size == x.column + 1
    if x.place.offset = a.stop.offset || taken then recover? others arrival use a gap more
    else
      let price := a.price + 100 * x.reach.steps + (a.stop.offset - x.place.offset) +
        30 * (a.stop.row - x.place.row)
      if isOutdone others arrival a price then none
      else if fits ((a.reader.chart.columns[x.column]?).getD {}) use a.reader then
        some (goBack a x gap)
      else recover? others arrival use a gap more

/-- The attempt with the token ahead left out, if it is worth while. -/
def leaveOut? (theEnd : Glyph) (others : List Attempt) (arrival : Option Arrival) (a : Attempt)
    (columns : List Return) (gap : Option Gap) : Option Attempt :=
  let start := Place.ofGlyphs theEnd (Lexical.dropWhile Lexical.isGap a.reader.rest)
  let behind := behindToken a.reader
  let stop := Place.ofGlyphs theEnd behind
  let pieces := match front a.reader .names with
    | .stray _ => 0
    | _ => 1
  let price := a.price + 100 + (stop.offset - a.stop.offset) + 30 * (stop.row - a.stop.row)
  if isOutdone others arrival a price then none
  else
    let gap : Gap := match gap with
      | some g => { g with pieces := g.pieces + pieces }
      | none => { pieces, start }
    some { a with
      reader := { a.reader with rest := behind }
      stop
      mode := .lost columns (some gap)
      progress := a.progress + 2 }

end Lineage.Php.Repair
