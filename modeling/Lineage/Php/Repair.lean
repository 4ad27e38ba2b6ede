import Lineage.Php.Repair.Attempt

/-!
# Repairs

Where a source that does not fit the grammar is at fault. Attempts to get past the first token that
does not fit are followed side by side, token by token:

* one supposes a token before it that completes what is being read;
* another leaves out tokens, until one fits behind what was read before, or behind a part of that.

An attempt that gets stuck again is repaired in turn, but only while no other one goes on, and an
attempt is given up as soon as another one is far better. The fault is where the cheapest attempt
that gets to the end has its first change.
-/
namespace Lineage.Php.Repair

/-! ## Steps -/

/-- What a step makes of an attempt: the attempt itself, unless it is given up or arrives, new
attempts, and the best arrival so far. -/
abbrev Outcome := Option Attempt × List Attempt × Option Arrival

/-- The better one of two arrivals. -/
def betterArrival (old : Option Arrival) (new : Arrival) : Option Arrival :=
  match old with
  | some x => if new.price < x.price then some new else some x
  | none => some new

/-- The attempt past a comment or text outside the tags. -/
def pass (theEnd : Glyph) (a : Attempt) (kind : Kind) (start rest : List Glyph) : Attempt :=
  { a with
    reader := a.reader.pass theEnd kind start rest
    stop := Place.ofGlyphs theEnd rest
    progress := a.progress + 2 }

/-- One step of a lost attempt: it goes on where the token ahead fits, and also leaves that token
out. At the end, everything is left out. -/
def seek (theEnd : Glyph) (others : List Attempt) (arrival : Option Arrival) (use : WordUse)
    (a : Attempt) (columns : List Return) (gap : Option Gap) : Outcome :=
  let found := (recover? others arrival use a gap columns).toList
  match front a.reader .names with
  | .ending =>
    let all : Gap :=
      { pieces := (columns.getLast?.map (·.reach.pieces)).getD 0 + (gap.map Gap.pieces).getD 0 + 1
        start := ⟨0, 0⟩ }
    let whole : Arrival :=
      { price := a.paid + all.price a.stop, change := a.changed ⟨⟨0, 0⟩, false⟩ }
    (none, found, betterArrival arrival whole)
  | .stray _ => (leaveOut? theEnd others arrival a columns gap, [], arrival)
  | _ => (leaveOut? theEnd (others ++ found) arrival a columns gap, found, arrival)

/-- One step of an attempt. -/
def advance (theEnd : Glyph) (others : List Attempt) (arrival : Option Arrival) (a : Attempt) :
    Outcome :=
  match a.mode with
  | .stuck => (some a, [], arrival)
  | .reading =>
    match a.reader.ahead a.reader.chart.expects with
    | .token t start rest =>
      (some { a with
        reader := a.reader.shift theEnd t start rest
        stop := Place.ofGlyphs theEnd rest
        progress := a.progress + 3 }, [], arrival)
    | .comment start rest => (some (pass theEnd a .comment start rest), [], arrival)
    | .closingTag start rest =>
      match Lexical.behindClosingTag? rest with
      | some behind => (some (pass theEnd a .inlineText start behind), [], arrival)
      | none => (some { a with mode := .stuck }, [], arrival)
    | .ending =>
      if a.reader.chart.result?.isSome then
        (none, [], betterArrival arrival { price := a.paid, change := a.change })
      else (some { a with mode := .stuck }, [], arrival)
    | .stray start =>
      (some { a with reader := { a.reader with rest := start }, mode := .stuck }, [], arrival)
  | .lost columns gap =>
    match front a.reader .names with
    | .comment start rest => (some (pass theEnd a .comment start rest), [], arrival)
    | .closingTag start rest =>
      match Lexical.behindClosingTag? rest with
      | some behind => (some (pass theEnd a .inlineText start behind), [], arrival)
      | none => (leaveOut? theEnd others arrival a columns gap, [], arrival)
    | _ => seek theEnd others arrival .keywords a columns gap

/-- The attempts that a stuck one splits into, among the others. -/
def split (theEnd : Glyph) (others : List Attempt) (arrival : Option Arrival) (a : Attempt) :
    List Attempt × Option Arrival :=
  let supposing := ((supposed? a.reader).map (suppose a)).toList
  let columns := returns a.reader
  let lost := { a with mode := .lost columns none, progress := 0 }
  let (self, found, arrival) :=
    seek theEnd (others ++ supposing) arrival .names lost columns none
  (self.toList ++ others ++ supposing ++ found, arrival)

/-! ## Rounds -/

/-- Takes an attempt past `last`, where the attempt before it got to, or until it is stuck. -/
def takePast (theEnd : Glyph) (others : List Attempt) (isFirst : Bool) (last : Nat) :
    Nat → Option Arrival → List Attempt → Attempt → Outcome
  | 0, arrival, new, a => (some a, new, arrival)
  | fuel + 1, arrival, new, a =>
    match advance theEnd (others ++ new) arrival a with
    | (none, more, arrival) => (none, new ++ more, arrival)
    | (some a, more, arrival) =>
      if a.isStuck || last < a.stop.offset || (!isFirst && a.stop.offset == last) then
        (some a, new ++ more, arrival)
      else takePast theEnd others isFirst last fuel arrival (new ++ more) a

/-- Takes every attempt one token further. -/
def takeAll (theEnd : Glyph) (size : Nat) :
    Nat → List Attempt → List Attempt → Nat → Option Arrival → List Attempt × Option Arrival
  | 0, done, todo, _, arrival => (done ++ todo, arrival)
  | _ + 1, done, [], _, arrival => (done, arrival)
  | fuel + 1, done, a :: todo, last, arrival =>
    if a.isStuck then takeAll theEnd size fuel (done ++ [a]) todo last arrival
    else
      let (self, new, arrival) :=
        takePast theEnd (done ++ todo) done.isEmpty last size arrival [] a
      let last := (self.map fun a => if a.isStuck then last else a.stop.offset).getD last
      takeAll theEnd size fuel (done ++ self.toList) (todo ++ new) last arrival

/-- The attempts worth while with one more among them, the best first. -/
def insert (kept : List Attempt) (a : Attempt) : List Attempt :=
  if kept.any fun x => x.rank.dominates a.rank || x.isLike a then kept
  else
    let kept := kept.filter fun x => !a.rank.dominates x.rank
    kept.takeWhile (fun x => !a.rank.precedes x.rank) ++
      a :: kept.dropWhile (fun x => !a.rank.precedes x.rank)

/-- Splits the best attempt if it is stuck, and gives up the others that are. -/
def unstick (theEnd : Glyph) (arrival : Option Arrival) (attempts : List Attempt) :
    List Attempt × Option Arrival :=
  match attempts with
  | [] => ([], arrival)
  | a :: others =>
    let others := others.filter fun x => !x.isStuck
    if a.isStuck then split theEnd others arrival a
    else (a :: others, arrival)

/-- The least price at which one of the attempts can go on, if there is one that can. An attempt
that is stuck can go on if it is the best one. -/
def least? (attempts : List Attempt) : Option Nat :=
  match attempts with
  | [] => none
  | a :: _ =>
    if a.isStuck then some a.price
    else ((attempts.filter (·.isReading)).map (·.paid)).min?

/-- Follows the attempts until the cheapest arrival cannot be beaten, and gives its first change.
Six attempts are followed at most. -/
def follow (theEnd : Glyph) (size : Nat) :
    Nat → List Attempt → Nat → Option Arrival → Option Change
  | 0, attempts, _, arrival => (attempts.head?.bind (·.change)).or (arrival.bind (·.change))
  | fuel + 1, attempts, last, arrival =>
    let (attempts, arrival) := takeAll theEnd size 100 [] attempts last arrival
    let last := attempts.foldl (fun n a => max n a.stop.offset) last
    let kept := (attempts.foldl insert []).take 6
    let (next, arrival) := unstick theEnd arrival kept
    match next, arrival, least? kept with
    | [], x, _ => x.bind (·.change)
    | _, some x, none => x.change
    | _, some x, some n =>
      if x.price < n then x.change else follow theEnd size fuel next last arrival
    | _, none, _ => follow theEnd size fuel next last arrival

/-- The node that marks the fault where the reader stopped. -/
def mark (theEnd : Glyph) (r : Reader) : SyntaxTree :=
  let size := r.rest.length + 1
  let start : Attempt :=
    { reader := r, stop := r.stop, mode := .stuck
      progress := 3 * r.places.length + 2 * r.extras.length }
  let (attempts, arrival) := unstick theEnd none [start]
  let change := (follow theEnd size (2 * size + 100) attempts r.stop.offset arrival).getD
    ⟨r.stop, true⟩
  let span : Span :=
    { start := change.place.offset, stop := change.place.offset, row := change.place.row }
  .node (if change.supposed then .token else .error) none change.supposed span []

end Lineage.Php.Repair
