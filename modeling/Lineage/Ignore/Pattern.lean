import Lineage.Text.Split
import Lineage.Text.Utf8

/-!
# Patterns of ignore files

The patterns that `.gitignore` files are written in. They are stricter than globs: `?`, `*` stay
inside one component of a path. `**` crosses components where it stands for whole ones, and is two
plain stars elsewhere. Sets may be negated by `!` or `^`, braces hold alternatives, and a backslash
takes the special meaning from the next character. Matching goes by bytes.
-/
namespace Lineage.Ignore

/-- One step of a pattern. -/
inductive Step where
  | byte (b : UInt8)
  /-- Any byte but the slash. -/
  | anyByte
  /-- Any number of bytes other than the slash. -/
  | anyText
  /-- Directories at the start. -/
  | anyStart
  /-- Directories between two slashes. -/
  | anyMiddle
  /-- Everything below a slash. -/
  | anyEnd
  | set (negated : Bool) (ranges : List (UInt8 × UInt8))
  /-- One of the branches; nothing, if there is none. -/
  | choice (branches : List (List Step))
  deriving Repr, Inhabited

/-! ## Matching

A row says of every suffix of a path, the whole first and the empty one last, whether what comes
next in the pattern matches it. A step makes the row of itself and what follows from the row of what
follows.
-/

def slash : UInt8 := 47

/-- The row of nothing more: it matches the empty suffix alone. -/
def emptyRow : List UInt8 → List Bool
  | [] => [true]
  | _ :: s => false :: emptyRow s

/-- The row with one byte before it. -/
def byteRow (p : UInt8 → Bool) : List UInt8 → List Bool → List Bool
  | b :: s, _ :: row => (p b && row.headD false) :: byteRow p s row
  | _, _ => [false]

/-- The row with any number of such bytes before it. -/
def bytesRow (p : UInt8 → Bool) : List UInt8 → List Bool → List Bool
  | b :: s, x :: row =>
    let more := bytesRow p s row
    (x || (p b && more.headD false)) :: more
  | _, row => row

/-- Of every suffix, whether one behind a slash in it is matched. -/
def slashRow : List UInt8 → List Bool → List Bool
  | b :: s, _ :: row =>
    let more := slashRow s row
    ((b == slash && row.headD false) || more.headD false) :: more
  | _, _ => [false]

/-- Where one row or the other matches. -/
def eitherRow (a b : List Bool) : List Bool := (a.zip b).map fun (x, y) => x || y

mutual

/-- The row with the step before it. -/
def Step.row (s : List UInt8) (next : List Bool) : Step → List Bool
  | .byte b => byteRow (· == b) s next
  | .anyByte => byteRow (· != slash) s next
  | .anyText => bytesRow (· != slash) s next
  | .anyStart => eitherRow next (slashRow s next)
  | .anyMiddle => byteRow (· == slash) s (eitherRow next (slashRow s next))
  | .anyEnd => byteRow (· == slash) s (bytesRow (fun _ => true) s next)
  | .set negated ranges =>
    byteRow (fun c => (ranges.any fun (low, high) => low ≤ c && c ≤ high) != negated) s next
  | .choice [] => next
  | .choice (branch :: branches) =>
    eitherRow (rowOfSteps s next branch) (rowOfBranches s next branches)

def rowOfSteps (s : List UInt8) (next : List Bool) : List Step → List Bool
  | [] => next
  | step :: steps => step.row s (rowOfSteps s next steps)

/-- Where one of the branches matches. -/
def rowOfBranches (s : List UInt8) (next : List Bool) : List (List Step) → List Bool
  | [] => next.map fun _ => false
  | branch :: branches => eitherRow (rowOfSteps s next branch) (rowOfBranches s next branches)

end

/-- Do the steps match all of the bytes? -/
def acceptsSteps (steps : List Step) (path : List UInt8) : Bool :=
  match steps with
  | [.anyStart] => true
  | _ => (rowOfSteps path (emptyRow path) steps).headD false

/-! ## Reading -/

/-- What is wrong with a pattern. -/
inductive PatternFault where
  | reversedRange (low high : Char)
  | unopenedBraces
  | unclosedBraces
  /-- A backslash with nothing behind it. -/
  | danglingEscape
  deriving DecidableEq, Repr, Inhabited

def PatternFault.text : PatternFault → String
  | reversedRange low high =>
    "invalid range; '" ++ low.toString ++ "' > '" ++ high.toString ++ "'"
  | unopenedBraces =>
    "unopened alternate group; missing '\x7b' (maybe escape '\x7d' with '[\x7d]'?)"
  | unclosedBraces =>
    "unclosed alternate group; missing '\x7d' (maybe escape '\x7b' with '[\x7b]'?)"
  | danglingEscape => "dangling '\\'"

/-- Where the reader is. Steps and branches are kept last first. -/
structure Reading where
  current : List Step := []
  /-- For each open brace, the steps before it and its finished branches. -/
  outer : List (List Step × List (List Step)) := []
  before : Option Char := none
  /-- An opening bracket without its closing one was found: from there on brackets are plain. -/
  unclosed : Bool := false

def bytesOf (c : Char) : List UInt8 := Text.Utf8.encode c.toString

namespace Reading

def push (r : Reading) (step : Step) : Reading := { r with current := step :: r.current }

def pushChar (r : Reading) (c : Char) : Reading :=
  { r with current := ((bytesOf c).map Step.byte).reverse ++ r.current }

/-- A choice between the branches that are not empty. Without any it takes nothing. -/
def pushChoice (r : Reading) (branches : List (List Step)) : Reading :=
  r.push (.choice (branches.filter fun b => !b.isEmpty))

/-- Two stars with `rest` behind them: the state, and what is left to read. -/
def doubleStar (r : Reading) (rest : List Char) : Reading × List Char :=
  let plain := ({ (r.push .anyText).push .anyText with before := some '*' }, rest)
  if r.current.isEmpty then
    match rest with
    | [] => ({ r.push .anyStart with before := some '*' }, [])
    | '/' :: tail => ({ r.push .anyStart with before := some '/' }, tail)
    | _ => plain
  else if r.before != some '/' then plain
  else
    let instead (step : Step) : Reading :=
      match r.current with
      | .anyStart :: _ => r
      | .anyEnd :: _ => r
      | _ :: steps => { r with current := step :: steps }
      | [] => r.push step
    let inBraces := !r.outer.isEmpty
    match rest with
    | [] => ({ instead .anyEnd with before := some '*' }, [])
    | c :: tail =>
      if c = '/' then ({ instead .anyMiddle with before := some '/' }, tail)
      else if inBraces && (c = ',' || c = '\x7d') then
        ({ instead .anyEnd with before := some '*' }, rest)
      else plain

end Reading

/-- The ranges of a set up to its closing bracket, last first. A range whose ends are in the wrong
order makes the pattern useless. -/
inductive SetResult where
  | closed (ranges : List (Char × Char)) (rest : List Char)
  | unclosed
  | reversed (low high : Char)

/-- Reads the members of a set. `first`: no member was read yet; `inRange`: a hyphen waits for its
end. -/
def readSet (first inRange : Bool) (ranges : List (Char × Char)) : List Char → SetResult
  | [] => .unclosed
  | c :: s =>
    let extend : SetResult :=
      match ranges with
      | (low, _) :: more =>
        if c < low then .reversed low c else readSet false false ((low, c) :: more) s
      | [] => readSet false false [(c, c)] s
    if c = ']' && !first then .closed (if inRange then ('-', '-') :: ranges else ranges) s
    else if c = '-' && !first && !inRange then readSet false true ranges s
    else if inRange then extend
    else readSet false false ((c, c) :: ranges) s

/-- A range of characters as ranges of bytes: the last byte of the first to the first byte of the
last. -/
def byteRanges (range : Char × Char) : List (UInt8 × UInt8) :=
  let (low, high) := range
  if low = high then (bytesOf low).map fun b => (b, b)
  else
    match (bytesOf low).reverse, bytesOf high with
    | a :: before, b :: after => (before.map fun x => (x, x)) ++ (a, b) :: after.map fun x => (x, x)
    | _, _ => []

/-- Reads the pattern, of which fewer characters are left than the number says. -/
def readSteps : Nat → Reading → List Char → Except PatternFault (List Step)
  | 0, r, _ => .ok r.current.reverse
  | _ + 1, r, [] => if r.outer.isEmpty then .ok r.current.reverse else .error .unclosedBraces
  | fuel + 1, r, c :: s =>
    let on (r' : Reading) (rest : List Char) := readSteps fuel r' rest
    let next (r' : Reading) := on { r' with before := some c } s
    if c = '?' then next (r.push .anyByte)
    else if c = '*' then
      match s with
      | '*' :: rest => let (r', rest') := r.doubleStar rest; on r' rest'
      | _ => next (r.push .anyText)
    else if c = '[' && !r.unclosed then
      let (negated, members) := match s with
        | '!' :: m => (true, m)
        | '^' :: m => (true, m)
        | _ => (false, s)
      match readSet true false [] members with
      | .closed ranges rest =>
        on { r.push (.set negated (ranges.flatMap byteRanges)) with before := some ']' } rest
      | .unclosed => next { r.pushChar c with unclosed := true }
      | .reversed low high => .error (.reversedRange low high)
    else if c = '\x7b' then next { r with current := [], outer := (r.current, []) :: r.outer }
    else if c = '\x7d' then
      match r.outer with
      | [] => .error .unopenedBraces
      | (steps, branches) :: outer =>
        let all := (r.current :: branches).reverse.map List.reverse
        next (Reading.pushChoice { r with current := steps, outer := outer } all)
    else if c = ',' then
      match r.outer with
      | [] => next (r.pushChar c)
      | (steps, branches) :: outer =>
        next { r with current := [], outer := (steps, r.current :: branches) :: outer }
    else if c = '\\' then
      match s with
      | [] => .error .danglingEscape
      | d :: rest => on { r.pushChar d with before := some d } rest
    else next (r.pushChar c)

def readPattern (text : List Char) : Except PatternFault (List Step) :=
  readSteps (text.length + 1) {} text

end Lineage.Ignore
