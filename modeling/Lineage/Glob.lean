import Lineage.Failure

/-!
# Globs

Patterns for paths to leave out of a scan.

* `?` matches one character and `*` any number of them, the slash and a leading dot included.
* `[abc]`, `[a-z]` and `[!abc]` match one character of a set, or one outside it. A closing bracket
  that stands first is a member of the set.
* `**` has to be a whole component, and matches any number of directories.

Matching is case sensitive and takes the whole path.
-/
namespace Lineage

/-- The characters from `low` to `high`. -/
structure CharRange where
  low : Char
  high : Char
  deriving DecidableEq, Repr, Inhabited

def CharRange.contains (r : CharRange) (c : Char) : Bool := r.low ≤ c && c ≤ r.high

/-- One step of a pattern. -/
inductive GlobStep where
  | char (c : Char)
  | anyChar
  | anyText
  | anyDirectories
  | oneOf (ranges : List CharRange)
  | noneOf (ranges : List CharRange)
  deriving DecidableEq, Repr, Inhabited

structure Glob where
  steps : List GlobStep
  deriving DecidableEq, Repr, Inhabited

namespace Glob

/-! ## Reading -/

/-- The members of a set: a hyphen between two characters makes a range. -/
def ranges : List Char → List CharRange
  | a :: b :: c :: rest =>
    if b = '-' then ⟨a, c⟩ :: ranges rest else ⟨a, a⟩ :: ranges (b :: c :: rest)
  | a :: rest => ⟨a, a⟩ :: ranges rest
  | [] => []

/-- The set behind an opening bracket, and how many characters it takes up to and with the closing
one. Its first member may be a closing bracket. -/
def set? (s : List Char) : Option (GlobStep × Nat) :=
  match s with
  | '!' :: members =>
    ((members.drop 1).findIdx? (· == ']')).map fun j =>
      (.noneOf (ranges (members.take (j + 1))), j + 3)
  | members =>
    ((members.drop 1).findIdx? (· == ']')).map fun j =>
      (.oneOf (ranges (members.take (j + 1))), j + 2)

/-- The steps of the pattern from the character at `position` on. `before` is the character ahead of
it. -/
def steps? (position : Nat) (before : Option Char) : List Char → Except Failure (List GlobStep)
  | [] => .ok []
  | c :: s =>
    if c = '?' then (steps? (position + 1) (some c) s).map (.anyChar :: ·)
    else if c = '*' then
      let stars := (s.takeWhile (· == '*')).length + 1
      let rest := s.dropWhile (· == '*')
      if 2 < stars then .error (.glob (position + 2) .stars)
      else if stars = 2 then
        if before = none ∨ before = some '/' then
          match h : rest with
          | [] => .ok [.anyDirectories]
          | d :: tail =>
            if d = '/' then (steps? (position + 3) (some d) tail).map (.anyDirectories :: ·)
            else .error (.glob (position + 2) .component)
        else .error (.glob (position - 1) .component)
      else (steps? (position + 1) (some c) rest).map (.anyText :: ·)
    else if c = '[' then
      match set? s with
      | some (step, width) =>
        (steps? (position + 1 + width) (some ']') (s.drop width)).map (step :: ·)
      | none => .error (.glob position .range)
    else (steps? (position + 1) (some c) s).map (.char c :: ·)
termination_by s => s.length
decreasing_by
  all_goals
    have hrest : (s.dropWhile (· == '*')).length ≤ s.length := (List.dropWhile_sublist _).length_le
    simp only [List.length_cons, List.length_drop]
    try simp only [rest] at h
    try rw [h, List.length_cons] at hrest
    omega

/-- Reads a pattern. -/
def parse (text : String) : Except Failure Glob :=
  (steps? 0 none text.toList).map (⟨·⟩)

/-! ## Matching

Steps are matched from the last one back. A row says of every suffix of the text, the whole first
and the empty one last, whether the steps so far match it.
-/

/-- Does the step take the character `c`? -/
def GlobStep.takes : GlobStep → Char → Bool
  | .char d, c => c == d
  | .anyChar, _ => true
  | .oneOf rs, c => rs.any (·.contains c)
  | .noneOf rs, c => !rs.any (·.contains c)
  | .anyText, _ => false
  | .anyDirectories, _ => false

/-- The row of no steps: they match the empty suffix alone. -/
def emptyRow : List Char → List Bool
  | [] => [true]
  | _ :: s => false :: emptyRow s

/-- The row with a step before it that takes one character. -/
def charRow (p : Char → Bool) : List Char → List Bool → List Bool
  | c :: s, _ :: row => (p c && row.headD false) :: charRow p s row
  | _, _ => [false]

/-- The row with any text before it. -/
def textRow : List Bool → List Bool
  | [] => []
  | b :: row =>
    let more := textRow row
    (b || more.headD false) :: more

/-- Of every suffix, whether one behind a slash in it is matched. -/
def slashRow : List Char → List Bool → List Bool
  | c :: s, _ :: row =>
    let more := slashRow s row
    ((c == '/' && row.headD false) || more.headD false) :: more
  | _, _ => [false]

/-- The row with any directories before it: they are skipped up to a slash, or up to the end. -/
def directoryRow (s : List Char) (row : List Bool) : List Bool :=
  let atEnd := row.getLast?.getD false
  (row.zip (slashRow s row)).map fun (b, d) => b || d || atEnd

/-- The row of the steps. -/
def row : List GlobStep → List Char → List Bool
  | [], s => emptyRow s
  | .anyText :: steps, s => textRow (row steps s)
  | .anyDirectories :: steps, s => directoryRow s (row steps s)
  | step :: steps, s => charRow (GlobStep.takes step) s (row steps s)

def accepts (g : Glob) (path : String) : Bool :=
  (row g.steps path.toList).headD false

end Glob

end Lineage
