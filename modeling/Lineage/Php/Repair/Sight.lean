import Lineage.Php.Reader

/-!
# The token at a fault

What stands where a source does not fit the grammar, if any token may come there, and whether it
would fit behind another column of the chart.
-/
namespace Lineage.Php.Repair

open Lexical (Lexeme)
open Lineage.Grammar (Column)

/-- How the words of a source are taken. -/
inductive WordUse where
  /-- Every word is a name. -/
  | names
  /-- A word is a keyword if there is one. -/
  | keywords
  deriving DecidableEq, Repr

/-- What stands at the front, if any token may come. A tag that opens code is no token. -/
def front (r : Reader) (use : WordUse) : Lexeme :=
  let start := Lexical.dropWhile Lexical.isGap r.rest
  let known (t : Terminal) : Bool :=
    match t with
    | .symbol _ | .name | .integer | .float | .binaryQuote _ =>
      r.chart.grammar.tokenIndex.contains t
    | .word _ | .exactWord _ => use = .keywords && r.chart.grammar.tokenIndex.contains t
    | _ => false
  match Lexical.openingTag? start with
  | some _ => .stray start
  | none => Lexical.code known start

/-- What follows the quoted text behind the quote `q`, or everything if it is never closed. -/
def behindQuote (q : Char) (gs : List Glyph) : List Glyph :=
  (close gs).getD gs
where
  close : List Glyph → Option (List Glyph)
    | [] => none
    | g :: rest =>
      if g.is q then some rest
      else if g.is '\\' then
        match rest with
        | _ :: more => close more
        | [] => none
      else close rest

/-- What follows the token at the front, whether it fits or not. -/
def behindToken (r : Reader) : List Glyph :=
  match front r .names with
  | .token (.symbol "'") _ rest => behindQuote '\'' rest
  | .token (.symbol "\"") _ rest => behindQuote '"' rest
  | .token (.binaryQuote q) _ rest => behindQuote q rest
  | .token _ _ rest => rest
  | .comment _ rest => rest
  | .closingTag _ rest => rest
  | .ending => []
  | .stray start => (Lexical.openingTag? start).getD (start.drop 1)

/-- Do two rests of the source start at one place? -/
def isSamePlace (a b : List Glyph) : Bool := a.head?.map (·.offset) == b.head?.map (·.offset)

/-- Does the token at the front fit behind the column `c`? It has to be read as far there as where
any token may come, and a word has to fit as what it is taken for. -/
def fits (c : Column SyntaxTree) (use : WordUse) (r : Reader) : Bool :=
  match r.ahead (r.chart.allows c), front r use with
  | .token here _ a, .token anywhere _ b =>
    isSamePlace a b &&
      (match anywhere with
      | .name => r.chart.allows c .name
      | .word _ | .exactWord _ => here != .name
      | _ => true)
  | .token .silentEnd _ _, _ => true
  | .ending, _ => (r.chart.resultAt? c).isSome
  | _, _ => false

end Lineage.Php.Repair
