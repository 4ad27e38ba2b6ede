import Lineage.Php.Grammar.Rules
import Lineage.Php.Lexical.Token

/-!
# Reading a source

A reader goes through a source token by token. Which token stands ahead depends on what may come
next, and a reader stops where nothing that may come next stands there.
-/
namespace Lineage.Php

open Lexical (Lexeme)

/-- A place in the source. -/
structure Place where
  offset : Nat
  row : Nat
  deriving Repr, Inhabited

/-- Where the glyphs start; `theEnd` stands at the end of the source. -/
def Place.ofGlyphs (theEnd : Glyph) (gs : List Glyph) : Place :=
  let g := gs.head?.getD theEnd
  ⟨g.offset, g.row⟩

/-- How far a source has been read. -/
structure Reader where
  chart : Grammar.Chart
  rest : List Glyph
  /-- Where the code starts. -/
  opening : Place := ⟨0, 0⟩
  /-- The labels that close the documents around this place, the innermost first. -/
  labels : List (List Char) := []
  /-- Comments and text outside the tags, the last one first. -/
  extras : List SyntaxTree := []
  /-- The places of the tokens read, the last one first, each with the row where it ends. -/
  places : List (Span × Nat) := []

namespace Reader

/-- Where the last token ends. -/
def stop (r : Reader) : Place :=
  match r.places with
  | (span, row) :: _ => ⟨span.stop, row⟩
  | [] => r.opening

/-- What stands ahead, if `expects` says which terminals may come. -/
def ahead (r : Reader) (expects : Terminal → Bool) : Lexeme :=
  Lexical.next expects (r.labels.head?.getD []) r.rest

/-- The stretch between two rests of the source, and the row where it ends. -/
def stretch (theEnd : Glyph) (start rest : List Glyph) : Span × Nat :=
  let a := start.head?.getD theEnd
  let b := rest.head?.getD theEnd
  ({ start := a.offset, stop := b.offset, row := a.row }, b.row)

/-- The reader behind the token `t`. -/
def shift (r : Reader) (theEnd : Glyph) (t : Terminal) (start rest : List Glyph) : Reader :=
  let place := stretch theEnd start rest
  let kind : Kind := if t = .name then .name else .token
  { r with
    chart := r.chart.shift t [.node kind none false place.1 []]
    rest
    labels :=
      match t with
      | .label => (((Lexical.label? start).map Prod.fst).getD []) :: r.labels
      | .closingLabel => r.labels.drop 1
      | _ => r.labels
    places := place :: r.places }

/-- The reader behind a comment or behind text outside the tags. -/
def pass (r : Reader) (theEnd : Glyph) (kind : Kind) (start rest : List Glyph) : Reader :=
  { r with
    rest
    extras := .node kind none false (stretch theEnd start rest).1 [] :: r.extras }

/-- Reads on to the end, or to the first place where nothing fits. The latter is given as a
failure. -/
def run (theEnd : Glyph) : Nat → Reader → Except Reader Reader
  | 0, r => .error r
  | fuel + 1, r =>
    match r.ahead r.chart.expects with
    | .token t start rest => run theEnd fuel (r.shift theEnd t start rest)
    | .comment start rest => run theEnd fuel (r.pass theEnd .comment start rest)
    | .closingTag start rest =>
      match Lexical.behindClosingTag? rest with
      | some behind => run theEnd fuel (r.pass theEnd .inlineText start behind)
      | none => .error { r with rest := start }
    | .ending => if r.chart.result?.isSome then .ok r else .error { r with rest := [] }
    | .stray start => .error { r with rest := start }

end Reader

end Lineage.Php
