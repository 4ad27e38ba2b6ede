import Lineage.Php.Repair

/-!
# Whole sources

`parse` reads a source into its tree. A source that does not fit the grammar still gives a tree,
with one node that marks where the fault is.
-/
namespace Lineage.Php

/-- The tree of a source. -/
def parse (bytes : List UInt8) : SyntaxTree :=
  let glyphs := Glyph.ofBytes bytes
  let theEnd := Glyph.endOf bytes
  let whole : Span := { start := 0, stop := bytes.length, row := 0 }
  let program (children : List SyntaxTree) : SyntaxTree := .node .program none false whole children
  match Lexical.outside? glyphs with
  | none => program [Repair.mark theEnd { chart := .empty, rest := glyphs }]
  | some rest =>
    let opening := Place.ofGlyphs theEnd rest
    match ({ chart := .empty, rest, opening } : Reader).run theEnd (2 * rest.length + 2) with
    | .ok r => (program (r.chart.result?.getD [])).weave r.extras.reverse
    | .error r => program [Repair.mark theEnd r]

end Lineage.Php
