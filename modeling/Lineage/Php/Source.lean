import Lineage.Php.SyntaxTree
import Lineage.Text.Utf8

/-!
# PHP sources as characters

The bytes of a source with the place of every character. Sources need not be UTF-8: a byte that is
part of no character is kept as a glyph without one, so that old encodings in comments and strings
do no harm.
-/
namespace Lineage.Php

/-- One character of the source, or one byte that is none, with its place. -/
structure Glyph where
  char : Option Char
  offset : Nat
  row : Nat
  deriving DecidableEq, Repr, Inhabited

namespace Glyph

/-- Is the glyph the character `c`? -/
def is (g : Glyph) (c : Char) : Bool := g.char == some c

/-- Does the character of the glyph satisfy `p`? -/
def satisfies (g : Glyph) (p : Char → Bool) : Bool := g.char.any p

/-- The glyphs of `bytes`, the first one at `offset` and in row `row`. -/
def ofBytesFrom : Nat → Nat → Nat → List UInt8 → List Glyph
  | 0, _, _, _ => []
  | _ + 1, _, _, [] => []
  | fuel + 1, offset, row, b :: rest =>
    match Text.Utf8.first b rest with
    | (some c, width) =>
      ⟨some c, offset, row⟩ ::
        ofBytesFrom fuel (offset + width) (if c == '\n' then row + 1 else row)
          (rest.drop (width - 1))
    | (none, _) => ⟨none, offset, row⟩ :: ofBytesFrom fuel (offset + 1) row rest

def ofBytes (bytes : List UInt8) : List Glyph :=
  ofBytesFrom bytes.length 0 0 bytes

/-- The place behind the last byte. -/
def endOf (bytes : List UInt8) : Glyph :=
  { char := none, offset := bytes.length, row := bytes.count 10 }

/-- The characters of the glyphs that have one. -/
def text (gs : List Glyph) : List Char := gs.filterMap (·.char)

/-- Do the glyphs start with the text `s`? -/
def startWith : List Char → List Glyph → Bool
  | [], _ => true
  | _ :: _, [] => false
  | c :: s, g :: gs => g.is c && startWith s gs

end Glyph

end Lineage.Php
