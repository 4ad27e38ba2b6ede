import Lineage.Php.Source

/-!
# Character classes of PHP

What the characters of a source are for its tokens. No class of text holds the character with code
zero, so such a character is part of no token but the text of a template.
-/
namespace Lineage.Php.Lexical

/-- ASCII blanks. -/
def isBlank (c : Char) : Bool := c == ' ' || (9 ≤ c.toNat && c.toNat ≤ 13)

/-- Blanks between tokens: the ASCII ones and four invisible characters. -/
def isGap (c : Char) : Bool :=
  let n := c.toNat
  isBlank c || n == 0xA0 || n == 0x200B || n == 0x2060 || n == 0xFEFF

/-- Characters that start a name: letters, the underscore, and everything beyond ASCII in the basic
plane that is no gap. -/
def isNameStart (c : Char) : Bool :=
  c == '_' || c.isAlpha || (0x80 ≤ c.toNat && c.toNat ≤ 0xFFFF && !isGap c)

def isNamePart (c : Char) : Bool := isNameStart c || c.isDigit

/-- Characters of labels, and those that make a dollar sign in a template the start of a
variable. -/
def isLabelPart (c : Char) : Bool := c == '_' || c.isAlphanum || 0x80 ≤ c.toNat

def isHexDigit (c : Char) : Bool :=
  c.isDigit || ('a' ≤ c && c ≤ 'f') || ('A' ≤ c && c ≤ 'F')

def isOctalDigit (c : Char) : Bool := '0' ≤ c && c ≤ '7'

def isBinaryDigit (c : Char) : Bool := c == '0' || c == '1'

/-- Is the glyph text that is none of the characters `excluded`? A byte that is no character is. -/
def isNoneOf (excluded : List Char) (g : Glyph) : Bool :=
  g.char.all fun c => c.toNat != 0 && !excluded.contains c

def dropWhile (p : Char → Bool) (gs : List Glyph) : List Glyph :=
  gs.dropWhile fun g => g.satisfies p

def takeWhile (p : Char → Bool) (gs : List Glyph) : List Glyph :=
  gs.takeWhile fun g => g.satisfies p

/-- Does the first glyph satisfy `p`? -/
def startsWith (p : Char → Bool) (gs : List Glyph) : Bool := gs.head?.any (·.satisfies p)

/-- What follows the text `s`, if the glyphs start with it. -/
def after? (s : String) (gs : List Glyph) : Option (List Glyph) :=
  if Glyph.startWith s.toList gs then some (gs.drop s.length) else none

/-- Of two rests of one source, does `b` start behind `a`? -/
def isBehind (a b : List Glyph) : Bool :=
  a.head?.any fun x => b.head?.all fun y => x.offset < y.offset

end Lineage.Php.Lexical
