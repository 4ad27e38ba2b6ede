/-!
# Blank characters

The Unicode property White_Space, and trimming by it. The class is wider than the ASCII blanks: it
holds the next-line control, the no-break space, the typographic spaces and the ideographic space,
and it leaves out the zero-width characters and the byte order mark.
-/
namespace Lineage.Text

/-- The characters of the Unicode property White_Space. -/
def isBlank (c : Char) : Bool :=
  let n := c.toNat
  (0x09 ≤ n && n ≤ 0x0D) || n == 0x20 || n == 0x85 || n == 0xA0 || n == 0x1680 ||
    (0x2000 ≤ n && n ≤ 0x200A) || n == 0x2028 || n == 0x2029 || n == 0x202F || n == 0x205F ||
    n == 0x3000

/-- Blanks dropped at the front. -/
def trimStart (s : List Char) : List Char :=
  s.dropWhile isBlank

/-- Blanks dropped at the end. -/
def trimEnd (s : List Char) : List Char :=
  (s.reverse.dropWhile isBlank).reverse

/-- Blanks dropped at both ends. -/
def trim (s : List Char) : List Char :=
  trimEnd (trimStart s)

/-- Every blank dropped, also between other characters. -/
def squeeze (s : List Char) : List Char :=
  s.filter fun c => !isBlank c

end Lineage.Text
