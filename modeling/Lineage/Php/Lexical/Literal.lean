import Lineage.Php.Lexical.Character

/-!
# Comments, numbers and plain text

Each reader gives what follows the longest piece of its sort at the front, or nothing if there is no
such piece.
-/
namespace Lineage.Php.Lexical

/-! ## Comments -/

/-- What follows the rest of a line comment. It ends before a closing tag or the end of the line; a
question mark takes the character behind it along. -/
def lineComment : List Glyph → List Glyph
  | [] => []
  | g :: gs =>
    if g.is '?' then
      match gs with
      | [] => [g]
      | h :: rest =>
        if isNoneOf ['>', '\r', '\n'] h then lineComment rest
        else if h.is '\n' then rest
        else if h.is '\r' && rest.head?.any (·.is '\n') then rest.drop 1
        else g :: gs
    else if isNoneOf ['\r', '\n'] g then lineComment gs
    else g :: gs

/-- What follows the end of a block comment. -/
def blockComment? : List Glyph → Option (List Glyph)
  | [] => none
  | g :: gs =>
    if g.is '*' && gs.head?.any (·.is '/') then some (gs.drop 1)
    else if isNoneOf [] g then blockComment? gs
    else none

/-- What follows a comment: behind two slashes or a number sign to the end of the line, or between
marks. A number sign alone is a comment too. -/
def comment? (gs : List Glyph) : Option (List Glyph) :=
  match gs with
  | g :: h :: rest =>
    if g.is '/' && h.is '/' then some (lineComment rest)
    else if g.is '/' && h.is '*' then blockComment? rest
    else if g.is '#' then
      if isNoneOf ['?', '[', '\r', '\n'] h then some (lineComment rest) else some (h :: rest)
    else none
  | [g] => if g.is '#' then some [] else none
  | [] => none

/-! ## Numbers -/

/-- What follows groups of digits that an underscore stands before. -/
def digitGroups (p : Char → Bool) : List Glyph → List Glyph
  | [] => []
  | g :: gs =>
    if g.satisfies p then digitGroups p gs
    else if g.is '_' && startsWith p gs then digitGroups p gs
    else g :: gs

/-- What follows an exponent. -/
def exponent? (gs : List Glyph) : Option (List Glyph) :=
  match gs with
  | e :: rest =>
    if e.is 'e' || e.is 'E' then
      let digits := match rest with
        | s :: r => if s.is '+' || s.is '-' then r else rest
        | [] => rest
      if startsWith Char.isDigit digits then some (digitGroups Char.isDigit digits) else none
    else none
  | [] => none

/-- What follows a number with a point or an exponent. Both sides of the point may be empty. -/
def float? (gs : List Glyph) : Option (List Glyph) :=
  match digitGroups Char.isDigit gs with
  | [] => none
  | g :: rest =>
    if g.is '.' then
      let fraction := digitGroups Char.isDigit rest
      some ((exponent? fraction).getD fraction)
    else exponent? (g :: rest)

/-- What follows a whole number. Behind a leading zero come octal digits, behind `0x` and `0b` those
of the other bases. -/
def integer? (gs : List Glyph) : Option (List Glyph) :=
  match gs with
  | g :: rest =>
    if g.is '0' then
      match rest with
      | b :: digits =>
        if (b.is 'x' || b.is 'X') && startsWith isHexDigit digits then
          some (digitGroups isHexDigit digits)
        else if (b.is 'b' || b.is 'B') && startsWith isBinaryDigit digits then
          some (digitGroups isBinaryDigit digits)
        else if b.is 'o' || b.is 'O' then some (digitGroups isOctalDigit digits)
        else some (digitGroups isOctalDigit rest)
      | [] => some []
    else if g.satisfies Char.isDigit then some (digitGroups Char.isDigit rest)
    else none
  | [] => none

/-! ## Text in quotes -/

/-- What follows the text up to a single quote; a backslash takes the next character along. -/
def plainText : List Glyph → List Glyph
  | [] => []
  | g :: gs =>
    if g.is '\\' then
      match gs with
      | [] => [g]
      | h :: rest => if isNoneOf [] h then plainText rest else g :: gs
    else if isNoneOf ['\''] g then plainText gs
    else g :: gs

/-- What follows text between single quotes, if there is any. -/
def plainText? (gs : List Glyph) : Option (List Glyph) :=
  let rest := plainText gs
  if isBehind gs rest then some rest else none

/-- What follows an escape sequence of a template. -/
def escape? (gs : List Glyph) : Option (List Glyph) :=
  match gs with
  | b :: c :: rest =>
    if !b.is '\\' then none
    else if c.satisfies ("nrtvef\\$\"\x60".toList.contains ·) then some rest
    else if c.satisfies isOctalDigit then
      some (rest.drop ((takeWhile isOctalDigit (rest.take 2)).length))
    else if c.is 'x' && startsWith isHexDigit rest then
      some (rest.drop ((takeWhile isHexDigit (rest.take 2)).length))
    else if c.is 'u' && rest.head?.any (·.is '\x7b') then
      let digits := takeWhile isHexDigit (rest.drop 1)
      let behind := rest.drop (1 + digits.length)
      if !digits.isEmpty && behind.head?.any (·.is '\x7d') then some (behind.drop 1) else none
    else none
  | _ => none

/-! ## Text outside the tags -/

/-- What follows an opening tag. -/
def openingTag? (gs : List Glyph) : Option (List Glyph) :=
  match gs with
  | a :: b :: rest =>
    if a.is '<' && b.is '?' then
      if rest.head?.any (·.is '=') then some (rest.drop 1)
      else if (Glyph.text (rest.take 3)).map Char.toLower == "php".toList then some (rest.drop 3)
      else some rest
    else none
  | _ => none

end Lineage.Php.Lexical
