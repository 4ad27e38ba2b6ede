import Lineage.Php.Lexical.Literal
import Lineage.Php.Terminal

/-!
# Text of templates and documents

Plain text in a template runs up to the next variable, embedded expression or escape sequence, or to
the end of the template. In a document it also ends with its line, and a line that starts with the
closing label is no text.
-/
namespace Lineage.Php.Lexical

def isLineEnd (c : Char) : Bool := c == '\n' || c == '\r'

/-- Do the glyphs behind a backslash make an escape sequence, as far as the text before it is
concerned? -/
def isEscapable (gs : List Glyph) : Bool :=
  match gs with
  | c :: rest =>
    c.satisfies ("nrtvef\\$\"u".toList.contains ·) || c.satisfies isOctalDigit ||
      (c.is 'x' && startsWith isHexDigit rest)
  | [] => false

/-- What follows the plain text of a template at the front. `found` says whether there was text
before; text that ends before it starts, or that never ends, is none. -/
def templateText? (t : Template) : Bool → Bool → List Glyph → Option (List Glyph)
  | _, _, [] => none
  | behindVariable, found, g :: gs =>
    let ended := if found then some (g :: gs) else none
    if (g.is '"' && t = .quoted) || (g.is '\x60' && t = .shell) ||
        (g.satisfies isLineEnd && t = .document) then
      ended
    else if g.is '\\' then
      match gs with
      | h :: rest =>
        if h.is '\x7b' || (h.is '\\' && t = .document) then templateText? t false true rest
        else if (h.is '\x60' && t = .shell) || isEscapable (h :: rest) then ended
        else templateText? t false true (h :: rest)
      | [] => none
    else if g.is '$' then
      if startsWith (fun c => isLabelPart c || c == '\x7b') gs then ended
      else templateText? t false true gs
    else if g.is '\x7b' && gs.head?.any (·.is '$') then ended
    else if g.is '[' && behindVariable then ended
    else if g.is '-' && behindVariable && startsWith (· == '>') gs &&
        startsWith isLabelPart (gs.drop 1) then ended
    else templateText? t false true gs

/-- What follows the label at the front as far as it goes, and whether that is all of it. -/
def dropLabel : List Char → List Glyph → List Glyph × Bool
  | [], gs => (gs, true)
  | _ :: _, [] => ([], false)
  | c :: label, g :: gs => if g.is c then dropLabel label gs else (g :: gs, false)

/-- Does what follows a label let it close the document? -/
def closesDocument (gs : List Glyph) : Bool :=
  startsWith (fun c => isBlank c || c == ';' || c == ',' || c == ')') gs &&
    startsWith (fun c => c == ';' || c == ',' || c == ')' || isLineEnd c)
      (dropWhile (fun c => isBlank c && !isLineEnd c) gs)

/-- The text of a line of a document, read by `read` behind the blanks before it and what looks like
the start of the label. There is none where the document ends. -/
def documentLine? (label : List Char) (gs : List Glyph)
    (read : Bool → List Glyph → Option (List Glyph)) : Option (List Glyph) :=
  let line := dropWhile isBlank gs
  let (rest, whole) := dropLabel label line
  if whole && closesDocument rest then none
  else read (isBehind gs rest) rest

/-- What follows the text of a line in a document with variables. -/
def documentText? (label : List Char) (behindVariable : Bool) (gs : List Glyph) :
    Option (List Glyph) :=
  documentLine? label gs (templateText? .document behindVariable)

/-- What follows a line, if another one comes behind it. -/
def restOfLine? : Bool → List Glyph → Option (List Glyph)
  | _, [] => none
  | found, g :: gs =>
    if g.satisfies isLineEnd then (if found then some (g :: gs) else none)
    else restOfLine? true gs

/-- What follows a line of a document without variables. -/
def plainLine? (label : List Char) (gs : List Glyph) : Option (List Glyph) :=
  documentLine? label gs restOfLine?

/-- A label at the front, with what follows it. -/
def label? (gs : List Glyph) : Option (List Char × List Glyph) :=
  let word := takeWhile isLabelPart gs
  if word.isEmpty then none else some (Glyph.text word, gs.drop word.length)

/-- What follows the label that closes a document, if it stands behind blanks at the front. -/
def closingLabel? (label : List Char) (gs : List Glyph) : Option (List Glyph) :=
  let (word, rest) := (label? (dropWhile isBlank gs)).getD ([], gs)
  if word == label then some rest else none

/-- What follows blanks and line comments, `inside` one at first if so said. A slash that starts no
line comment is a failure. -/
def skipToCode? : Bool → List Glyph → Option (List Glyph)
  | _, [] => some []
  | true, g :: gs =>
    if g.is '\n' then skipToCode? false gs
    else if g.is '\x00' then some (g :: gs)
    else skipToCode? true gs
  | false, g :: gs =>
    if g.satisfies isBlank then skipToCode? false gs
    else if g.is '/' then
      match gs with
      | h :: rest => if h.is '/' then skipToCode? true rest else none
      | [] => none
    else some (g :: gs)

end Lineage.Php.Lexical
