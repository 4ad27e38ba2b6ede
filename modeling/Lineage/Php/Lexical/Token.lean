import Lineage.Php.Lexical.Template

/-!
# The next token

`next` finds the token at the front of a source, given which terminals may come next. Where several
fit, the text of templates and documents goes first, and then the longest one. A word is a keyword
where the keyword may stand, and a name elsewhere.
-/
namespace Lineage.Php.Lexical

/-- What stands at the front of a source, with what follows it. -/
inductive Lexeme where
  /-- A token; `start` is where it begins. -/
  | token (terminal : Terminal) (start rest : List Glyph)
  | comment (start rest : List Glyph)
  /-- The tag behind which text outside the tags begins. -/
  | closingTag (start rest : List Glyph)
  /-- Nothing but blanks is left. -/
  | ending
  /-- No terminal that may come next fits. -/
  | stray (start : List Glyph)
  deriving Repr, Inhabited

variable (expects : Terminal → Bool)

/-! ## Text -/

/-- A template of which text may come next. -/
def expectedTemplate? (terminal : Template → Terminal) : Option Template :=
  [Template.quoted, .shell, .document].find? fun t => expects (terminal t)

/-- What follows the text of a template. -/
def textOf? (label : List Char) (t : Template) (behindVariable : Bool) (gs : List Glyph) :
    Option (List Glyph) :=
  match t with
  | .document => documentText? label behindVariable gs
  | _ => templateText? t behindVariable false gs

/-- The closing label at the front. -/
def closing? (label : List Char) (gs : List Glyph) : Option Lexeme :=
  (closingLabel? label gs).map (.token .closingLabel gs)

/-- The text of the innermost template or document at the front. Where text may come, a closing
label is only looked for behind a newline. -/
def text? (label : List Char) (gs : List Glyph) : Option Lexeme :=
  match expectedTemplate? expects .textBehindVariable, expectedTemplate? expects .templateText with
  | some t, _ => (textOf? label t true gs).map (.token (.textBehindVariable t) gs)
  | none, some t =>
    (if t = .document && expects .closingLabel && !expects .newline then closing? label gs
      else none) <|> (textOf? label t false gs).map (.token (.templateText t) gs)
  | none, none =>
    if expects .plainLine then (plainLine? label gs).map (.token .plainLine gs)
    else if expects .closingLabel then closing? label gs
    else none

/-- The tokens that are looked for behind blanks and line comments: a label, and the end of a
statement before a closing tag. -/
def behindComments? (gs : List Glyph) : Option Lexeme :=
  if expects .label || expects .silentEnd then
    (skipToCode? false gs).bind fun code =>
      if expects .label then (label? code).map fun (_, rest) => .token .label code rest
      else (after? "?>" code).map fun _ => .token .silentEnd gs gs
  else none

/-- The tokens that stand right behind the token before them. -/
def attached? (gs : List Glyph) : Option Lexeme :=
  let reader? (t : Terminal) (read : List Glyph → Option (List Glyph)) : Option Lexeme :=
    if expects t then (read gs).map (.token t gs) else none
  reader? .plainText plainText? <|> reader? .escape escape? <|>
    ["(", ")", "\"", "'"].findSome? fun s => reader? (.attached s) (after? s)

/-! ## Words, numbers and symbols -/

/-- What a word is here. -/
def ofWord? (word : List Char) : Option Terminal :=
  let small := String.ofList (word.map Char.toLower)
  [.exactWord (String.ofList word), .word small, .name].find? expects

/-- The longest symbol at the front that may come next. -/
def symbol? (gs : List Glyph) : Option (Terminal × List Glyph) :=
  [3, 2, 1].findSome? fun n =>
    let text := gs.take n
    let s := String.ofList (Glyph.text text)
    if text.length = n && s.length = n && expects (.symbol s) then some (.symbol s, gs.drop n)
    else none

/-- Of two tokens the longer one; the first one if they are equally long. -/
def longer (a b : Option (Terminal × List Glyph)) : Option (Terminal × List Glyph) :=
  match a, b with
  | some (s, x), some (t, y) => if isBehind x y then some (t, y) else some (s, x)
  | some x, none => some x
  | none, y => y

/-- A token of the terminal `t` that `read` finds, if `t` may come next. -/
def ofReader? (t : Terminal) (read : List Glyph → Option (List Glyph)) (gs : List Glyph) :
    Option (Terminal × List Glyph) :=
  if expects t then (read gs).map (t, ·) else none

/-- The quote behind a letter `b`. -/
def binaryQuote? (gs : List Glyph) : Option (Terminal × List Glyph) :=
  match gs with
  | b :: q :: rest =>
    if b.is 'b' || b.is 'B' then
      ['\'', '"'].findSome? fun c =>
        if q.is c && expects (.binaryQuote c) then some (.binaryQuote c, rest) else none
    else none
  | _ => none

/-- The word at the front. -/
def word? (gs : List Glyph) : Option (Terminal × List Glyph) :=
  if startsWith isNameStart gs then
    let word := takeWhile isNamePart gs
    (ofWord? expects (Glyph.text word)).map (·, gs.drop word.length)
  else none

/-- The longest token at the front. -/
def longest? (gs : List Glyph) : Option (Terminal × List Glyph) :=
  [symbol? expects gs, ofReader? expects .float float? gs, ofReader? expects .integer integer? gs,
    binaryQuote? expects gs, word? expects gs,
    ofReader? expects .bareEscape (after? "\\u") gs].foldl longer none

/-- The token, the comment or the closing tag at the front, where no blank stands. -/
def code (gs : List Glyph) : Lexeme :=
  if gs.isEmpty then .ending
  else if let some rest := after? "?>" gs then .closingTag gs rest
  else if expects (.symbol "#[") && Glyph.startWith "#[".toList gs then
    .token (.symbol "#[") gs (gs.drop 2)
  else if let some rest := comment? gs then .comment gs rest
  else
    match longest? expects gs with
    | some (t, rest) => .token t gs rest
    | none => .stray gs

/-- The newline at the front, behind other blanks. -/
def newline? (gs : List Glyph) : Option Lexeme :=
  if expects .newline then
    let start := dropWhile (fun c => isGap c && c != '\n' && c != '\r') gs
    match start with
    | g :: rest =>
      if g.is '\n' then some (.token .newline start rest)
      else if g.is '\r' then
        some (.token .newline start (if rest.head?.any (·.is '\n') then rest.drop 1 else rest))
      else none
    | [] => none
  else none

/-- What stands at the front of the source `gs`, inside a document that `label` closes if it is in
one. -/
def next (label : List Char) (gs : List Glyph) : Lexeme :=
  match text? expects label gs <|> behindComments? expects gs <|> attached? expects gs <|>
    newline? expects gs with
  | some lexeme => lexeme
  | none => code expects (dropWhile isGap gs)

/-! ## Outside the tags -/

/-- What follows the text outside the tags at the front and the tag that ends it. Nothing is left
behind if the text runs to the end; a character with code zero is no text. -/
def outside? : List Glyph → Option (List Glyph)
  | [] => some []
  | g :: gs =>
    match openingTag? (g :: gs) with
    | some rest => some rest
    | none => if isNoneOf [] g then outside? gs else none

/-- What follows the text behind a closing tag. If nothing but line comments comes, they are
code. -/
def behindClosingTag? (gs : List Glyph) : Option (List Glyph) :=
  match skipToCode? false gs with
  | some [] => some gs
  | _ => outside? gs

end Lineage.Php.Lexical
