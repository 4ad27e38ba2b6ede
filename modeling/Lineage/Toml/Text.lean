import Lineage.Json.Reader

/-!
# Strings and keys in TOML

Basic strings have escapes, literal ones none; each has a form of several lines between three
quotes. Control characters other than the tab may not stand in them as such, nor in comments.

The readers get the text behind the opening quote and return what follows the closing one. Each step
takes at least one character, so the length of the text bounds the recursion.
-/
namespace Lineage.Toml

/-- Control characters, the tab apart. -/
def isControl (c : Char) : Bool := (c.toNat < 0x20 && c != '\t') || c.toNat == 0x7F

def isSpace (c : Char) : Bool := c == ' ' || c == '\t'

def skipSpace (s : List Char) : List Char := s.dropWhile isSpace

/-- What follows the line end at the front, if one stands there. -/
def newline? : List Char → Option (List Char)
  | '\n' :: s => some s
  | '\r' :: '\n' :: s => some s
  | _ => none

/-! ## Escapes -/

/-- The character with this code, unless the code is that of a surrogate or too large. -/
def charOf? (code : Nat) : Option Char :=
  if code < 0xD800 ∨ (0xDFFF < code ∧ code < 0x110000) then some (Char.ofNat code) else none

/-- The character given by exactly these hexadecimal digits at the front. -/
def hexChar? (count : Nat) (s : List Char) : Option (Char × List Char) :=
  let ds := (s.take count).filterMap Json.hexDigit?
  if ds.length = count then
    (charOf? (ds.foldl (fun n d => n * 16 + d) 0)).map fun c => (c, s.drop count)
  else none

/-- The character that an escape stands for, from the letter behind the backslash on. -/
def escape? : List Char → Option (Char × List Char)
  | '"' :: s => some ('"', s)
  | '\\' :: s => some ('\\', s)
  | 'b' :: s => some ('\x08', s)
  | 'e' :: s => some ('\x1b', s)
  | 'f' :: s => some ('\x0c', s)
  | 'n' :: s => some ('\n', s)
  | 'r' :: s => some ('\r', s)
  | 't' :: s => some ('\t', s)
  | 'x' :: s => hexChar? 2 s
  | 'u' :: s => hexChar? 4 s
  | 'U' :: s => hexChar? 8 s
  | _ => none

/-! ## Strings of one line -/

def readBasic : Nat → List Char → Option (List Char × List Char)
  | 0, _ => none
  | _ + 1, [] => none
  | fuel + 1, c :: s =>
    if c = '"' then some ([], s)
    else if c = '\\' then
      match escape? s with
      | none => none
      | some (d, s) => (readBasic fuel s).map fun (t, rest) => (d :: t, rest)
    else if isControl c then none
    else (readBasic fuel s).map fun (t, rest) => (c :: t, rest)

def readLiteral : List Char → Option (List Char × List Char)
  | [] => none
  | c :: s =>
    if c = '\'' then some ([], s)
    else if isControl c then none
    else (readLiteral s).map fun (t, rest) => (c :: t, rest)

/-! ## Strings of several lines -/

/-- A line end right behind the opening quotes does not belong to the string. -/
def skipFirstNewline (s : List Char) : List Char := (newline? s).getD s

/-- Quotes at the front: three of them close the string, and up to two more before belong to it. -/
def closing? (quote : Char) (s : List Char) : Option (List Char × List Char) :=
  let count := min 5 (s.takeWhile (· == quote)).length
  if 3 ≤ count then some (List.replicate (count - 3) quote, s.drop count) else none

/-- What follows blanks and line ends. -/
def skipLines : List Char → List Char
  | [] => []
  | c :: s =>
    if isSpace c || c == '\n' || (c == '\r' && s.head? == some '\n') then skipLines s else c :: s

/-- A backslash at the end of a line takes away all blanks up to the next text. -/
def skipFolded? (s : List Char) : Option (List Char) :=
  (newline? (skipSpace s)).map skipLines

def readLongBasic : Nat → List Char → Option (List Char × List Char)
  | 0, _ => none
  | _ + 1, [] => none
  | fuel + 1, c :: s =>
    match closing? '"' (c :: s) with
    | some found => some found
    | none =>
      if c = '\\' then
        match skipFolded? s with
        | some rest => readLongBasic fuel rest
        | none =>
          match escape? s with
          | none => none
          | some (d, s) => (readLongBasic fuel s).map fun (t, rest) => (d :: t, rest)
      else if isControl c && (newline? (c :: s)).isNone then none
      else if c = '\r' then
        (readLongBasic fuel (s.drop 1)).map fun (t, rest) => ('\r' :: '\n' :: t, rest)
      else (readLongBasic fuel s).map fun (t, rest) => (c :: t, rest)

def readLongLiteral : Nat → List Char → Option (List Char × List Char)
  | 0, _ => none
  | _ + 1, [] => none
  | fuel + 1, c :: s =>
    match closing? '\'' (c :: s) with
    | some found => some found
    | none =>
      if isControl c && (newline? (c :: s)).isNone then none
      else if c = '\r' then
        (readLongLiteral fuel (s.drop 1)).map fun (t, rest) => ('\r' :: '\n' :: t, rest)
      else (readLongLiteral fuel s).map fun (t, rest) => (c :: t, rest)

/-- The string at the front, with its quotes. -/
def readString (s : List Char) : Option (List Char × List Char) :=
  match s with
  | '"' :: '"' :: '"' :: body => readLongBasic (body.length + 1) (skipFirstNewline body)
  | '\'' :: '\'' :: '\'' :: body => readLongLiteral (body.length + 1) (skipFirstNewline body)
  | '"' :: body => readBasic (body.length + 1) body
  | '\'' :: body => readLiteral body
  | _ => none

/-! ## Keys -/

def isKeyChar (c : Char) : Bool := c.isAlphanum || c == '_' || c == '-'

/-- The key at the front: bare, or a string of one line. -/
def readKey (s : List Char) : Option (String × List Char) :=
  match s with
  | '"' :: body => (readBasic (body.length + 1) body).map fun (t, rest) => (String.ofList t, rest)
  | '\'' :: body => (readLiteral body).map fun (t, rest) => (String.ofList t, rest)
  | _ =>
    let key := s.takeWhile isKeyChar
    if key.isEmpty then none else some (String.ofList key, s.dropWhile isKeyChar)

/-- Keys with dots between them. -/
def readPath : Nat → List Char → Option (List String × List Char)
  | 0, _ => none
  | fuel + 1, s =>
    match readKey s with
    | none => none
    | some (key, rest) =>
      match skipSpace rest with
      | '.' :: more =>
        (readPath fuel (skipSpace more)).map fun (keys, rest) => (key :: keys, rest)
      | _ => some ([key], rest)

/-! ## Comments -/

/-- What follows the comment whose mark was read: its line end, or nothing. -/
def skipComment? : List Char → Option (List Char)
  | [] => some []
  | c :: s =>
    if (newline? (c :: s)).isSome then some (c :: s)
    else if isControl c then none
    else skipComment? s

/-- What follows blanks, line ends and comments. -/
def skipGap? : Nat → List Char → Option (List Char)
  | 0, s => some s
  | _ + 1, [] => some []
  | fuel + 1, c :: s =>
    if isSpace c then skipGap? fuel s
    else if c = '#' then
      match skipComment? s with
      | none => none
      | some rest => skipGap? fuel rest
    else
      match newline? (c :: s) with
      | some rest => skipGap? fuel rest
      | none => some (c :: s)

/-- What follows the rest of a line that holds nothing more but blanks and a comment. -/
def skipLineEnd? (s : List Char) : Option (List Char) :=
  match skipSpace s with
  | [] => some []
  | '#' :: rest => skipComment? rest
  | rest => newline? rest

end Lineage.Toml
