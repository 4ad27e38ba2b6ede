import Lineage.Toml.Document
import Lineage.Toml.Scalar
import Lineage.Toml.Text

/-!
# Reading TOML

A document is a list of lines: headers, entries, comments. Arrays and inline tables may go over
several lines, with comments in them, and end with a comma; they nest at most eighty deep.
-/
namespace Lineage.Toml

/-- How deep arrays and inline tables may nest. -/
def maxDepth : Nat := 80

/-- The characters of numbers, dates and the words for truth values. -/
def isScalarChar (c : Char) : Bool :=
  c.isAlphanum || c == '_' || c == '-' || c == '+' || c == '.' || c == ':'

/-- The word at the front. A date and a time may have one blank between them. -/
def readWord (s : List Char) : List Char × List Char :=
  let word := s.takeWhile isScalarChar
  let rest := s.dropWhile isScalarChar
  match rest with
  | ' ' :: d :: more =>
    if skipDate? word == some [] && isDigit d then
      (word ++ ' ' :: (d :: more).takeWhile isScalarChar, (d :: more).dropWhile isScalarChar)
    else (word, rest)
  | _ => (word, rest)

/-- The value of a word. -/
def wordValue? (word : List Char) : Option Value :=
  if word == ['t', 'r', 'u', 'e'] then some (.boolean true)
  else if word == ['f', 'a', 'l', 's', 'e'] then some (.boolean false)
  else if isNumber word then some .number
  else if isDateTime word then some .date
  else none

mutual

/-- The value at the front; `depth` more arrays and tables may open. -/
def readValue : Nat → Nat → List Char → Option (Value × List Char)
  | 0, _, _ => none
  | fuel + 1, depth, s =>
    match s with
    | '"' :: _ => (readString s).map fun (t, rest) => (.string (String.ofList t), rest)
    | '\'' :: _ => (readString s).map fun (t, rest) => (.string (String.ofList t), rest)
    | '[' :: body =>
      match depth with
      | 0 => none
      | depth + 1 => (readElements fuel depth body).map fun (l, rest) => (.array l, rest)
    | '\x7b' :: body =>
      match depth with
      | 0 => none
      | depth + 1 =>
        match readEntries fuel depth body with
        | none => none
        | some (entries, rest) => (tableOfEntries? entries).map fun v => (v, rest)
    | _ =>
      let (word, rest) := readWord s
      (wordValue? word).map fun v => (v, rest)

/-- The elements of an array up to its closing bracket. -/
def readElements : Nat → Nat → List Char → Option (List Value × List Char)
  | 0, _, _ => none
  | fuel + 1, depth, s =>
    match skipGap? s.length s with
    | none => none
    | some (']' :: rest) => some ([], rest)
    | some s =>
      match readValue fuel depth s with
      | none => none
      | some (v, s) =>
        match skipGap? s.length s with
        | some (']' :: rest) => some ([v], rest)
        | some (',' :: rest) => (readElements fuel depth rest).map fun (l, rest) => (v :: l, rest)
        | _ => none

/-- The entries of an inline table up to its closing brace. -/
def readEntries : Nat → Nat → List Char → Option (List (List String × Value) × List Char)
  | 0, _, _ => none
  | fuel + 1, depth, s =>
    match skipGap? s.length s with
    | none => none
    | some ('\x7d' :: rest) => some ([], rest)
    | some s =>
      match readPath s.length s with
      | none => none
      | some (path, s) =>
        match skipGap? s.length s with
        | some ('=' :: s) =>
          match (skipGap? s.length s).bind (readValue fuel depth) with
          | none => none
          | some (v, s) =>
            match skipGap? s.length s with
            | some ('\x7d' :: rest) => some ([(path, v)], rest)
            | some (',' :: rest) =>
              (readEntries fuel depth rest).map fun (l, rest) => ((path, v) :: l, rest)
            | _ => none
        | _ => none

end

/-- The statement at the front of a line. -/
def readStatement (s : List Char) : Option (Statement × List Char) :=
  match s with
  | '[' :: '[' :: body =>
    match readPath body.length (skipSpace body) with
    | none => none
    | some (path, rest) =>
      match skipSpace rest with
      | ']' :: ']' :: rest => some (.tableOfArray path, rest)
      | _ => none
  | '[' :: body =>
    match readPath body.length (skipSpace body) with
    | none => none
    | some (path, rest) =>
      match skipSpace rest with
      | ']' :: rest => some (.table path, rest)
      | _ => none
  | _ =>
    match readPath s.length s with
    | none => none
    | some (path, rest) =>
      match skipSpace rest with
      | '=' :: rest =>
        (readValue (2 * rest.length + 1) maxDepth (skipSpace rest)).map fun (v, rest) =>
          (.entry path v, rest)
      | _ => none

def readStatements : Nat → List Char → Option (List Statement)
  | 0, _ => none
  | fuel + 1, s =>
    match skipGap? s.length s with
    | none => none
    | some [] => some []
    | some s =>
      match readStatement s with
      | none => none
      | some (statement, rest) =>
        match skipLineEnd? rest with
        | none => none
        | some rest => (readStatements fuel rest).map (statement :: ·)

/-- The table that a text is. A byte order mark at its start is skipped. -/
def read? (text : String) : Option Value :=
  let s := text.toList
  let s := if s.head?.any (·.toNat == 0xFEFF) then s.drop 1 else s
  match readStatements (s.length + 1) s with
  | none => none
  | some statements =>
    (addStatements [] [] statements).map fun entries => .table (entriesToValues entries)

end Lineage.Toml
