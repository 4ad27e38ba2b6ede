import Lineage.Json.Basic

/-!
# Reading JSON text

The whole text must be one value with JSON blanks (space, tab, line feed, carriage return) around
it. Control characters must be escaped in strings, numbers have no leading zeros, there are no
comments, trailing commas or byte order marks, and nesting may be of any depth.

The readers take the text that is left and return a value with what follows it. Each value takes at
least one character, so the length of the text bounds the recursion.
-/
namespace Lineage.Json

def isSpace (c : Char) : Bool :=
  c == ' ' || c == '\t' || c == '\n' || c == '\r'

def skipSpace (s : List Char) : List Char :=
  s.dropWhile isSpace

def hexDigit? (c : Char) : Option Nat :=
  if '0' ≤ c ∧ c ≤ '9' then some (c.toNat - '0'.toNat)
  else if 'a' ≤ c ∧ c ≤ 'f' then some (c.toNat - 'a'.toNat + 10)
  else if 'A' ≤ c ∧ c ≤ 'F' then some (c.toNat - 'A'.toNat + 10)
  else none

/-- The value of four hexadecimal digits. -/
def hex4? (a b c d : Char) : Option Nat :=
  match hexDigit? a, hexDigit? b, hexDigit? c, hexDigit? d with
  | some x, some y, some z, some w => some (((x * 16 + y) * 16 + z) * 16 + w)
  | _, _, _, _ => none

def isHighSurrogate (n : Nat) : Bool := 0xD800 ≤ n && n < 0xDC00

def isLowSurrogate (n : Nat) : Bool := 0xDC00 ≤ n && n < 0xE000

/-- The character that a one-letter escape stands for. -/
def shortEscape? : Char → Option Char
  | '"' => some '"'
  | '\\' => some '\\'
  | '/' => some '/'
  | 'b' => some '\x08'
  | 'f' => some '\x0c'
  | 'n' => some '\n'
  | 'r' => some '\r'
  | 't' => some '\t'
  | _ => none

/-- One item of a string: a character, or a code unit that pairs with nothing. -/
inductive Unit16 where
  | char (c : Char)
  | surrogate (n : Nat)
  deriving DecidableEq, Repr

/-- The items of a string up to its closing quote, and the text behind the quote. -/
def readUnits : List Char → Option (List Unit16 × List Char)
  | [] => none
  | '"' :: s => some ([], s)
  | '\\' :: 'u' :: a :: b :: c :: d :: s =>
    match hex4? a b c d with
    | none => none
    | some n =>
      (readUnits s).map fun (us, rest) =>
        let u :=
          if isHighSurrogate n || isLowSurrogate n then .surrogate n else .char (Char.ofNat n)
        (u :: us, rest)
  | '\\' :: e :: s =>
    match shortEscape? e with
    | none => none
    | some c => (readUnits s).map fun (us, rest) => (.char c :: us, rest)
  | c :: s =>
    if c == '\\' || c.toNat < 0x20 then none
    else (readUnits s).map fun (us, rest) => (.char c :: us, rest)

/-- The text of the items, a high surrogate with the low one behind it read as one character; `none`
if a surrogate is left over. -/
def textOfUnits? : List Unit16 → Option (List Char)
  | [] => some []
  | .char c :: us => (textOfUnits? us).map (c :: ·)
  | .surrogate h :: .surrogate l :: us =>
    if isHighSurrogate h && isLowSurrogate l then
      (textOfUnits? us).map (Char.ofNat (0x10000 + (h - 0xD800) * 0x400 + (l - 0xDC00)) :: ·)
    else none
  | .surrogate _ :: _ => none

/-- The text of a string whose opening quote has been read. The text itself is `none` if it holds an
unpaired surrogate. -/
def readString (s : List Char) : Option (Option String × List Char) :=
  (readUnits s).map fun (us, rest) => ((textOfUnits? us).map String.ofList, rest)

def isDigit (c : Char) : Bool := '0' ≤ c && c ≤ '9'

/-- The digits at the front. -/
def takeDigits (s : List Char) : List Char × List Char :=
  (s.takeWhile isDigit, s.dropWhile isDigit)

def naturalOfDigits (ds : List Char) : Nat :=
  ds.foldl (fun n c => n * 10 + (c.toNat - '0'.toNat)) 0

/-- A fraction, if a point stands at the front: the point and at least one digit. -/
def readFraction : List Char → Option (List Char × List Char)
  | '.' :: s =>
    let (ds, rest) := takeDigits s
    if ds.isEmpty then none else some ('.' :: ds, rest)
  | s => some ([], s)

/-- An exponent, if its letter stands at the front: the letter, a sign or none, at least one
digit. -/
def readExponent : List Char → Option (List Char × List Char)
  | e :: s =>
    if e == 'e' || e == 'E' then
      let (sign, s) := match s with
        | '+' :: r => (['+'], r)
        | '-' :: r => (['-'], r)
        | r => ([], r)
      let (ds, rest) := takeDigits s
      if ds.isEmpty then none else some (e :: sign ++ ds, rest)
    else some ([], e :: s)
  | [] => some ([], [])

/-- The whole part of a number: zero, or digits that do not start with zero. -/
def readWhole (s : List Char) : Option (List Char × List Char) :=
  match takeDigits s with
  | ([], _) => none
  | (['0'], rest) => some (['0'], rest)
  | ('0' :: _, _) => none
  | (ds, rest) => some (ds, rest)

/-- A number; `sign` is the minus sign in front of `s`, if there is one. -/
def readNumber (sign : List Char) (s : List Char) : Option (Json × List Char) :=
  match readWhole s with
  | none => none
  | some (whole, s) =>
    match readFraction s with
    | none => none
    | some (fraction, s) =>
      match readExponent s with
      | none => none
      | some (exponent, s) =>
        if sign.isEmpty && fraction.isEmpty && exponent.isEmpty then
          some (.natural (naturalOfDigits whole), s)
        else some (.numeral (String.ofList (sign ++ whole ++ fraction ++ exponent)), s)

/-- The object of the read members, unreadable if a key is. -/
def ofMembers (members : List (Option String × Json)) : Json :=
  if members.all fun m => m.1.isSome then .object (members.map fun m => (m.1.getD "", m.2))
  else .unreadable

mutual

/-- The value at the front of `s`. -/
def readValue : Nat → List Char → Option (Json × List Char)
  | 0, _ => none
  | fuel + 1, s =>
    match skipSpace s with
    | 'n' :: 'u' :: 'l' :: 'l' :: r => some (.null, r)
    | 't' :: 'r' :: 'u' :: 'e' :: r => some (.bool true, r)
    | 'f' :: 'a' :: 'l' :: 's' :: 'e' :: r => some (.bool false, r)
    | '"' :: r => (readString r).map fun (t, r) => (t.elim .unreadable .string, r)
    | '[' :: r =>
      match skipSpace r with
      | ']' :: r => some (.array [], r)
      | r => (readElements fuel r).map fun (l, r) => (.array l, r)
    | '\x7b' :: r =>
      match skipSpace r with
      | '\x7d' :: r => some (.object [], r)
      | r => (readMembers fuel r).map fun (l, r) => (ofMembers l, r)
    | '-' :: r => readNumber ['-'] r
    | r => readNumber [] r

/-- The elements of an array from its first element on, up to the closing bracket. -/
def readElements : Nat → List Char → Option (List Json × List Char)
  | 0, _ => none
  | fuel + 1, s =>
    match readValue fuel s with
    | none => none
    | some (v, r) =>
      match skipSpace r with
      | ']' :: r => some ([v], r)
      | ',' :: r => (readElements fuel r).map fun (l, r) => (v :: l, r)
      | _ => none

/-- The members of an object from its first key on, up to the closing brace. -/
def readMembers : Nat → List Char → Option (List (Option String × Json) × List Char)
  | 0, _ => none
  | fuel + 1, s =>
    match skipSpace s with
    | '"' :: r =>
      match readString r with
      | none => none
      | some (key, r) =>
        match skipSpace r with
        | ':' :: r =>
          match readValue fuel r with
          | none => none
          | some (v, r) =>
            match skipSpace r with
            | '\x7d' :: r => some ([(key, v)], r)
            | ',' :: r => (readMembers fuel r).map fun (l, r) => ((key, v) :: l, r)
            | _ => none
        | _ => none
    | _ => none

end

/-- The value that the whole text `s` is, blanks around it apart. -/
def read? (s : String) : Option Json :=
  let cs := s.toList
  match readValue (cs.length + 1) cs with
  | some (v, rest) => if (skipSpace rest).isEmpty then some v else none
  | none => none

end Lineage.Json
