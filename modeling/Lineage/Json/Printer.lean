import Lineage.Json.Basic

/-!
# Writing JSON text

Only the quote, the backslash and the control characters below the space are escaped; all other
characters are written as they are. The layout is two blanks per level, one member or element to a
line, with empty lists and objects closed on the spot. A layout on one line serves machines.
-/
namespace Lineage.Json

def hexChar (n : Nat) : Char :=
  if n < 10 then Char.ofNat ('0'.toNat + n) else Char.ofNat ('a'.toNat + (n - 10))

/-- How `c` is written inside a string. -/
def escape (c : Char) : List Char :=
  match c with
  | '"' => ['\\', '"']
  | '\\' => ['\\', '\\']
  | '\x08' => ['\\', 'b']
  | '\t' => ['\\', 't']
  | '\n' => ['\\', 'n']
  | '\x0c' => ['\\', 'f']
  | '\r' => ['\\', 'r']
  | c =>
    if c.toNat < 0x20 then ['\\', 'u', '0', '0', hexChar (c.toNat / 16), hexChar (c.toNat % 16)]
    else [c]

/-- The string `s` in quotes. -/
def quote (s : String) : String :=
  "\"" ++ String.ofList (s.toList.flatMap escape) ++ "\""

def indent (level : Nat) : String :=
  String.ofList (List.replicate (2 * level) ' ')

mutual

/-- The value laid out over lines, its inner lines indented by more than `level` levels. -/
def pretty (level : Nat) : Json → String
  | .null => "null"
  | .bool b => if b then "true" else "false"
  | .natural n => toString n
  | .numeral t => t
  | .string s => quote s
  | .unreadable => "null"
  | .array [] => "[]"
  | .array (v :: l) =>
    "[\n" ++ indent (level + 1) ++ pretty (level + 1) v ++ prettyElements (level + 1) l ++ "\n" ++
      indent level ++ "]"
  | .object [] => "\x7b\x7d"
  | .object ((k, v) :: l) =>
    "\x7b\n" ++ indent (level + 1) ++ quote k ++ ": " ++ pretty (level + 1) v ++
      prettyMembers (level + 1) l ++ "\n" ++ indent level ++ "\x7d"

def prettyElements (level : Nat) : List Json → String
  | [] => ""
  | v :: l => ",\n" ++ indent level ++ pretty level v ++ prettyElements level l

def prettyMembers (level : Nat) : List (String × Json) → String
  | [] => ""
  | (k, v) :: l =>
    ",\n" ++ indent level ++ quote k ++ ": " ++ pretty level v ++ prettyMembers level l

end

/-- The value laid out over lines. -/
def render (v : Json) : String := pretty 0 v

mutual

/-- The value on one line. -/
def compact : Json → String
  | .null => "null"
  | .bool b => if b then "true" else "false"
  | .natural n => toString n
  | .numeral t => t
  | .string s => quote s
  | .unreadable => "null"
  | .array [] => "[]"
  | .array (v :: l) => "[" ++ compact v ++ compactElements l ++ "]"
  | .object [] => "\x7b\x7d"
  | .object ((k, v) :: l) => "\x7b" ++ quote k ++ ":" ++ compact v ++ compactMembers l ++ "\x7d"

def compactElements : List Json → String
  | [] => ""
  | v :: l => "," ++ compact v ++ compactElements l

def compactMembers : List (String × Json) → String
  | [] => ""
  | (k, v) :: l => "," ++ quote k ++ ":" ++ compact v ++ compactMembers l

end

end Lineage.Json
