/-!
# UTF-8

Bytes read as characters. The ranges of the second byte exclude overlong forms, surrogates and code
points past the last plane. A sequence that breaks off is measured by its well-formed beginning, so
that a lossy reading puts one replacement character for each such beginning.
-/
namespace Lineage.Text.Utf8

def isTail (b : UInt8) : Bool := 0x80 ≤ b && b ≤ 0xBF

/-- May `c` follow the first byte `b` of a longer form? -/
def isSecond (b c : UInt8) : Bool :=
  if b == 0xE0 then 0xA0 ≤ c && c ≤ 0xBF
  else if b == 0xED then 0x80 ≤ c && c ≤ 0x9F
  else if b == 0xF0 then 0x90 ≤ c && c ≤ 0xBF
  else if b == 0xF4 then 0x80 ≤ c && c ≤ 0x8F
  else isTail c

/-- The six low bits. -/
def low (b : UInt8) : Nat := b.toNat % 64

/-- The character that starts with the byte `b`, and how many bytes it takes. `none` for bytes that
are no character; then the number is that of the bytes that could have begun one, at least one. -/
def first (b : UInt8) (rest : List UInt8) : Option Char × Nat :=
  if b < 0x80 then (some (Char.ofNat b.toNat), 1)
  else if b < 0xC2 then (none, 1)
  else if b < 0xE0 then
    match rest with
    | c :: _ => if isTail c then (some (Char.ofNat (b.toNat % 32 * 64 + low c)), 2) else (none, 1)
    | [] => (none, 1)
  else if b < 0xF0 then
    match rest with
    | c :: rest =>
      if isSecond b c then
        match rest with
        | d :: _ =>
          if isTail d then (some (Char.ofNat ((b.toNat % 16 * 64 + low c) * 64 + low d)), 3)
          else (none, 2)
        | [] => (none, 2)
      else (none, 1)
    | [] => (none, 1)
  else if b < 0xF5 then
    match rest with
    | c :: rest =>
      if isSecond b c then
        match rest with
        | d :: rest =>
          if isTail d then
            match rest with
            | e :: _ =>
              if isTail e then
                (some (Char.ofNat (((b.toNat % 8 * 64 + low c) * 64 + low d) * 64 + low e)), 4)
              else (none, 3)
            | [] => (none, 3)
          else (none, 2)
        | [] => (none, 2)
      else (none, 1)
    | [] => (none, 1)
  else (none, 1)

/-- The characters of `bytes`, a replacement character for what is none. -/
def lossyChars : Nat → List UInt8 → List Char
  | 0, _ => []
  | _ + 1, [] => []
  | fuel + 1, b :: rest =>
    let (c, width) := first b rest
    c.getD '�' :: lossyChars fuel (rest.drop (width - 1))

def lossy (bytes : List UInt8) : String :=
  String.ofList (lossyChars bytes.length bytes)

/-- The characters of `bytes`, if all of it is UTF-8. -/
def strictChars : Nat → List UInt8 → Option (List Char)
  | _, [] => some []
  | 0, _ :: _ => none
  | fuel + 1, b :: rest =>
    match first b rest with
    | (none, _) => none
    | (some c, width) => (strictChars fuel (rest.drop (width - 1))).map (c :: ·)

def decode? (bytes : List UInt8) : Option String :=
  (strictChars bytes.length bytes).map String.ofList

/-- The bytes of a text. -/
def encode (s : String) : List UInt8 :=
  s.toUTF8.toList

end Lineage.Text.Utf8
