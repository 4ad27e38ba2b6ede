/-!
# Numbers and dates in TOML

Whether a word is a number or a date. Digits may be grouped by single underscores; whole parts have
no leading zeros; hexadecimal, octal and binary integers take no sign. Integers have to fit in 128
bits and floats must not overflow a double. Dates are days of the calendar, and a time may leave out
its seconds.
-/
namespace Lineage.Toml

def isDigit (c : Char) : Bool := '0' ≤ c && c ≤ '9'

def isHexDigit (c : Char) : Bool := isDigit c || ('a' ≤ c && c ≤ 'f') || ('A' ≤ c && c ≤ 'F')

def digitValue (c : Char) : Nat :=
  if isDigit c then c.toNat - 48 else if 'a' ≤ c then c.toNat - 87 else c.toNat - 55

/-- Digits, with single underscores between them. -/
def areDigits (p : Char → Bool) : List Char → Bool
  | [] => false
  | [c] => p c
  | c :: '_' :: rest => p c && areDigits p rest
  | c :: rest => p c && areDigits p rest

def numberOf (base : Nat) (ds : List Char) : Nat :=
  (ds.filter (· != '_')).foldl (fun n c => n * base + digitValue c) 0

/-! ## Numbers -/

/-- The sign at the front, and the rest. -/
def splitSign : List Char → Option Char × List Char
  | '+' :: rest => (some '+', rest)
  | '-' :: rest => (some '-', rest)
  | s => (none, s)

/-- Decimal digits without a leading zero. -/
def isWhole (s : List Char) : Bool := areDigits isDigit s && (s == ['0'] || s.head? != some '0')

def isInteger (s : List Char) : Bool :=
  match s with
  | '0' :: 'x' :: ds => areDigits isHexDigit ds && numberOf 16 ds < Nat.pow 2 128
  | '0' :: 'o' :: ds => areDigits (fun c => '0' ≤ c && c ≤ '7') ds && numberOf 8 ds < Nat.pow 2 128
  | '0' :: 'b' :: ds =>
    areDigits (fun c => c == '0' || c == '1') ds && numberOf 2 ds < Nat.pow 2 128
  | _ =>
    let (sign, ds) := splitSign s
    isWhole ds &&
      (if sign == some '-' then numberOf 10 ds ≤ Nat.pow 2 127 else numberOf 10 ds < Nat.pow 2 128)

/-- Does the decimal `m · 10 ^ (up - down)` round to a finite double? -/
def fitsDouble (m up down : Nat) : Bool :=
  let digits := (Nat.toDigits 10 m).length
  if m = 0 ∨ digits + up < 300 + down then true
  else if 310 + down < digits + up then false
  else m * Nat.pow 10 up < (Nat.pow 2 1024 - Nat.pow 2 970) * Nat.pow 10 down

/-- The exponent behind its letter: nothing for a fault. -/
def exponent? (s : List Char) : Option (Nat × Nat) :=
  let (sign, ds) := splitSign s
  if !areDigits isDigit ds then none
  else if sign == some '-' then some (0, numberOf 10 ds) else some (numberOf 10 ds, 0)

def isFloat (s : List Char) : Bool :=
  let (_, body) := splitSign s
  let isE (c : Char) : Bool := c == 'e' || c == 'E'
  let mantissa := body.takeWhile fun c => !isE c
  let exponent := body.dropWhile fun c => !isE c
  let whole := mantissa.takeWhile (· != '.')
  let fraction := mantissa.dropWhile (· != '.')
  if body == ['i', 'n', 'f'] || body == ['n', 'a', 'n'] then true
  else if fraction.isEmpty && exponent.isEmpty then false
  else
    let fractionDigits := fraction.drop 1
    let fractionFits := fraction.isEmpty || areDigits isDigit fractionDigits
    match (if exponent.isEmpty then some (0, 0) else exponent? (exponent.drop 1)) with
    | none => false
    | some (up, down) =>
      let places := (fractionDigits.filter (· != '_')).length
      isWhole whole && fractionFits &&
        fitsDouble (numberOf 10 (whole ++ fractionDigits)) up (down + places)

/-! ## Dates and times -/

/-- The number written by exactly these digits at the front. -/
def fixedDigits? (count : Nat) (s : List Char) : Option (Nat × List Char) :=
  let ds := s.take count
  if ds.length = count ∧ ds.all isDigit then some (numberOf 10 ds, s.drop count) else none

def daysIn (year month : Nat) : Nat :=
  if month = 2 then
    if year % 4 = 0 ∧ (year % 100 ≠ 0 ∨ year % 400 = 0) then 29 else 28
  else if month = 4 ∨ month = 6 ∨ month = 9 ∨ month = 11 then 30 else 31

/-- What follows the date at the front. -/
def skipDate? (s : List Char) : Option (List Char) := do
  let (year, s) ← fixedDigits? 4 s
  let (month, s) ← fixedDigits? 2 (← dash? s)
  let (day, s) ← fixedDigits? 2 (← dash? s)
  if 1 ≤ month ∧ month ≤ 12 ∧ 1 ≤ day ∧ day ≤ daysIn year month then some s else none
where
  dash? : List Char → Option (List Char)
    | '-' :: s => some s
    | _ => none

/-- What follows the fraction of a second at the front. -/
def skipFraction? : List Char → Option (List Char)
  | '.' :: c :: s => if isDigit c then some (s.dropWhile isDigit) else none
  | ['.'] => none
  | s => some s

/-- What follows the hour and minute at the front. -/
def skipMinutes? (s : List Char) : Option (List Char) := do
  let (hour, s) ← fixedDigits? 2 s
  match s with
  | ':' :: s =>
    let (minute, s) ← fixedDigits? 2 s
    if hour ≤ 23 ∧ minute ≤ 59 then some s else none
  | _ => none

/-- What follows the time at the front. -/
def skipTime? (s : List Char) : Option (List Char) := do
  match ← skipMinutes? s with
  | ':' :: s =>
    let (second, s) ← fixedDigits? 2 s
    if second ≤ 60 then skipFraction? s else none
  | s => some s

/-- An offset from universal time, or nothing. -/
def isOffset : List Char → Bool
  | [] => true
  | ['Z'] => true
  | ['z'] => true
  | '+' :: s => skipMinutes? s == some []
  | '-' :: s => skipMinutes? s == some []
  | _ => false

/-- A date, a time, or both with a letter or a blank between them and possibly an offset behind. -/
def isDateTime (s : List Char) : Bool :=
  match skipDate? s with
  | some [] => true
  | some (c :: time) =>
    (c == 'T' || c == 't' || c == ' ') && (skipTime? time).any isOffset
  | none => skipTime? s == some []

def isNumber (s : List Char) : Bool := isInteger s || isFloat s

end Lineage.Toml
