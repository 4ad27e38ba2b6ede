import Lineage.Text.Emoji
import Lineage.Text.Width

/-!
# Columns on a terminal

How many columns a text takes. Mostly that is the sum over its characters, but some sequences are
drawn as one sign: pictures that are joined, toned or chosen by a selector, and ligatures of some
scripts.

The text is read from its end. `Cluster` says what the characters read last can still become part
of, and `extend` what one more character before them adds.
-/
namespace Lineage.Text

/-- What a text starts with, as far as a character before it may join in. The flag of a letter that
needs a joiner says whether one stands before it. -/
inductive Cluster where
  | plain
  | lineFeed
  | picture
  | tone
  | flagLetter
  | flagLetters
  /-- A picture behind a joiner. -/
  | joinedPicture
  | joinedKeycap
  | joinedFlagLetter
  | joinedEvenFlagLetters
  | joinedOddFlagLetters
  /-- The end of a tag before a joiner and a picture. -/
  | tagEnd
  | tagLetters (count : Nat)
  | tagDigits (count : Nat)
  | arabicAlef
  | hebrewLamed (joined : Bool)
  | khmerLetter
  | bugineseYa (joined : Bool)
  | bugineseVowelYa
  | tifinaghLetter (joined : Bool)
  | tifinaghJoiner
  | lisuTone
  | turkicLetter (joined : Bool)
  | kiratVowel
  | kiratDoubleVowel
  deriving DecidableEq, Repr

namespace Cluster

/-- Clusters that become ligatures. -/
def isLigature : Cluster → Bool
  | .arabicAlef | .hebrewLamed _ | .khmerLetter | .bugineseYa _ | .bugineseVowelYa
  | .tifinaghLetter _ | .tifinaghJoiner | .lisuTone | .turkicLetter _ | .kiratVowel
  | .kiratDoubleVowel => true
  | _ => false

/-- The cluster behind a joiner. -/
def joined : Cluster → Cluster
  | .hebrewLamed _ => .hebrewLamed true
  | .bugineseYa _ => .bugineseYa true
  | .tifinaghLetter _ => .tifinaghLetter true
  | .turkicLetter _ => .turkicLetter true
  | x => x

/-- Is the cluster a picture behind a joiner, or the keycap of one? -/
def isJoined : Cluster → Bool
  | .joinedPicture | .joinedKeycap => true
  | _ => false

end Cluster

/-- A selector that changes the character before it. -/
inductive Selector where
  | picture
  | text
  | wideQuote
  deriving DecidableEq, Repr

/-- What a text starts with: possibly a selector, and the cluster behind it. -/
structure Start where
  cluster : Cluster := .plain
  selector : Option Selector := none
  deriving DecidableEq, Repr

/-- The start without its selector. -/
def Start.bare (s : Start) : Start :=
  { cluster := if s.selector.isSome && !s.cluster.isLigature then .plain else s.cluster }

/-! ## Characters with a part in clusters -/

def isTifinaghLetter (c : Char) : Bool := inRanges [(0x2D31, 0x2D65), (0x2D6F, 0x2D6F)] c

/-- The letters that take the subscript form. -/
def isKhmerLetter (c : Char) : Bool :=
  inRanges
    [(0x1780, 0x1782), (0x1784, 0x1787), (0x1789, 0x178C), (0x178E, 0x1793), (0x1795, 0x1798),
      (0x179B, 0x179D), (0x17A0, 0x17A0), (0x17A2, 0x17A2), (0x17A7, 0x17A7), (0x17AB, 0x17AC),
      (0x17AF, 0x17AF)] c

/-- The forms of the letter alef. -/
def isArabicAlef (c : Char) : Bool :=
  inRanges
    [(0x622, 0x623), (0x625, 0x625), (0x627, 0x627), (0x671, 0x673), (0x675, 0x675), (0x773, 0x774),
      (0x870, 0x882)] c

/-- The forms of the letter lam. -/
def isArabicLam (c : Char) : Bool :=
  inRanges [(0x644, 0x644), (0x6B5, 0x6B8), (0x76A, 0x76A), (0x8A6, 0x8A6), (0x8C7, 0x8C7)] c

/-- Invisible marks that keep a ligature together. -/
def isInvisibleMark (c : Char) : Bool :=
  inRanges
    [(0x34F, 0x34F), (0x17B4, 0x17B5), (0x180B, 0x180D), (0x180F, 0x180F), (0x200D, 0x200D),
      (0xFE00, 0xFE0F), (0xE0100, 0xE01EF)] c

/-- Quotation marks that have a wide form. -/
def isCurlyQuote (c : Char) : Bool := inRanges [(0x2018, 0x2019), (0x201C, 0x201D)] c

/-- The cluster that a character starts by itself. -/
def clusterOf (c : Char) : Cluster :=
  if isFlagLetter c then .flagLetter
  else if isTone c then .tone
  else if isPicture c then .picture
  else if isArabicAlef c then .arabicAlef
  else if isKhmerLetter c then .khmerLetter
  else if isTifinaghLetter c then .tifinaghLetter false
  else
    match c.toNat with
    | 0x5DC => .hebrewLamed false
    | 0x1A10 => .bugineseYa false
    | 0xA4FC | 0xA4FD => .lisuTone
    | 0x10C03 => .turkicLetter false
    | 0x16D67 => .kiratVowel
    | 0x16D68 => .kiratDoubleVowel
    | _ => .plain

/-! ## Clusters -/

/-- What the letter `c` adds before letters that it forms a ligature with. -/
def extendLigature? (c : Char) (next : Cluster) : Option (Int × Cluster) :=
  match next, c.toNat with
  | .arabicAlef, _ =>
    if isArabicLam c then some (0, .plain)
    else if inRanges markRanges c then some (0, .arabicAlef)
    else none
  | .hebrewLamed true, 0x5D0 => some (0, .plain)
  | .khmerLetter, 0x17D2 => some (-1, .plain)
  | .bugineseYa true, 0x1A17 => some (0, .bugineseVowelYa)
  | .bugineseVowelYa, 0x1A15 => some (0, .plain)
  | .tifinaghLetter _, 0x2D7F => some (1, .tifinaghJoiner)
  | .tifinaghLetter true, _ => if isTifinaghLetter c then some (0, .plain) else none
  | .tifinaghJoiner, _ => if isTifinaghLetter c then some (-1, .plain) else none
  | .lisuTone, _ => if inRanges [(0xA4F8, 0xA4FB)] c then some (0, .plain) else none
  | .turkicLetter true, 0x10C32 => some (0, .plain)
  | .kiratVowel, 0x16D63 => some (0, .plain)
  | .kiratVowel, 0x16D67 => some (0, .kiratDoubleVowel)
  | .kiratVowel, 0x16D68 => some (1, .kiratVowel)
  | .kiratVowel, 0x16D69 => some (0, .plain)
  | .kiratDoubleVowel, 0x16D63 => some (0, .plain)
  | _, _ => none

/-- What `c` adds before a picture that is joined to what comes before. -/
def extendJoined? (c : Char) : Option (Int × Cluster) :=
  if c.toNat = 0x20E3 then some (0, .joinedKeycap)
  else if isFlagLetter c then some (1, .joinedFlagLetter)
  else if isTone c then some (0, .tone)
  else if c.toNat = 0xE007F then some (0, .tagEnd)
  else if isPicture c then some (0, .picture)
  else none

/-- What `c` adds before the rest of a tag: up to six letters, or up to four letters and before them
up to three digits, and before all of them a black flag. -/
def extendTag? (c : Char) (letters digits : Nat) : Option (Int × Cluster) :=
  if digits = 0 && letters < 6 && isTagLetter c then some (0, .tagLetters (letters + 1))
  else if digits = 0 && letters ≤ 4 && isTagDigit c then some (0, .tagDigits 1)
  else if 0 < digits && digits < 3 && isTagDigit c then some (0, .tagDigits (digits + 1))
  else if c.toNat = 0x1F3F4 && (digits = 3 || (digits = 0 && 3 ≤ letters)) then some (0, .picture)
  else none

/-- What `c` adds before pictures. -/
def extendPicture? (c : Char) (next : Cluster) : Option (Int × Cluster) :=
  let joiner : Option (Int × Cluster) :=
    if c.toNat = 0x200D then some (0, .joinedPicture) else none
  match next with
  | .picture => joiner
  | .tone => if takesTone c then some (0, .picture) else joiner
  | .flagLetter => if isFlagLetter c then some (1, .flagLetters) else none
  | .flagLetters => if isFlagLetter c then some (1, .flagLetters) else joiner
  | .joinedPicture => extendJoined? c
  | .joinedFlagLetter => if isFlagLetter c then some (-1, .joinedEvenFlagLetters) else none
  | .joinedOddFlagLetters =>
    if isFlagLetter c then some (-1, .joinedEvenFlagLetters) else joiner
  | .joinedEvenFlagLetters =>
    if isFlagLetter c then some (3, .joinedOddFlagLetters) else joiner
  | .tagEnd => extendTag? c 0 0
  | .tagLetters n => extendTag? c n 0
  | .tagDigits n => extendTag? c 0 n
  | _ => none

/-- The start behind the selector `x`. -/
def select (x : Selector) (s : Start) : Start :=
  let kept := s.cluster.isLigature || (x = .picture && s.cluster.isJoined)
  { cluster := if kept then s.cluster else .plain, selector := some x }

/-- The selector that a character is. -/
def selectorOf? (c : Char) : Option Selector :=
  match c.toNat with
  | 0xFE0F => some .picture
  | 0xFE0E => some .text
  | 0xFE01 => some .wideQuote
  | _ => none

/-- What `c` adds before a selector that applies to it. -/
def extendSelected? (c : Char) (s : Start) : Option (Int × Start) :=
  match s.selector with
  | some .picture =>
    if isSelectable c then some (if s.cluster.isJoined then 0 else 2, { cluster := .picture })
    else none
  | some .text => if isNarrowable c then some (1, {}) else none
  | some .wideQuote => if isCurlyQuote c then some (2, {}) else none
  | none => none

/-- What `c` adds to the columns of a text that starts with `s`, and what the text starts with
then. A carriage return takes no column before a line feed. -/
def extend (c : Char) (s : Start) : Int × Start :=
  match extendSelected? c s with
  | some found => found
  | none =>
    let next := s.bare.cluster
    if c.toNat ≤ 0xA0 then
      if c = '\n' then (1, { cluster := .lineFeed })
      else if c = '\r' && next = .lineFeed then (0, {})
      else (1, {})
    else
      match selectorOf? c with
      | some x => (0, select x s.bare)
      | none =>
        if next.isLigature && next != .arabicAlef && c.toNat = 0x200D then
          (0, { cluster := next.joined })
        else if next.isLigature && next != .arabicAlef && isInvisibleMark c then
          (0, { cluster := next })
        else
          match extendLigature? c next <|> extendPicture? c next with
          | some (added, cluster) => (added, { cluster })
          | none => (charColumns c, { cluster := clusterOf c })

/-- The columns of a text. -/
def columns (s : List Char) : Nat :=
  (s.foldr (fun c (total, start) =>
    let (added, start) := extend c start
    (total + added, start)) ((0 : Int), ({} : Start))).1.toNat

end Lineage.Text
