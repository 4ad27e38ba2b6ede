/-!
# Splitting text

A text split at every occurrence of a separator character. Splitting never loses a character: the
pieces joined by the separator are the text again (`join_split`), and there is always at least one
piece.
-/
namespace Lineage.Text

/-- The pieces of `s` between the occurrences of `sep`; one more piece than there are separators. -/
def split (sep : Char) : List Char → List (List Char)
  | [] => [[]]
  | c :: s =>
    if c = sep then [] :: split sep s
    else match split sep s with
      | [] => [[c]]
      | piece :: pieces => (c :: piece) :: pieces

/-- The pieces put together, with `sep` between neighbours. -/
def join (sep : List Char) : List (List Char) → List Char
  | [] => []
  | [piece] => piece
  | piece :: next :: pieces => piece ++ sep ++ join sep (next :: pieces)

theorem split_ne_nil (sep : Char) (s : List Char) : split sep s ≠ [] := by
  induction s with
  | nil => simp [split]
  | cons c s ih =>
    by_cases h : c = sep
    · simp [split, h]
    · cases hs : split sep s with
      | nil => exact absurd hs ih
      | cons piece pieces => simp [split, h, hs]

theorem join_split (sep : Char) (s : List Char) : join [sep] (split sep s) = s := by
  induction s with
  | nil => simp [split, join]
  | cons c s ih =>
    cases hs : split sep s with
    | nil => exact absurd hs (split_ne_nil sep s)
    | cons piece pieces =>
      rw [hs] at ih
      by_cases h : c = sep
      · subst h; simp [split, hs, join, ih]
      · cases pieces with
        | nil => simp [split, h, hs, join] at ih ⊢; exact ih
        | cons next pieces => simp [split, h, hs, join] at ih ⊢; exact ih

/-- `s` without the leading `pre`, if it starts with it. -/
def stripPrefix? : List Char → List Char → Option (List Char)
  | [], s => some s
  | p :: pre, c :: s => if p = c then stripPrefix? pre s else none
  | _ :: _, [] => none

/-- Does `s` end with `post`? -/
def endsWith (post s : List Char) : Bool :=
  (stripPrefix? post.reverse s.reverse).isSome

/-- The text with its ASCII capitals made small. -/
def asciiLower (s : List Char) : List Char :=
  s.map Char.toLower

end Lineage.Text
