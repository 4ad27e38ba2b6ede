/-!
# Terminals of PHP

The kinds of tokens that the grammar of PHP is written in. Which of them a stretch of text is
depends on where it stands: most keywords are plain names in places that have no use for the
keyword, and the text of a string is read by rules of its own.
-/
namespace Lineage.Php

/-- Strings with variables in them. -/
inductive Template where
  /-- Between double quotes. -/
  | quoted
  /-- Between backquotes. -/
  | shell
  /-- Over several lines, up to a label. -/
  | document
  deriving DecidableEq, Repr, Hashable

/-- Characters hash by their code points here, whatever other instance is in scope. -/
local instance (priority := high) hashableQuote : Hashable Char := ⟨fun c => hash c.val⟩

inductive Terminal where
  | symbol (s : String)
  /-- A symbol right behind the token before it. -/
  | attached (s : String)
  /-- A word in capitals or small letters, given in small letters. -/
  | word (w : String)
  /-- A word exactly as given. -/
  | exactWord (w : String)
  | name
  | integer
  | float
  /-- The quote `q` with a letter `b` before it. -/
  | binaryQuote (q : Char)
  /-- Text between single quotes. -/
  | plainText
  /-- An escape sequence in a template. -/
  | escape
  /-- The start of an escape sequence for a code point that turns out to be none. -/
  | bareEscape
  /-- Plain text in a template. -/
  | templateText (t : Template)
  /-- Plain text in a template, right behind a variable. -/
  | textBehindVariable (t : Template)
  /-- The label that opens a document. -/
  | label
  /-- The label that closes a document. -/
  | closingLabel
  /-- A line of a document without variables. -/
  | plainLine
  | newline
  /-- The end of a statement that has no semicolon, before a closing tag. -/
  | silentEnd
  deriving DecidableEq, Repr, Hashable

end Lineage.Php
