import Mathlib.Data.List.Basic
import Mathlib.Tactic.SplitIfs
import Lineage.Php.Lexical.Token

/-!
# Tokens are stretches of the source

Whatever may come next, what `next` finds is a stretch of the source. Where it starts and what follows
it are ends of the glyphs that are left, so none is repeated or made up, and the place of a token can
be read off its first glyph and the first one behind it.

**Readers.** Each reader of a piece leaves an end of what it is given. The lemmas are rules for
`grind`, so that a reader is followed by way of those that it uses.

**Words (`Spelled`).** A token for a word is spelled by its characters, in capitals or small letters.
Of all readers, the one of words alone gives such a token (`word?_follows`).

**Result (`next_found`).** Both together, for every lexeme.
-/
namespace Lineage.Php.Lexical

section Readers
variable {gs rest : List Glyph}

@[grind ←]
theorem suffix_behind {g : Glyph} (h : rest <:+ gs) : rest <:+ g :: gs :=
  h.trans (List.suffix_cons g gs)

/-! ## Comments and blanks -/

@[grind ←]
theorem suffix_dropWhile (p : Char → Bool) (gs : List Glyph) : dropWhile p gs <:+ gs :=
  List.dropWhile_suffix _

@[grind →]
theorem suffix_of_after? {s : String} (h : after? s gs = some rest) : rest <:+ gs := by
  rw [after?] at h
  grind [List.drop_suffix]

@[grind ←]
theorem suffix_lineComment (gs : List Glyph) : lineComment gs <:+ gs := by
  fun_induction lineComment gs <;> grind [List.drop_suffix]

@[grind →]
theorem suffix_of_blockComment? (h : blockComment? gs = some rest) : rest <:+ gs := by
  fun_induction blockComment? gs <;> grind [List.drop_suffix]

@[grind →]
theorem suffix_of_comment? (h : comment? gs = some rest) : rest <:+ gs := by
  unfold comment? at h
  grind

@[grind →]
theorem suffix_of_skipToCode? {inside : Bool} (h : skipToCode? inside gs = some rest) :
    rest <:+ gs := by
  fun_induction skipToCode? inside gs <;> grind

/-! ## Numbers -/

@[grind ←]
theorem suffix_digitGroups (p : Char → Bool) (gs : List Glyph) : digitGroups p gs <:+ gs := by
  fun_induction digitGroups p gs <;> grind

@[grind →]
theorem suffix_of_exponent? (h : exponent? gs = some rest) : rest <:+ gs := by
  unfold exponent? at h
  grind

@[grind →]
theorem suffix_of_float? (h : float? gs = some rest) : rest <:+ gs := by
  have hwhole := suffix_digitGroups Char.isDigit gs
  unfold float? at h
  split at h
  · cases h
  · rename_i g behind hdigits
    rw [hdigits] at hwhole
    refine List.IsSuffix.trans ?_ hwhole
    split at h
    · cases h
      refine suffix_behind (List.IsSuffix.trans ?_ (suffix_digitGroups Char.isDigit behind))
      cases hexp : exponent? (digitGroups Char.isDigit behind) with
      | none => exact List.suffix_refl _
      | some rest => exact suffix_of_exponent? hexp
    · exact suffix_of_exponent? h

@[grind →]
theorem suffix_of_integer? (h : integer? gs = some rest) : rest <:+ gs := by
  unfold integer? at h
  grind

/-! ## Text -/

@[grind ←]
theorem suffix_plainText (gs : List Glyph) : plainText gs <:+ gs := by
  fun_induction plainText gs <;> grind

@[grind →]
theorem suffix_of_plainText? (h : plainText? gs = some rest) : rest <:+ gs := by
  unfold plainText? at h
  grind

@[grind →]
theorem suffix_of_escape? (h : escape? gs = some rest) : rest <:+ gs := by
  unfold escape? at h
  split at h
  · rename_i b c behind
    refine suffix_behind (suffix_behind ?_)
    dsimp only at h
    split_ifs at h <;> cases h
    · exact List.suffix_refl _
    · exact List.drop_suffix _ behind
    · exact List.drop_suffix _ behind
    · exact (List.drop_suffix 1 _).trans (List.drop_suffix _ behind)
  · cases h

@[grind →]
theorem suffix_of_templateText? {t : Template} {behindVariable found : Bool}
    (h : templateText? t behindVariable found gs = some rest) : rest <:+ gs := by
  fun_induction templateText? t behindVariable found gs <;> grind

@[grind →]
theorem suffix_of_restOfLine? {found : Bool} (h : restOfLine? found gs = some rest) :
    rest <:+ gs := by
  fun_induction restOfLine? found gs <;> grind

theorem suffix_dropLabel (label : List Char) (gs : List Glyph) : (dropLabel label gs).1 <:+ gs := by
  fun_induction dropLabel label gs <;> grind

/-- A line of a document ends where its reader does. -/
theorem suffix_of_documentLine? {label : List Char} {read : Bool → List Glyph → Option (List Glyph)}
    (hread : ∀ {found gs rest}, read found gs = some rest → rest <:+ gs)
    (h : documentLine? label gs read = some rest) : rest <:+ gs := by
  simp only [documentLine?] at h
  split at h
  · cases h
  · exact ((hread h).trans (suffix_dropLabel label _)).trans (suffix_dropWhile isBlank gs)

@[grind →]
theorem suffix_of_textOf? {label : List Char} {t : Template} {behindVariable : Bool}
    (h : textOf? label t behindVariable gs = some rest) : rest <:+ gs := by
  rw [textOf?.eq_def] at h
  split at h
  · exact suffix_of_documentLine? suffix_of_templateText? h
  · exact suffix_of_templateText? h

@[grind →]
theorem suffix_of_plainLine? {label : List Char} (h : plainLine? label gs = some rest) :
    rest <:+ gs :=
  suffix_of_documentLine? suffix_of_restOfLine? h

theorem suffix_of_label? {label : List Char} (h : label? gs = some (label, rest)) :
    rest <:+ gs := by
  unfold label? at h
  grind [List.drop_suffix]

@[grind →]
theorem suffix_of_closingLabel? {label : List Char} (h : closingLabel? label gs = some rest) :
    rest <:+ gs := by
  rw [closingLabel?] at h
  cases hlabel : label? (dropWhile isBlank gs) with
  | none => grind
  | some found =>
    obtain ⟨word, behind⟩ := found
    have := (suffix_of_label? hlabel).trans (suffix_dropWhile isBlank gs)
    grind

/-! ## Outside the tags -/

@[grind →]
theorem suffix_of_openingTag? (h : openingTag? gs = some rest) : rest <:+ gs := by
  unfold openingTag? at h
  grind [List.drop_suffix]

theorem suffix_of_outside? (h : outside? gs = some rest) : rest <:+ gs := by
  fun_induction outside? gs <;> grind

theorem suffix_of_behindClosingTag? (h : behindClosingTag? gs = some rest) : rest <:+ gs := by
  unfold behindClosingTag? at h
  split at h
  · cases h
    exact List.suffix_refl gs
  · exact suffix_of_outside? h

end Readers

/-! ## Words -/

/-- The stretch between two rests of a source is the word `w`, in capitals or small letters. -/
def Spelled (w : String) (start rest : List Glyph) : Prop :=
  ∃ word, start = word ++ rest ∧ word.map (fun g => g.char.map Char.toLower) = w.toList.map some

theorem map_char_takeWhile (p : Char → Bool) (gs : List Glyph) :
    (takeWhile p gs).map (fun g => g.char.map Char.toLower) =
      ((Glyph.text (takeWhile p gs)).map Char.toLower).map some := by
  rw [Glyph.text, List.map_map]
  induction gs with
  | nil => rfl
  | cons g gs ih =>
    rw [takeWhile, List.takeWhile_cons]
    split
    · rename_i hg
      cases hc : g.char with
      | none => simp [Glyph.satisfies, hc] at hg
      | some c => simpa [takeWhile, hc] using ih
    · rfl

variable {expects : Terminal → Bool} {gs rest : List Glyph} {t : Terminal}

/-- `rest` follows a token `t` at the front of `gs`. -/
def Follows (t : Terminal) (gs rest : List Glyph) : Prop :=
  rest <:+ gs ∧ ∀ w, t = .word w → Spelled w gs rest

theorem word?_follows (h : word? expects gs = some (t, rest)) : Follows t gs rest := by
  rw [word?] at h
  split at h
  · obtain ⟨t, ht, heq⟩ := Option.map_eq_some_iff.mp h
    obtain ⟨rfl, rfl⟩ := Prod.mk.inj heq
    refine ⟨List.drop_suffix _ gs, ?_⟩
    rintro w rfl
    refine ⟨takeWhile isNamePart gs, ?_, ?_⟩
    · exact (List.prefix_iff_eq_append.mp (List.takeWhile_prefix _)).symm
    · -- Of the terminals that a word can be, one alone is a word in any letters.
      have hw := List.mem_of_find?_eq_some ht
      obtain rfl : w = String.ofList ((Glyph.text (takeWhile isNamePart gs)).map Char.toLower) := by
        simpa using hw
      rw [map_char_takeWhile, String.toList_ofList]
  · cases h

/-! ## Tokens -/

/-- What is found at the front of `gs`: stretches of it, and words as they are spelled. -/
def Lexeme.Found (gs : List Glyph) : Lexeme → Prop
  | .token t start rest => start <:+ gs ∧ Follows t start rest
  | .comment start rest | .closingTag start rest => start <:+ gs ∧ rest <:+ start
  | .stray start => start <:+ gs
  | .ending => True

theorem Lexeme.Found.mono {xs ys : List Glyph} {l : Lexeme} (h : l.Found xs) (hxs : xs <:+ ys) :
    l.Found ys := by
  cases l with
  | token | comment | closingTag => exact ⟨h.1.trans hxs, h.2⟩
  | stray => exact List.IsSuffix.trans h hxs
  | ending => trivial

/-- A token that is no word, right at the front. -/
theorem Lexeme.found_here (h : rest <:+ gs) (ht : ∀ w, t ≠ .word w) :
    (Lexeme.token t gs rest).Found gs :=
  ⟨List.suffix_refl gs, h, fun w hw => absurd hw (ht w)⟩

theorem text?_found {label : List Char} {l : Lexeme} (h : text? expects label gs = some l) :
    l.Found gs := by
  have hclosing : ∀ {l}, closing? label gs = some l → l.Found gs := by
    intro l h
    obtain ⟨rest, hrest, rfl⟩ := Option.map_eq_some_iff.mp h
    exact Lexeme.found_here (suffix_of_closingLabel? hrest) (by simp)
  rw [text?] at h
  split at h
  · obtain ⟨rest, hrest, rfl⟩ := Option.map_eq_some_iff.mp h
    exact Lexeme.found_here (suffix_of_textOf? hrest) (by simp)
  · simp only [Option.orElse_eq_orElse, Option.orElse_eq_or, Option.or_eq_some_iff] at h
    rcases h with h | ⟨-, h⟩
    · split at h
      · exact hclosing h
      · cases h
    · obtain ⟨rest, hrest, rfl⟩ := Option.map_eq_some_iff.mp h
      exact Lexeme.found_here (suffix_of_textOf? hrest) (by simp)
  · split at h
    · obtain ⟨rest, hrest, rfl⟩ := Option.map_eq_some_iff.mp h
      exact Lexeme.found_here (suffix_of_plainLine? hrest) (by simp)
    · split at h
      · exact hclosing h
      · cases h

theorem behindComments?_found {l : Lexeme} (h : behindComments? expects gs = some l) :
    l.Found gs := by
  rw [behindComments?] at h
  split at h
  · obtain ⟨code, hcode, h⟩ := Option.bind_eq_some_iff.mp h
    split at h
    · obtain ⟨⟨label, rest⟩, hrest, rfl⟩ := Option.map_eq_some_iff.mp h
      have hlabel := Lexeme.found_here (t := .label) (suffix_of_label? hrest) (by simp)
      exact hlabel.mono (suffix_of_skipToCode? hcode)
    · obtain ⟨rest, -, rfl⟩ := Option.map_eq_some_iff.mp h
      exact Lexeme.found_here (List.suffix_refl gs) (by simp)
  · cases h

theorem attached?_found {l : Lexeme} (h : attached? expects gs = some l) : l.Found gs := by
  have hreader : ∀ {t} {read : List Glyph → Option (List Glyph)} {l}, (∀ w, t ≠ .word w) →
      (∀ {rest}, read gs = some rest → rest <:+ gs) →
      (if expects t then (read gs).map (Lexeme.token t gs) else none) = some l → l.Found gs := by
    intro t read l ht hread h
    split at h
    · obtain ⟨rest, hrest, rfl⟩ := Option.map_eq_some_iff.mp h
      exact Lexeme.found_here (hread hrest) ht
    · cases h
  rw [attached?] at h
  simp only [Option.orElse_eq_orElse, Option.orElse_eq_or, Option.or_eq_some_iff] at h
  rcases h with h | ⟨-, h | ⟨-, h⟩⟩
  · exact hreader (by simp) suffix_of_plainText? h
  · exact hreader (by simp) suffix_of_escape? h
  · obtain ⟨s, -, h⟩ := List.exists_of_findSome?_eq_some h
    exact hreader (by simp) suffix_of_after? h

theorem newline?_found {l : Lexeme} (h : newline? expects gs = some l) : l.Found gs := by
  rw [newline?] at h
  split at h
  · have hstart := suffix_dropWhile (fun c => isGap c && c != '\n' && c != '\r') gs
    dsimp only at h
    split at h
    · rename_i g rest heq
      rw [heq] at hstart h
      split at h
      · cases h
        exact (Lexeme.found_here (List.suffix_cons g rest) (by simp)).mono hstart
      · split at h
        · cases h
          refine (Lexeme.found_here (suffix_behind ?_) (by simp)).mono hstart
          split
          · exact List.drop_suffix 1 rest
          · exact List.suffix_refl rest
        · cases h
    · cases h
  · cases h

/-! ## Code -/

theorem ofReader?_follows {u : Terminal} {read : List Glyph → Option (List Glyph)}
    (hu : ∀ w, u ≠ .word w) (hread : ∀ {rest}, read gs = some rest → rest <:+ gs)
    (h : ofReader? expects u read gs = some (t, rest)) : Follows t gs rest := by
  rw [ofReader?] at h
  split at h
  · obtain ⟨rest, hrest, heq⟩ := Option.map_eq_some_iff.mp h
    obtain ⟨rfl, rfl⟩ := Prod.mk.inj heq
    exact ⟨hread hrest, fun w hw => absurd hw (hu w)⟩
  · cases h

theorem symbol?_follows (h : symbol? expects gs = some (t, rest)) : Follows t gs rest := by
  obtain ⟨n, -, h⟩ := List.exists_of_findSome?_eq_some h
  dsimp only at h
  split at h
  · cases h
    exact ⟨List.drop_suffix n gs, by simp⟩
  · cases h

theorem binaryQuote?_follows (h : binaryQuote? expects gs = some (t, rest)) : Follows t gs rest := by
  rw [binaryQuote?.eq_def] at h
  split at h
  · rename_i b q behind
    split at h
    · obtain ⟨c, -, h⟩ := List.exists_of_findSome?_eq_some h
      split at h
      · cases h
        exact ⟨suffix_behind (List.suffix_cons q _), by simp⟩
      · cases h
    · cases h
  · cases h

theorem longer_eq_some {a b : Option (Terminal × List Glyph)} {x : Terminal × List Glyph}
    (h : longer a b = some x) : a = some x ∨ b = some x := by
  rw [longer.eq_def] at h
  grind

/-- The longest of several tokens is one of them. -/
theorem mem_of_foldl_longer {xs : List (Option (Terminal × List Glyph))}
    {a : Option (Terminal × List Glyph)} {x : Terminal × List Glyph}
    (h : xs.foldl longer a = some x) : a = some x ∨ some x ∈ xs := by
  induction xs generalizing a with
  | nil => exact Or.inl h
  | cons y ys ih =>
    rcases ih h with h | h
    · rcases longer_eq_some h with h | rfl
      · exact Or.inl h
      · exact Or.inr List.mem_cons_self
    · exact Or.inr (List.mem_cons_of_mem y h)

theorem longest?_follows (h : longest? expects gs = some (t, rest)) : Follows t gs rest := by
  have hmem := (mem_of_foldl_longer h).resolve_left (by simp)
  simp only [List.mem_cons, List.not_mem_nil, or_false] at hmem
  rcases hmem with h | h | h | h | h | h
  · exact symbol?_follows h.symm
  · exact ofReader?_follows (by simp) suffix_of_float? h.symm
  · exact ofReader?_follows (by simp) suffix_of_integer? h.symm
  · exact binaryQuote?_follows h.symm
  · exact word?_follows h.symm
  · exact ofReader?_follows (by simp) suffix_of_after? h.symm

theorem code_found (expects : Terminal → Bool) (gs : List Glyph) : (code expects gs).Found gs := by
  rw [code]
  split
  · trivial
  · split
    · rename_i hrest
      exact ⟨List.suffix_refl gs, suffix_of_after? hrest⟩
    · split
      · exact Lexeme.found_here (List.drop_suffix 2 gs) (by simp)
      · split
        · rename_i hrest
          exact ⟨List.suffix_refl gs, suffix_of_comment? hrest⟩
        · split
          · rename_i hlongest
            exact ⟨List.suffix_refl gs, longest?_follows hlongest⟩
          · exact List.suffix_refl gs

/-- **What is found is a stretch of the source, and words are spelled out.** -/
theorem next_found (expects : Terminal → Bool) (label : List Char) (gs : List Glyph) :
    (next expects label gs).Found gs := by
  rw [next]
  split
  · rename_i l h
    simp only [Option.orElse_eq_orElse, Option.orElse_eq_or, Option.or_eq_some_iff] at h
    rcases h with h | ⟨-, h | ⟨-, h | ⟨-, h⟩⟩⟩
    · exact text?_found h
    · exact behindComments?_found h
    · exact attached?_found h
    · exact newline?_found h
  · exact (code_found expects _).mono (suffix_dropWhile isGap gs)

end Lineage.Php.Lexical
