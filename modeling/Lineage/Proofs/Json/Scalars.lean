import Mathlib.Data.List.DropRight
import Lineage.Json.Printer
import Lineage.Json.Reader

/-!
# Reading blanks, strings and numbers

What the reader makes of the pieces of a JSON text that have no value inside them.

* `readString_quoted`: a string in quotes is read as that string. Every character comes back from
  its escape (`readUnits_escape`).
* `readNumber_toDigits`: a number in plain digits is read as that number, if no number goes on
  behind it (`Stops`).
-/
namespace Lineage.Json

/-! ## Blanks -/

/-- Nothing but blanks. -/
def Blanks (w : List Char) : Prop := ∀ c ∈ w, isSpace c = true

theorem blanks_nil : Blanks [] := fun _ hc => nomatch hc

theorem skipSpace_blanks {w : List Char} (hw : Blanks w) (s : List Char) :
    skipSpace (w ++ s) = skipSpace s :=
  List.dropWhile_append_of_pos hw

theorem skipSpace_of_not {c : Char} (hc : isSpace c = false) (s : List Char) :
    skipSpace (c :: s) = c :: s :=
  List.dropWhile_cons_of_neg (by simp [hc])

theorem skipSpace_skipSpace (s : List Char) : skipSpace (skipSpace s) = skipSpace s :=
  List.dropWhile_idempotent _ _

/-! ## Strings -/

/-- The string `s` in quotes. -/
def quoted (s : String) : List Char := '"' :: (s.toList.flatMap escape ++ ['"'])

theorem toList_quote (s : String) : (quote s).toList = quoted s := by
  simp [quote, quoted]

theorem hex4?_hexChar : ∀ n < 0x20, hex4? '0' '0' (hexChar (n / 16)) (hexChar (n % 16)) = some n := by
  decide

theorem readUnits_plain {c : Char} (hquote : c ≠ '"') (hslash : c ≠ '\\') (hcode : ¬ c.toNat < 0x20)
    (s : List Char) :
    readUnits (c :: s) = (readUnits s).map fun p => (.char c :: p.1, p.2) := by
  rw [readUnits.eq_def]
  split
  · rename_i heq
    cases heq
  · rename_i heq
    cases heq
    exact absurd rfl hquote
  · rename_i heq
    cases heq
    exact absurd rfl hslash
  · rename_i heq
    cases heq
    exact absurd rfl hslash
  · rename_i heq
    cases heq
    rw [if_neg (by simp [hslash, hcode])]

/-- An escape is read as the character it stands for. -/
theorem readUnits_escape (c : Char) (s : List Char) :
    readUnits (escape c ++ s) = (readUnits s).map fun p => (.char c :: p.1, p.2) := by
  unfold escape
  split
  · rfl
  · rfl
  · rfl
  · rfl
  · rfl
  · rfl
  · rfl
  · rename_i hquote hslash _ _ _ _ _
    split
    · rename_i hcode
      have hchar : Char.ofNat c.toNat = c := Char.ofNat_toNat c
      have hhigh : isHighSurrogate c.toNat = false := by
        simp [isHighSurrogate]
        omega
      have hlow : isLowSurrogate c.toNat = false := by
        simp [isLowSurrogate]
        omega
      simp only [List.cons_append, List.nil_append]
      rw [readUnits, hex4?_hexChar c.toNat hcode]
      simp [hhigh, hlow, hchar]
    · rename_i hcode
      exact readUnits_plain hquote hslash hcode s

theorem readUnits_flatMap (cs rest : List Char) :
    readUnits (cs.flatMap escape ++ '"' :: rest) = some (cs.map .char, rest) := by
  induction cs with
  | nil => rfl
  | cons c cs ih =>
    rw [List.flatMap_cons, List.append_assoc, readUnits_escape, ih]
    rfl

theorem textOfUnits?_map (cs : List Char) : textOfUnits? (cs.map .char) = some cs := by
  induction cs with
  | nil => rfl
  | cons c cs ih =>
    rw [List.map_cons, textOfUnits?, ih]
    rfl

theorem readString_flatMap (s : String) (rest : List Char) :
    readString (s.toList.flatMap escape ++ '"' :: rest) = some (some s, rest) := by
  rw [readString, readUnits_flatMap]
  simp only [Option.map_some, textOfUnits?_map, String.ofList_toList]

theorem readString_quoted (k : String) (rest : List Char) :
    ∃ r, quoted k ++ rest = '"' :: r ∧ readString r = some (some k, rest) := by
  refine ⟨k.toList.flatMap escape ++ '"' :: rest, by simp [quoted], readString_flatMap k rest⟩

/-! ## Numbers -/

/-- No number goes on into `rest`. -/
def Stops (rest : List Char) : Prop :=
  ∀ c ∈ rest.head?, isDigit c = false ∧ c ≠ '.' ∧ c ≠ 'e' ∧ c ≠ 'E'

theorem stops_of_isSpace {c : Char} (hc : isSpace c = true) (rest : List Char) :
    Stops (c :: rest) := by
  simp only [isSpace, Bool.or_eq_true, beq_iff_eq] at hc
  rintro x ⟨⟩
  rcases hc with ((rfl | rfl) | rfl) | rfl <;> decide

theorem ne_of_isDigit {c x : Char} (hc : isDigit c = true) (hx : isDigit x = false) : c ≠ x := by
  rintro rfl
  rw [hc] at hx
  cases hx

theorem not_isSpace_of_isDigit {c : Char} (hc : isDigit c = true) : isSpace c = false := by
  have h : ∀ x, isDigit x = false → (c == x) = false := fun x hx =>
    beq_eq_false_iff_ne.mpr (ne_of_isDigit hc hx)
  simp only [isSpace, h ' ' rfl, h '\t' rfl, h '\n' rfl, h '\r' rfl, Bool.or_self]

theorem isDigit_of_mem_toDigits {n : Nat} {c : Char} (h : c ∈ Nat.toDigits 10 n) :
    isDigit c = true := by
  have := Nat.isDigit_of_mem_toDigits (by decide) (by decide) h
  simpa [isDigit, Char.isDigit, Char.le_def] using this

theorem exists_toDigits (n : Nat) : ∃ c ds, Nat.toDigits 10 n = c :: ds ∧ isDigit c = true := by
  cases h : Nat.toDigits 10 n with
  | nil => exact absurd h Nat.toDigits_ne_nil
  | cons c ds => exact ⟨c, ds, rfl, isDigit_of_mem_toDigits (n := n) (by simp [h])⟩

theorem takeDigits_append {ds rest : List Char} (hds : ∀ c ∈ ds, isDigit c = true)
    (hrest : Stops rest) : takeDigits (ds ++ rest) = (ds, rest) := by
  have hstop : ∀ c ∈ rest.head?, isDigit c = false := fun c hc => (hrest c hc).1
  unfold takeDigits
  rw [List.takeWhile_append_of_pos hds, List.dropWhile_append_of_pos hds]
  cases rest with
  | nil => simp
  | cons c rest => simp [hstop c rfl]

theorem naturalOfDigits_toDigits (n : Nat) : naturalOfDigits (Nat.toDigits 10 n) = n := by
  have h := Nat.ofDigitChars_toDigits (b := 10) (n := n) (by decide) (by decide)
  rw [Nat.ofDigitChars] at h
  unfold naturalOfDigits
  simpa [Nat.mul_comm] using h

/-- A number above zero does not start with the digit zero. -/
theorem head?_toDigits {n : Nat} (hn : 0 < n) : (Nat.toDigits 10 n).head? ≠ some '0' := by
  induction n using Nat.strongRecOn with
  | ind n ih =>
    by_cases hlt : n < 10
    · rw [Nat.toDigits_of_lt_base hlt]
      simp
      omega
    · rw [Nat.toDigits_of_base_le (by decide) (by omega), List.head?_append]
      have hhead := ih (n / 10) (by omega) (by omega)
      have hne := Nat.toDigits_ne_nil (b := 10) (n := n / 10)
      cases hds : Nat.toDigits 10 (n / 10) with
      | nil => exact absurd hds hne
      | cons c ds =>
        rw [hds] at hhead
        exact hhead

theorem readWhole_toDigits (n : Nat) {rest : List Char} (hrest : Stops rest) :
    readWhole (Nat.toDigits 10 n ++ rest) = some (Nat.toDigits 10 n, rest) := by
  rw [readWhole, takeDigits_append (fun _ => isDigit_of_mem_toDigits) hrest]
  rcases Nat.eq_zero_or_pos n with rfl | hn
  · rfl
  · have hne := Nat.toDigits_ne_nil (b := 10) (n := n)
    have hhead := head?_toDigits hn
    generalize Nat.toDigits 10 n = ds at *
    split <;> simp_all

theorem readFraction_of_stops {rest : List Char} (hrest : Stops rest) :
    readFraction rest = some ([], rest) := by
  unfold readFraction
  split
  · exact absurd rfl (hrest '.' rfl).2.1
  · rfl

theorem readExponent_of_stops {rest : List Char} (hrest : Stops rest) :
    readExponent rest = some ([], rest) := by
  cases rest with
  | nil => rfl
  | cons c rest =>
    obtain ⟨-, -, he, hE⟩ := hrest c rfl
    simp [readExponent, he, hE]

theorem readNumber_toDigits (n : Nat) {rest : List Char} (hrest : Stops rest) :
    readNumber [] (Nat.toDigits 10 n ++ rest) = some (.natural n, rest) := by
  rw [readNumber, readWhole_toDigits n hrest]
  simp only [readFraction_of_stops hrest, readExponent_of_stops hrest, naturalOfDigits_toDigits]
  rfl

end Lineage.Json
