import Mathlib.Tactic.SplitIfs
import Lineage.Php.Extraction
import Lineage.Proofs.Php.Lexical

/-!
# Words in the bytes of a source

A source is read as glyphs, and a word is known by its characters. The bytes can be had back: a word
of letters that is spelled somewhere stands in the bytes at that place, in capitals or small letters.

**Rests (`Glyph.IsRest`).** Every end of the glyphs of a source is the glyphs of the bytes from some
offset on (`exists_isRest`).

**Result (`map_lowerByte_of_spelled`).** An ASCII character other than zero is one byte
(`first_eq_some`), so the bytes of a word are its letters. Characters of more than one byte cannot
pass for letters: their code points lie beyond ASCII.
-/
namespace Lineage

/-! ## One byte -/

namespace Text.Utf8

/-- A code point beyond ASCII gives no ASCII character but the one with code zero. -/
theorem toNat_ofNat_of_le {n : Nat} (h : 0x80 ≤ n) :
    (Char.ofNat n).toNat = 0 ∨ 0x80 ≤ (Char.ofNat n).toNat := by
  by_cases hn : n.isValidChar
  · have hvalid : Char.ofNat n = Char.ofNatAux n hn := dif_pos hn
    rw [hvalid]
    exact Or.inr h
  · have hnull : Char.ofNat n = '\x00' := dif_neg hn
    rw [hnull]
    exact Or.inl rfl

theorem low_of_isSecond {b c : UInt8} (h : isSecond b c = true) :
    (b.toNat = 0xE0 → 32 ≤ low c) ∧ (b.toNat = 0xF0 → 16 ≤ low c) := by
  simp only [isSecond, isTail, beq_iff_eq, ← UInt8.toNat_inj, UInt8.le_iff_toNat_le,
    UInt8.reduceToNat, low] at h ⊢
  split_ifs at h <;> simp at h <;> omega

/-- A character takes at least one byte. An ASCII character other than the one with code zero is its
byte, and no other byte follows. -/
theorem first_eq_some {b : UInt8} {rest : List UInt8} {c : Char} {width : Nat}
    (h : first b rest = (some c, width)) : 1 ≤ width ∧
      ((0 < c.toNat ∧ c.toNat < 0x80) → b.toNat < 0x80 ∧ c = Char.ofNat b.toNat ∧ width = 1) := by
  have hbeyond : ∀ {n}, 0x80 ≤ n → ¬(0 < (Char.ofNat n).toNat ∧ (Char.ofNat n).toNat < 0x80) := by
    intro n hn
    have := toNat_ofNat_of_le hn
    omega
  unfold first at h
  simp only [UInt8.lt_iff_toNat_lt, UInt8.reduceToNat] at h
  -- What is left are the four lengths that a character can have.
  repeat' split at h
  all_goals cases h
  · exact ⟨Nat.le_refl 1, fun _ => ⟨by assumption, rfl, rfl⟩⟩
  · exact ⟨by omega, fun hc => absurd hc (hbeyond (by omega))⟩
  · have := low_of_isSecond ‹isSecond b _ = true›
    exact ⟨by omega, fun hc => absurd hc (hbeyond (by omega))⟩
  · have := low_of_isSecond ‹isSecond b _ = true›
    exact ⟨by omega, fun hc => absurd hc (hbeyond (by omega))⟩

end Text.Utf8

namespace Php
open Lexical (Spelled)

/-! ## Rests -/

namespace Glyph
variable {bytes : List UInt8} {gs : List Glyph} {o : Nat}

/-- `gs` are the glyphs of the bytes from offset `o` on. -/
def IsRest (bytes : List UInt8) (o : Nat) (gs : List Glyph) : Prop :=
  ∃ fuel row, (bytes.drop o).length ≤ fuel ∧ gs = ofBytesFrom fuel o row (bytes.drop o)

/-- The first glyph stands at the offset, and the others are the rest from behind it. An ASCII
character, code zero apart, takes one byte. -/
theorem IsRest.tail {g : Glyph} (h : IsRest bytes o (g :: gs)) : g.offset = o ∧
    ∃ b width, bytes[o]? = some b ∧ IsRest bytes (o + width) gs ∧
      ∀ c, g.char = some c → (0 < c.toNat ∧ c.toNat < 0x80) →
        b.toNat < 0x80 ∧ c = Char.ofNat b.toNat ∧ width = 1 := by
  obtain ⟨fuel, row, hfuel, heq⟩ := h
  cases fuel with
  | zero => simp [ofBytesFrom] at heq
  | succ fuel =>
    cases hdrop : bytes.drop o with
    | nil => simp [hdrop, ofBytesFrom] at heq
    | cons b rest =>
      have hb : bytes[o]? = some b := by
        rw [← List.head?_drop, hdrop, List.head?_cons]
      have hrest : ∀ width, 1 ≤ width → rest.drop (width - 1) = bytes.drop (o + width) := by
        intro width hwidth
        obtain ⟨k, rfl⟩ := Nat.exists_eq_add_of_le' hwidth
        rw [← List.drop_drop, hdrop, List.drop_succ_cons, Nat.add_sub_cancel]
      have hlen : ∀ width, 1 ≤ width → (bytes.drop (o + width)).length ≤ fuel := by
        intro width hwidth
        rw [List.length_drop] at hfuel ⊢
        omega
      rw [hdrop, ofBytesFrom] at heq
      split at heq
      · rename_i c width hfirst
        obtain ⟨hwidth, hascii⟩ := Text.Utf8.first_eq_some hfirst
        obtain ⟨rfl, rfl⟩ := List.cons.inj heq
        refine ⟨rfl, b, width, hb, ⟨fuel, _, hlen width hwidth, by rw [hrest width hwidth]⟩, ?_⟩
        intro c' hc'
        obtain rfl := Option.some.inj hc'
        exact hascii
      · obtain ⟨rfl, rfl⟩ := List.cons.inj heq
        have hone := hrest 1 (Nat.le_refl 1)
        exact ⟨rfl, b, 1, hb, ⟨fuel, _, hlen 1 (Nat.le_refl 1), by rw [← hone]; rfl⟩, by simp⟩

/-- Every end of a rest is a rest. -/
theorem IsRest.exists_of_suffix {xs : List Glyph} (h : IsRest bytes o xs) (hgs : gs <:+ xs) :
    ∃ o', IsRest bytes o' gs := by
  induction xs generalizing o with
  | nil =>
    obtain rfl := List.suffix_nil.mp hgs
    exact ⟨o, h⟩
  | cons x xs ih =>
    rcases List.suffix_cons_iff.mp hgs with rfl | hgs
    · exact ⟨o, h⟩
    · obtain ⟨-, _, width, -, htail, -⟩ := h.tail
      exact ih htail hgs

theorem exists_isRest (h : gs <:+ ofBytes bytes) : ∃ o, IsRest bytes o gs :=
  IsRest.exists_of_suffix (o := 0) ⟨bytes.length, 0, by simp, by rw [List.drop_zero]; rfl⟩ h

/-- A rest starts at its offset. -/
theorem IsRest.offset_eq (h : IsRest bytes o gs) (ho : o ≤ bytes.length) :
    (gs.head?.getD (endOf bytes)).offset = o := by
  cases gs with
  | cons g gs => exact h.tail.1
  | nil =>
    -- No glyph is left, so no byte is.
    obtain ⟨fuel, row, hfuel, heq⟩ := h
    have hnil : bytes.drop o = [] := by
      cases fuel with
      | zero => exact List.length_eq_zero_iff.mp (by omega)
      | succ fuel =>
        cases hdrop : bytes.drop o with
        | nil => rfl
        | cons b rest =>
          rw [hdrop, ofBytesFrom] at heq
          split at heq <;> cases heq
    have := List.drop_eq_nil_iff.mp hnil
    exact Nat.le_antisymm this ho

end Glyph

/-! ## Words -/

/-- A letter made small, as a byte and as a character. -/
theorem lowerByte_eq {b : UInt8} (hb : b.toNat < 0x80) :
    lowerByte b = UInt8.ofNat (Char.ofNat b.toNat).toLower.toNat := by
  have hall : ∀ n : Fin 0x80,
      lowerByte (UInt8.ofNat n) = UInt8.ofNat (Char.ofNat n).toLower.toNat := by decide
  have := hall ⟨b.toNat, hb⟩
  rwa [UInt8.ofNat_toNat] at this

theorem toNat_of_toLower {c : Char} (h : c.toLower.isLower = true) :
    0 < c.toNat ∧ c.toNat < 0x80 := by
  rw [← Char.toNat_val]
  by_cases hc : c.val ≥ 'A'.val ∧ c.val ≤ 'Z'.val
  · have hA : 65 ≤ c.val.toNat := UInt32.le_iff_toNat_le.mp hc.1
    have hZ : c.val.toNat ≤ 90 := UInt32.le_iff_toNat_le.mp hc.2
    omega
  · have hsame : c.toLower = c := dif_neg hc
    rw [hsame] at h
    obtain ⟨ha, hz⟩ := Bool.and_eq_true_iff.mp h
    have ha : 97 ≤ c.val.toNat := UInt32.le_iff_toNat_le.mp (of_decide_eq_true ha)
    have hz : c.val.toNat ≤ 122 := UInt32.le_iff_toNat_le.mp (of_decide_eq_true hz)
    omega

variable {bytes : List UInt8} {start rest : List Glyph}

/-- The letters of a word stand in the bytes one after the other. -/
theorem Glyph.IsRest.letters {word : List Glyph} {cs : List Char} {o : Nat}
    (h : IsRest bytes o (word ++ rest)) (hcs : ∀ c ∈ cs, c.isLower = true)
    (hword : word.map (fun g => g.char.map Char.toLower) = cs.map some) :
    IsRest bytes (o + cs.length) rest ∧
      ((bytes.drop o).take cs.length).map lowerByte = cs.map fun c => UInt8.ofNat c.toNat := by
  induction cs generalizing o word with
  | nil =>
    obtain rfl := List.map_eq_nil_iff.mp hword
    exact ⟨h, by simp⟩
  | cons c cs ih =>
    cases word with
    | nil => cases hword
    | cons g word =>
      obtain ⟨hg, htailWord⟩ := List.cons.inj hword
      obtain ⟨d, hd, rfl⟩ := Option.map_eq_some_iff.mp hg
      obtain ⟨-, b, width, hb, htail, hascii⟩ := h.tail
      obtain ⟨hlt, rfl, rfl⟩ := hascii d hd (toNat_of_toLower (hcs _ List.mem_cons_self))
      obtain ⟨hrest, hbytes⟩ := ih htail (fun c hc => hcs c (List.mem_cons_of_mem _ hc)) htailWord
      refine ⟨by rwa [List.length_cons, Nat.add_comm cs.length 1, ← Nat.add_assoc], ?_⟩
      obtain ⟨hlen, rfl⟩ := List.getElem?_eq_some_iff.mp hb
      rw [List.drop_eq_getElem_cons hlen, List.length_cons, List.take_succ_cons, List.map_cons,
        List.map_cons, hbytes, lowerByte_eq hlt]

/-- **A word that is spelled somewhere stands there in the bytes**, in capitals or small letters. -/
theorem map_lowerByte_of_spelled {w : String} (hstart : start <:+ Glyph.ofBytes bytes)
    (hletters : w.toList.all Char.isLower = true) (hne : w.toList ≠ [])
    (h : Spelled w start rest) :
    ((bytes.drop (start.head?.getD (Glyph.endOf bytes)).offset).take
      ((rest.head?.getD (Glyph.endOf bytes)).offset -
        (start.head?.getD (Glyph.endOf bytes)).offset)).map lowerByte =
      w.toList.map fun c => UInt8.ofNat c.toNat := by
  obtain ⟨word, rfl, hword⟩ := h
  obtain ⟨o, ho⟩ := Glyph.exists_isRest hstart
  obtain ⟨hrest, hbytes⟩ := ho.letters (List.all_eq_true.mp hletters) hword
  -- The bytes reach as far as the word does.
  have hend : o + w.toList.length ≤ bytes.length := by
    have hlen := congrArg List.length hbytes
    have hpos := List.length_pos_iff.mpr hne
    simp only [List.length_map, List.length_take, List.length_drop] at hlen
    omega
  rw [ho.offset_eq (by omega), hrest.offset_eq hend, Nat.add_sub_cancel_left]
  exact hbytes

end Php
end Lineage
