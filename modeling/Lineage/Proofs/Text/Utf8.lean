import Mathlib.Data.List.Basic
import Lineage.Text.Utf8

/-!
# Reading what was written as UTF-8

`decode?_encode`: the bytes of a text read back as that text.

A character takes one to four bytes. The first of them says how many, and the reader accepts the
others because the code point is long enough for that form, is no surrogate and lies in the last
plane at most (`first_utf8EncodeChar`). So a text is read character by character.
-/
namespace Lineage.Text.Utf8

/-! ## The bytes of a text -/

/-- What the listing of a byte array adds behind the bytes it has listed. -/
theorem toList_loop (bs : ByteArray) {k : Nat} (i : Nat) (r : List UInt8) (hk : bs.size - i = k) :
    ByteArray.toList.loop bs i r = r.reverse ++ bs.data.toList.drop i := by
  have hlen : bs.data.toList.length = bs.size := by simp
  induction k generalizing i r with
  | zero =>
    rw [ByteArray.toList.loop, if_neg (by omega), List.drop_of_length_le (by omega),
      List.append_nil]
  | succ k ih =>
    have hi : i < bs.data.toList.length := by omega
    have hget : bs.get! i = bs.data.toList[i] := getElem!_pos bs.data i (by omega)
    rw [ByteArray.toList.loop, if_pos (by omega), ih (i + 1) _ (by omega), hget,
      List.reverse_cons, List.append_assoc, List.singleton_append, List.getElem_cons_drop]

/-- A text is written character by character. -/
theorem encode_eq (s : String) : encode s = s.toList.flatMap String.utf8EncodeChar := by
  have hbytes : s.toUTF8 = s.toList.utf8Encode := by
    rw [String.toUTF8_eq_toByteArray, ← String.toByteArray_ofList, String.ofList_toList]
  rw [encode, hbytes, ByteArray.toList, toList_loop _ 0 [] rfl]
  simp [List.utf8Encode]

/-! ## One character -/

theorem isTail_of_toNat {b : UInt8} (h : 0x80 ≤ b.toNat ∧ b.toNat ≤ 0xBF) : isTail b = true := by
  simpa [isTail, UInt8.le_iff_toNat_le] using h

/-- A second byte in the range of tails, if it also keeps the form from being overlong, a surrogate,
or past the last plane. -/
theorem isSecond_of_toNat {b c : UInt8} (h : 0x80 ≤ c.toNat ∧ c.toNat ≤ 0xBF)
    (hE0 : b.toNat = 0xE0 → 0xA0 ≤ c.toNat) (hED : b.toNat = 0xED → c.toNat ≤ 0x9F)
    (hF0 : b.toNat = 0xF0 → 0x90 ≤ c.toNat) (hF4 : b.toNat = 0xF4 → c.toNat ≤ 0x8F) :
    isSecond b c = true := by
  simp only [isSecond, isTail, beq_iff_eq, ← UInt8.toNat_inj, UInt8.le_iff_toNat_le,
    UInt8.reduceToNat]
  split_ifs with h1 h2 h3 h4 <;> simp <;> omega

theorem first_one {b : UInt8} (hb : b.toNat < 0x80) (rest : List UInt8) :
    first b rest = (some (Char.ofNat b.toNat), 1) := by
  unfold first
  rw [if_pos (by simpa [UInt8.lt_iff_toNat_lt] using hb)]

theorem first_two {b c : UInt8} (hb : 0xC2 ≤ b.toNat ∧ b.toNat < 0xE0) (hc : isTail c = true)
    (rest : List UInt8) :
    first b (c :: rest) = (some (Char.ofNat (b.toNat % 32 * 64 + low c)), 2) := by
  unfold first
  simp only [UInt8.lt_iff_toNat_lt, UInt8.reduceToNat]
  rw [if_neg (by omega), if_neg (by omega), if_pos hb.2, if_pos hc]

theorem first_three {b c d : UInt8} (hb : 0xE0 ≤ b.toNat ∧ b.toNat < 0xF0)
    (hc : isSecond b c = true) (hd : isTail d = true) (rest : List UInt8) :
    first b (c :: d :: rest) =
      (some (Char.ofNat ((b.toNat % 16 * 64 + low c) * 64 + low d)), 3) := by
  unfold first
  simp only [UInt8.lt_iff_toNat_lt, UInt8.reduceToNat]
  rw [if_neg (by omega), if_neg (by omega), if_neg (by omega), if_pos hb.2, if_pos hc, if_pos hd]

theorem first_four {b c d e : UInt8} (hb : 0xF0 ≤ b.toNat ∧ b.toNat < 0xF5)
    (hc : isSecond b c = true) (hd : isTail d = true) (he : isTail e = true) (rest : List UInt8) :
    first b (c :: d :: e :: rest) =
      (some (Char.ofNat (((b.toNat % 8 * 64 + low c) * 64 + low d) * 64 + low e)), 4) := by
  unfold first
  simp only [UInt8.lt_iff_toNat_lt, UInt8.reduceToNat]
  rw [if_neg (by omega), if_neg (by omega), if_neg (by omega), if_neg (by omega), if_pos hb.2,
    if_pos hc, if_pos hd, if_pos he]

theorem toNat_ofNat_of_lt {n : Nat} (h : n < 256) : (UInt8.ofNat n).toNat = n := by
  rw [UInt8.toNat_ofNat']
  omega

/-- The reader takes the bytes of one character and nothing behind them. -/
theorem first_utf8EncodeChar (c : Char) (rest : List UInt8) :
    ∃ b tail, String.utf8EncodeChar c = b :: tail ∧
      first b (tail ++ rest) = (some c, tail.length + 1) := by
  have hvalid : c.val.toNat < 0xD800 ∨ (0xDFFF < c.val.toNat ∧ c.val.toNat < 0x110000) := c.valid
  have hchar : ∀ n, n = c.val.toNat → some (Char.ofNat n) = some c := by
    intro n hn
    rw [hn]
    exact congrArg some (Char.ofNat_toNat c)
  unfold String.utf8EncodeChar
  generalize c.val.toNat = v at *
  dsimp only
  have hlast := toNat_ofNat_of_lt (n := v % 64 + 128) (by omega)
  have hthird := toNat_ofNat_of_lt (n := v / 64 % 64 + 128) (by omega)
  have hsecond := toNat_ofNat_of_lt (n := v / 4096 % 64 + 128) (by omega)
  have htail : ∀ n, isTail (UInt8.ofNat (n % 64 + 128)) = true := by
    intro n
    refine isTail_of_toNat ?_
    rw [toNat_ofNat_of_lt (by omega)]
    omega
  split_ifs with h1 h2 h3
  · refine ⟨_, _, rfl, ?_⟩
    have hb := toNat_ofNat_of_lt (n := v) (by omega)
    rw [first_one (by omega), hb, hchar v rfl]
    rfl
  · refine ⟨_, _, rfl, ?_⟩
    have hb := toNat_ofNat_of_lt (n := v / 64 % 32 + 192) (by omega)
    rw [List.singleton_append, first_two (by omega) (htail v), hchar _ ?_]
    · rfl
    · rw [low, hb, hlast]
      omega
  · refine ⟨_, _, rfl, ?_⟩
    have hb := toNat_ofNat_of_lt (n := v / 4096 % 16 + 224) (by omega)
    have hc : isSecond (UInt8.ofNat (v / 4096 % 16 + 224)) (UInt8.ofNat (v / 64 % 64 + 128)) =
        true := by
      apply isSecond_of_toNat <;> rw [hthird] <;> omega
    rw [List.cons_append, List.singleton_append, first_three (by omega) hc (htail v), hchar _ ?_]
    · rfl
    · rw [low, low, hb, hthird, hlast]
      omega
  · refine ⟨_, _, rfl, ?_⟩
    have hb := toNat_ofNat_of_lt (n := v / 262144 % 8 + 240) (by omega)
    have hc : isSecond (UInt8.ofNat (v / 262144 % 8 + 240)) (UInt8.ofNat (v / 4096 % 64 + 128)) =
        true := by
      apply isSecond_of_toNat <;> rw [hsecond] <;> omega
    rw [List.cons_append, List.cons_append, List.singleton_append,
      first_four (by omega) hc (htail _) (htail v), hchar _ ?_]
    · rfl
    · rw [low, low, low, hb, hsecond, hthird, hlast]
      omega

/-! ## Whole texts -/

theorem strictChars_flatMap (cs : List Char) {fuel : Nat}
    (hfuel : (cs.flatMap String.utf8EncodeChar).length ≤ fuel) :
    strictChars fuel (cs.flatMap String.utf8EncodeChar) = some cs := by
  induction cs generalizing fuel with
  | nil => cases fuel <;> rfl
  | cons c cs ih =>
    obtain ⟨b, tail, hbytes, hfirst⟩ :=
      first_utf8EncodeChar c (cs.flatMap String.utf8EncodeChar)
    rw [List.flatMap_cons, hbytes, List.cons_append] at hfuel ⊢
    rw [List.length_cons, List.length_append] at hfuel
    cases fuel with
    | zero => omega
    | succ fuel =>
      rw [strictChars, hfirst]
      simp only [Nat.add_sub_cancel, List.drop_left]
      rw [ih (by omega)]
      rfl

/-- **Reading what was written.** Any text, whatever characters it holds. -/
theorem decode?_encode (s : String) : decode? (encode s) = some s := by
  rw [decode?, encode_eq, strictChars_flatMap s.toList (Nat.le_refl _), Option.map_some,
    String.ofList_toList]

end Lineage.Text.Utf8
