import Lineage.Proofs.Json.Scalars

/-!
# Texts that write a value

`Writes` says which texts write a JSON value, whatever blanks stand between the parts of it. It knows
each value in one spelling only: strings with the escapes that the printer chooses, numbers as plain
digits. Layouts are all alike to it.

**Result.** `read?_of_writes`: the reader takes every such text, and reads the value that it writes.

The reader counts down with every value it enters. A text is longer than the texts inside it, so its
length is count enough (`Writes.reads`).
-/
namespace Lineage.Json

/-! ## The grammar -/

/-- What a text may write: a value, a value with blanks around it, or what stands between the
brackets of an array or the braces of an object that is not empty. -/
inductive Part where
  | value (v : Json)
  | padded (v : Json)
  | elements (l : List Json)
  | members (l : List (String × Json))

/-- `Writes p t`: the text `t` writes `p`. -/
inductive Writes : Part → List Char → Prop where
  | null : Writes (.value .null) ['n', 'u', 'l', 'l']
  | bool (b : Bool) :
      Writes (.value (.bool b)) (if b then ['t', 'r', 'u', 'e'] else ['f', 'a', 'l', 's', 'e'])
  | natural (n : Nat) : Writes (.value (.natural n)) (Nat.toDigits 10 n)
  | string (s : String) : Writes (.value (.string s)) (quoted s)
  | emptyArray {w : List Char} (hw : Blanks w) : Writes (.value (.array [])) ('[' :: (w ++ [']']))
  | array {l : List Json} {t : List Char} (h : Writes (.elements l) t) :
      Writes (.value (.array l)) ('[' :: (t ++ [']']))
  | emptyObject {w : List Char} (hw : Blanks w) :
      Writes (.value (.object [])) ('\x7b' :: (w ++ ['\x7d']))
  | object {l : List (String × Json)} {t : List Char} (h : Writes (.members l) t) :
      Writes (.value (.object l)) ('\x7b' :: (t ++ ['\x7d']))
  | padded {v : Json} {a t b : List Char} (ha : Blanks a) (hv : Writes (.value v) t)
      (hb : Blanks b) : Writes (.padded v) (a ++ (t ++ b))
  | lastElement {v : Json} {t : List Char} (hv : Writes (.padded v) t) : Writes (.elements [v]) t
  | element {v : Json} {l : List Json} {t u : List Char} (hv : Writes (.padded v) t)
      (hl : Writes (.elements l) u) : Writes (.elements (v :: l)) (t ++ ',' :: u)
  | lastMember {k : String} {v : Json} {a b t : List Char} (ha : Blanks a) (hb : Blanks b)
      (hv : Writes (.padded v) t) : Writes (.members [(k, v)]) (a ++ (quoted k ++ (b ++ ':' :: t)))
  | member {k : String} {v : Json} {l : List (String × Json)} {a b t u : List Char} (ha : Blanks a)
      (hb : Blanks b) (hv : Writes (.padded v) t) (hl : Writes (.members l) u) :
      Writes (.members ((k, v) :: l)) (a ++ (quoted k ++ (b ++ ':' :: (t ++ ',' :: u))))

/-! ## Reading -/

/-- The characters that may follow a value, blanks apart. -/
def IsClosing (c : Char) : Prop := c = ',' ∨ c = ']' ∨ c = '\x7d'

/-- What the reader makes of a text, whatever comes behind it. -/
def Part.Reads : Part → List Char → Prop
  | .value v, t => ∀ fuel rest, t.length ≤ fuel → Stops rest →
      readValue fuel (t ++ rest) = some (v, rest)
  | .padded v, t => ∀ fuel c rest, t.length ≤ fuel → IsClosing c →
      ∃ r, readValue fuel (t ++ c :: rest) = some (v, r) ∧ skipSpace r = c :: rest
  | .elements l, t => ∀ fuel rest, t.length < fuel →
      readElements fuel (t ++ ']' :: rest) = some (l, rest)
  | .members l, t => ∀ fuel rest, t.length < fuel →
      readMembers fuel (t ++ '\x7d' :: rest) = some (l.map fun m => (some m.1, m.2), rest)

theorem IsClosing.not_space {c : Char} (hc : IsClosing c) : isSpace c = false := by
  rcases hc with rfl | rfl | rfl <;> rfl

theorem IsClosing.stops {c : Char} (hc : IsClosing c) {b : List Char} (hb : Blanks b)
    (rest : List Char) : Stops (b ++ c :: rest) := by
  cases b with
  | nil =>
    rintro x ⟨⟩
    rcases hc with rfl | rfl | rfl <;> decide
  | cons x b => exact stops_of_isSpace (hb x (by simp)) _

/-- A digit starts a number and nothing else. -/
theorem readValue_digit {c : Char} (hc : isDigit c = true) (fuel : Nat) (s : List Char) :
    readValue (fuel + 1) (c :: s) = readNumber [] (c :: s) := by
  rw [readValue, skipSpace_of_not (not_isSpace_of_isDigit hc)]
  split
  case h_8 => rfl
  all_goals
    rename_i heq
    cases heq
    exact absurd hc (by decide)

theorem readValue_blanks {w : List Char} (hw : Blanks w) (fuel : Nat) (s : List Char) :
    readValue fuel (w ++ s) = readValue fuel s := by
  cases fuel with
  | zero => rfl
  | succ fuel => rw [readValue, readValue, skipSpace_blanks hw]

/-- An opened array is read element by element, unless it is closed at once. -/
theorem readValue_array {r u : List Char} {c : Char} (hr : skipSpace r = c :: u) (hc : c ≠ ']')
    (fuel : Nat) :
    readValue (fuel + 1) ('[' :: r) = (readElements fuel r).map fun p => (.array p.1, p.2) := by
  have hsame : readElements fuel (skipSpace r) = readElements fuel r := by
    cases fuel with
    | zero => rfl
    | succ fuel =>
      have hvalue : readValue fuel (skipSpace r) = readValue fuel r := by
        cases fuel with
        | zero => rfl
        | succ fuel => rw [readValue, readValue, skipSpace_skipSpace]
      rw [readElements, readElements, hvalue]
  rw [readValue, skipSpace_of_not rfl]
  simp only
  split
  · rename_i heq
    rw [hr] at heq
    cases heq
    exact absurd rfl hc
  · rw [hsame]

/-- An opened object is read member by member from its first key on. -/
theorem readValue_object {r u : List Char} (hr : skipSpace r = '"' :: u) (fuel : Nat) :
    readValue (fuel + 1) ('\x7b' :: r) = (readMembers fuel r).map fun p => (ofMembers p.1, p.2) := by
  have hsame : readMembers fuel (skipSpace r) = readMembers fuel r := by
    cases fuel with
    | zero => rfl
    | succ fuel => rw [readMembers, readMembers, skipSpace_skipSpace]
  rw [readValue, skipSpace_of_not rfl]
  simp only
  split
  · rename_i heq
    rw [hr] at heq
    cases heq
  · rw [hsame]

theorem ofMembers_map (l : List (String × Json)) :
    ofMembers (l.map fun m => (some m.1, m.2)) = .object l := by
  simp [ofMembers, Function.comp_def]

theorem skipSpace_key {a : List Char} (ha : Blanks a) (k : String) (rest : List Char) :
    ∃ r, skipSpace (a ++ (quoted k ++ rest)) = '"' :: r ∧ readString r = some (some k, rest) := by
  obtain ⟨r, hr, hread⟩ := readString_quoted k rest
  exact ⟨r, by rw [skipSpace_blanks ha, hr, skipSpace_of_not rfl], hread⟩

/-- Once a key and its colon are read, the rest is up to the value. -/
theorem readMembers_key {a b : List Char} (ha : Blanks a) (hb : Blanks b) (k : String)
    (s : List Char) (fuel : Nat) :
    readMembers (fuel + 1) (a ++ (quoted k ++ (b ++ ':' :: s))) =
      match readValue fuel s with
      | none => none
      | some (v, r) =>
        match skipSpace r with
        | '\x7d' :: r => some ([(some k, v)], r)
        | ',' :: r => (readMembers fuel r).map fun p => ((some k, v) :: p.1, p.2)
        | _ => none := by
  obtain ⟨r, hr, hread⟩ := skipSpace_key ha k (b ++ ':' :: s)
  rw [readMembers, hr]
  simp only [hread, skipSpace_blanks hb]
  rw [skipSpace_of_not rfl]
  rfl

/-- A value starts with a character of its own. -/
theorem Writes.head {v : Json} {t : List Char} (h : Writes (.value v) t) :
    ∃ c u, t = c :: u ∧ isSpace c = false ∧ c ≠ ']' := by
  cases h with
  | null => exact ⟨_, _, rfl, rfl, by decide⟩
  | bool b => cases b <;> exact ⟨_, _, rfl, rfl, by decide⟩
  | natural n =>
    obtain ⟨c, ds, hds, hc⟩ := exists_toDigits n
    exact ⟨c, ds, hds, not_isSpace_of_isDigit hc, ne_of_isDigit hc rfl⟩
  | string s => exact ⟨_, _, rfl, rfl, by decide⟩
  | emptyArray hw => exact ⟨_, _, rfl, rfl, by decide⟩
  | array h => exact ⟨_, _, rfl, rfl, by decide⟩
  | emptyObject hw => exact ⟨_, _, rfl, rfl, by decide⟩
  | object h => exact ⟨_, _, rfl, rfl, by decide⟩

theorem Writes.skipSpace_padded {v : Json} {t : List Char} (h : Writes (.padded v) t)
    (rest : List Char) : ∃ c u, skipSpace (t ++ rest) = c :: u ∧ c ≠ ']' := by
  cases h with
  | @padded _ a t b ha hv hb =>
    obtain ⟨c, u, rfl, hspace, hne⟩ := hv.head
    refine ⟨c, u ++ b ++ rest, ?_, hne⟩
    rw [List.append_assoc, skipSpace_blanks ha, List.cons_append, List.cons_append,
      skipSpace_of_not hspace]

theorem Writes.skipSpace_elements {l : List Json} {t : List Char} (h : Writes (.elements l) t)
    (rest : List Char) : ∃ c u, skipSpace (t ++ rest) = c :: u ∧ c ≠ ']' := by
  cases h with
  | lastElement hv => exact hv.skipSpace_padded rest
  | element hv hl =>
    rw [List.append_assoc]
    exact hv.skipSpace_padded _

theorem Writes.skipSpace_members {l : List (String × Json)} {t : List Char}
    (h : Writes (.members l) t) (rest : List Char) : ∃ u, skipSpace (t ++ rest) = '"' :: u := by
  cases h with
  | @lastMember k _ _ _ _ ha hb hv =>
    rw [List.append_assoc, List.append_assoc]
    obtain ⟨r, hr, -⟩ := skipSpace_key ha k _
    exact ⟨r, hr⟩
  | @member k _ _ _ _ _ _ ha hb hv hl =>
    rw [List.append_assoc, List.append_assoc]
    obtain ⟨r, hr, -⟩ := skipSpace_key ha k _
    exact ⟨r, hr⟩

/-- The reader takes a text of the grammar as what it writes, and leaves what follows. By induction
on how the text is made up: each case is one step of the reader. -/
theorem Writes.reads {p : Part} {t : List Char} (h : Writes p t) : p.Reads t := by
  induction h with
  | null =>
    intro fuel rest hfuel _
    cases fuel with
    | zero => simp at hfuel
    | succ fuel => rfl
  | bool b =>
    intro fuel rest hfuel _
    cases fuel with
    | zero => cases b <;> simp at hfuel
    | succ fuel => cases b <;> rfl
  | natural n =>
    intro fuel rest hfuel hrest
    obtain ⟨c, ds, hds, hc⟩ := exists_toDigits n
    cases fuel with
    | zero => simp [hds] at hfuel
    | succ fuel =>
      rw [← readNumber_toDigits n hrest, hds, List.cons_append, readValue_digit hc]
  | string s =>
    intro fuel rest hfuel _
    obtain ⟨r, hr, hread⟩ := readString_quoted s rest
    cases fuel with
    | zero => simp [quoted] at hfuel
    | succ fuel =>
      rw [hr, readValue, skipSpace_of_not rfl]
      simp only [hread]
      rfl
  | emptyArray hw =>
    intro fuel rest hfuel _
    cases fuel with
    | zero => simp at hfuel
    | succ fuel =>
      rw [List.cons_append, List.append_assoc, readValue, skipSpace_of_not rfl]
      simp only [skipSpace_blanks hw]
      rfl
  | @array l t h ih =>
    intro fuel rest hfuel _
    cases fuel with
    | zero => simp at hfuel
    | succ fuel =>
      have hlen : t.length + 1 ≤ fuel := by simpa using hfuel
      obtain ⟨c, u, hcu, hne⟩ := h.skipSpace_elements (']' :: rest)
      rw [List.cons_append, List.append_assoc, List.singleton_append, readValue_array hcu hne,
        ih fuel rest hlen]
      rfl
  | emptyObject hw =>
    intro fuel rest hfuel _
    cases fuel with
    | zero => simp at hfuel
    | succ fuel =>
      rw [List.cons_append, List.append_assoc, readValue, skipSpace_of_not rfl]
      simp only [skipSpace_blanks hw]
      rfl
  | @object l t h ih =>
    intro fuel rest hfuel _
    cases fuel with
    | zero => simp at hfuel
    | succ fuel =>
      have hlen : t.length + 1 ≤ fuel := by simpa using hfuel
      obtain ⟨u, hu⟩ := h.skipSpace_members ('\x7d' :: rest)
      rw [List.cons_append, List.append_assoc, List.singleton_append, readValue_object hu,
        ih fuel rest hlen, Option.map_some, ofMembers_map]
  | @padded v a t b ha hv hb ih =>
    intro fuel c rest hfuel hc
    refine ⟨b ++ c :: rest, ?_, ?_⟩
    · rw [List.append_assoc, List.append_assoc, readValue_blanks ha]
      refine ih fuel _ ?_ (hc.stops hb rest)
      rw [List.length_append, List.length_append] at hfuel
      omega
    · rw [skipSpace_blanks hb, skipSpace_of_not hc.not_space]
  | @lastElement v t hv ih =>
    intro fuel rest hfuel
    cases fuel with
    | zero => omega
    | succ fuel =>
      obtain ⟨r, hread, hrest⟩ := ih fuel ']' rest (by omega) (.inr (.inl rfl))
      rw [readElements, hread]
      simp only [hrest]
  | @element v l t u hv hl ihv ihl =>
    intro fuel rest hfuel
    cases fuel with
    | zero => omega
    | succ fuel =>
      rw [List.length_append, List.length_cons] at hfuel
      obtain ⟨r, hread, hrest⟩ := ihv fuel ',' (u ++ ']' :: rest) (by omega) (.inl rfl)
      rw [List.append_assoc, List.cons_append, readElements, hread]
      simp only [hrest, ihl fuel rest (by omega)]
      rfl
  | @lastMember k v a b t ha hb hv ih =>
    intro fuel rest hfuel
    cases fuel with
    | zero => omega
    | succ fuel =>
      simp only [List.length_append, List.length_cons] at hfuel
      obtain ⟨r, hread, hrest⟩ := ih fuel '\x7d' rest (by omega) (.inr (.inr rfl))
      simp only [List.append_assoc, List.cons_append]
      rw [readMembers_key ha hb, hread]
      simp only [hrest]
      rfl
  | @member k v l a b t u ha hb hv hl ihv ihl =>
    intro fuel rest hfuel
    cases fuel with
    | zero => omega
    | succ fuel =>
      simp only [List.length_append, List.length_cons] at hfuel
      obtain ⟨r, hread, hrest⟩ := ihv fuel ',' (u ++ '\x7d' :: rest) (by omega) (.inl rfl)
      simp only [List.append_assoc, List.cons_append]
      rw [readMembers_key ha hb, hread]
      simp only [hrest, ihl fuel rest (by omega)]
      rfl

/-- **Reading what is written.** A whole text that writes a value, with blanks around it. -/
theorem read?_of_writes {v : Json} {a t b : List Char} (ha : Blanks a) (hv : Writes (.value v) t)
    (hb : Blanks b) : read? (String.ofList (a ++ (t ++ b))) = some v := by
  have hstop : Stops b := by
    cases b with
    | nil => exact fun c hc => by cases hc
    | cons c b => exact stops_of_isSpace (hb c (by simp)) b
  have hend : skipSpace b = [] := List.dropWhile_eq_nil_iff.mpr hb
  have hread := hv.reads ((a ++ (t ++ b)).length + 1) b (by simp; omega) hstop
  rw [read?, String.toList_ofList, readValue_blanks ha, hread]
  simp [hend]

end Lineage.Json
