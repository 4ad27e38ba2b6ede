import Lineage.Proofs.Json.Grammar

/-!
# Reading what was printed

Both layouts write a value in the sense of the grammar: the one on a single line with no blanks at
all, the one over lines with a line end and the indentation ahead of every element and member.
`writes_array` and `writes_object` hold of any such layout.

**Results.** `read?_compact`, `read?_render`: a printed value is read back as it was, and so it is
with a line end behind it (`read?_render_line`). Two forms of value are left out (`Plain`), because
nothing that is written down has them: numbers kept as text, and what could not be read.
-/
namespace Lineage.Json

/-- A value in which every number is a natural number and every string is text. -/
inductive Plain : Json → Prop where
  | null : Plain .null
  | bool (b : Bool) : Plain (.bool b)
  | natural (n : Nat) : Plain (.natural n)
  | string (s : String) : Plain (.string s)
  | array {l : List Json} (h : ∀ v ∈ l, Plain v) : Plain (.array l)
  | object {l : List (String × Json)} (h : ∀ m ∈ l, Plain m.2) : Plain (.object l)

/-! ## Layouts -/

section Layout
variable {f : Json → List Char} {a b c : List Char}

theorem writes_elements (ha : Blanks a) (hb : Blanks b) {v : Json} {l : List Json}
    (h : ∀ x ∈ v :: l, Writes (.value x) (f x)) :
    Writes (.elements (v :: l)) (a ++ f v ++ (l.flatMap fun x => ',' :: (a ++ f x)) ++ b) := by
  induction l generalizing v with
  | nil =>
    have hv := Writes.lastElement (.padded ha (h v (by simp)) hb)
    simpa using hv
  | cons w l ih =>
    have hv := Writes.padded ha (h v (by simp)) blanks_nil
    have hl := ih (v := w) fun x hx => h x (by simp [List.mem_cons.mp hx])
    simpa using Writes.element hv hl

/-- The values of `l`, each with `a` ahead of it, and `b` ahead of the closing bracket. -/
theorem writes_array (ha : Blanks a) (hb : Blanks b) {v : Json} {l : List Json}
    (h : ∀ x ∈ v :: l, Writes (.value x) (f x)) :
    Writes (.value (.array (v :: l)))
      ('[' :: (a ++ f v ++ (l.flatMap fun x => ',' :: (a ++ f x)) ++ b ++ [']'])) :=
  .array (writes_elements ha hb h)

theorem writes_members (ha : Blanks a) (hb : Blanks b) (hc : Blanks c) {m : String × Json}
    {l : List (String × Json)} (h : ∀ x ∈ m :: l, Writes (.value x.2) (f x.2)) :
    Writes (.members (m :: l))
      (a ++ quoted m.1 ++ ':' :: (c ++ f m.2) ++
        (l.flatMap fun x => ',' :: (a ++ quoted x.1 ++ ':' :: (c ++ f x.2))) ++ b) := by
  induction l generalizing m with
  | nil =>
    have hv := Writes.lastMember (k := m.1) ha blanks_nil (.padded hc (h m (by simp)) hb)
    simpa using hv
  | cons w l ih =>
    have hv := Writes.padded hc (h m (by simp)) blanks_nil
    have hl := ih (m := w) fun x hx => h x (by simp [List.mem_cons.mp hx])
    simpa using Writes.member (k := m.1) ha blanks_nil hv hl

/-- The members of `l`, each with `a` ahead of its key and `c` behind its colon, and `b` ahead of the
closing brace. -/
theorem writes_object (ha : Blanks a) (hb : Blanks b) (hc : Blanks c) {m : String × Json}
    {l : List (String × Json)} (h : ∀ x ∈ m :: l, Writes (.value x.2) (f x.2)) :
    Writes (.value (.object (m :: l)))
      ('\x7b' :: (a ++ quoted m.1 ++ ':' :: (c ++ f m.2) ++
        (l.flatMap fun x => ',' :: (a ++ quoted x.1 ++ ':' :: (c ++ f x.2))) ++ b ++ ['\x7d'])) :=
  .object (writes_members ha hb hc h)

end Layout

theorem toList_toString_nat (n : Nat) : (toString n).toList = Nat.toDigits 10 n := by
  rw [Nat.toString_eq_ofList_toDigits, String.toList_ofList]

theorem writes_bool (b : Bool) : Writes (.value (.bool b)) (if b then "true" else "false").toList := by
  cases b
  · exact .bool false
  · exact .bool true

/-! ## On one line -/

theorem toList_compactElements (l : List Json) :
    (compactElements l).toList = l.flatMap fun v => ',' :: ([] ++ (compact v).toList) := by
  induction l with
  | nil => rfl
  | cons v l ih => simp [compactElements, ih]

theorem toList_compactMembers (l : List (String × Json)) :
    (compactMembers l).toList =
      l.flatMap fun m => ',' :: ([] ++ quoted m.1 ++ ':' :: ([] ++ (compact m.2).toList)) := by
  induction l with
  | nil => rfl
  | cons m l ih => simp [compactMembers, toList_quote, ih]

theorem writes_compact {v : Json} (h : Plain v) : Writes (.value v) (compact v).toList := by
  induction h with
  | null => exact .null
  | bool b => exact writes_bool b
  | natural n =>
    rw [compact, toList_toString_nat]
    exact .natural n
  | string s =>
    rw [compact, toList_quote]
    exact .string s
  | @array l h ih =>
    cases l with
    | nil => exact .emptyArray blanks_nil
    | cons v l =>
      have hl := writes_array (f := fun v => (compact v).toList) blanks_nil blanks_nil ih
      simpa [compact, toList_compactElements] using hl
  | @object l h ih =>
    cases l with
    | nil => exact .emptyObject blanks_nil
    | cons m l =>
      have hl := writes_object (f := fun v => (compact v).toList) blanks_nil blanks_nil blanks_nil ih
      simpa [compact, toList_compactMembers, toList_quote] using hl

/-! ## Over lines -/

/-- A line end and the indentation of the next line. -/
def lineStart (level : Nat) : List Char := '\n' :: (indent level).toList

theorem blanks_lineStart (level : Nat) : Blanks (lineStart level) := by
  intro c hc
  simp only [lineStart, indent, String.toList_ofList, List.mem_cons, List.mem_replicate] at hc
  rcases hc with rfl | ⟨-, rfl⟩ <;> rfl

theorem toList_prettyElements (level : Nat) (l : List Json) :
    (prettyElements level l).toList =
      l.flatMap fun v => ',' :: (lineStart level ++ (pretty level v).toList) := by
  induction l with
  | nil => rfl
  | cons v l ih => simp [prettyElements, lineStart, ih]

theorem toList_prettyMembers (level : Nat) (l : List (String × Json)) :
    (prettyMembers level l).toList =
      l.flatMap fun m =>
        ',' :: (lineStart level ++ quoted m.1 ++ ':' :: ([' '] ++ (pretty level m.2).toList)) := by
  induction l with
  | nil => rfl
  | cons m l ih => simp [prettyMembers, lineStart, toList_quote, ih]

theorem writes_pretty {v : Json} (h : Plain v) (level : Nat) :
    Writes (.value v) (pretty level v).toList := by
  have hblank : Blanks [' '] := by simp [Blanks, isSpace]
  induction h generalizing level with
  | null =>
    rw [pretty]
    exact .null
  | bool b =>
    rw [pretty]
    exact writes_bool b
  | natural n =>
    rw [pretty, toList_toString_nat]
    exact .natural n
  | string s =>
    rw [pretty, toList_quote]
    exact .string s
  | @array l h ih =>
    cases l with
    | nil =>
      rw [pretty]
      exact .emptyArray blanks_nil
    | cons v l =>
      have hl := writes_array (f := fun v => (pretty (level + 1) v).toList)
        (blanks_lineStart (level + 1)) (blanks_lineStart level) fun x hx => ih x hx (level + 1)
      simpa [pretty, toList_prettyElements, lineStart] using hl
  | @object l h ih =>
    cases l with
    | nil =>
      rw [pretty]
      exact .emptyObject blanks_nil
    | cons m l =>
      have hl := writes_object (f := fun v => (pretty (level + 1) v).toList)
        (blanks_lineStart (level + 1)) (blanks_lineStart level) hblank
        fun x hx => ih x hx (level + 1)
      simpa [pretty, toList_prettyMembers, lineStart, toList_quote] using hl

/-! ## Reading back -/

theorem read?_of_writes_append {v : Json} {t b : String} (hv : Writes (.value v) t.toList)
    (hb : Blanks b.toList) : read? (t ++ b) = some v := by
  have h := read?_of_writes blanks_nil hv hb
  rwa [List.nil_append, ← String.toList_append, String.ofList_toList] at h

theorem read?_compact {v : Json} (h : Plain v) : read? (compact v) = some v := by
  have hread := read?_of_writes_append (b := "") (writes_compact h) blanks_nil
  rwa [String.append_empty] at hread

theorem read?_render {v : Json} (h : Plain v) : read? (render v) = some v := by
  have hread := read?_of_writes_append (b := "") (writes_pretty h 0) blanks_nil
  rwa [String.append_empty] at hread

theorem read?_render_line {v : Json} (h : Plain v) : read? (render v ++ "\n") = some v :=
  read?_of_writes_append (writes_pretty h 0) (by simp [Blanks, isSpace])

end Lineage.Json
