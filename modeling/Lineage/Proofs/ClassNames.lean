import Mathlib.Data.List.DropRight
import Lineage.Signature
import Lineage.Proofs.Path

/-!
# Class names as paths

A class name is read as the list of its segments and written back with backslashes between them.
Two types are the same exactly when their segments are, so the check of overrides rests on what
reading keeps of a name and what it drops.

**Segments (`TypeRef.IsSegment`).** Some text without a backslash and without blanks at its ends.
Reading yields nothing else (`isSegment_of_mem`), and a path of segments is read back from its text
(`cut_join`). So segments are the normal form of names.

**What is dropped.** A backslash between two names puts their segments one behind the other
(`segments_append`). A backslash at either end, a second one next to another, and blanks next to any
of them add nothing.

`ofPath_normalises` has all of this in one statement.
-/
namespace Lineage

/-! ## Blanks at the ends -/

namespace Text
variable {s w : List Char}

/-- No blank stands at either end. -/
structure Trimmed (s : List Char) : Prop where
  first : ∀ c ∈ s.head?, isBlank c = false
  last : ∀ c ∈ s.getLast?, isBlank c = false

/-- Nothing but blanks. -/
def Blank (w : List Char) : Prop := ∀ c ∈ w, isBlank c = true

instance (s : List Char) : Decidable (Trimmed s) :=
  decidable_of_iff ((s.head?.all fun c => !isBlank c) = true ∧
      (s.getLast?.all fun c => !isBlank c) = true)
    (by
      simp only [Option.all_eq_true, Bool.not_eq_true']
      exact ⟨fun h => ⟨h.1, h.2⟩, fun h => ⟨h.1, h.2⟩⟩)

instance (w : List Char) : Decidable (Blank w) :=
  decidable_of_iff (w.all isBlank = true) List.all_eq_true

theorem trimEnd_eq (s : List Char) : trimEnd s = s.rdropWhile isBlank := rfl

theorem trim_of_trimmed (h : Trimmed s) : trim s = s := by
  have hstart : s.dropWhile isBlank = s := by
    cases s with
    | nil => rfl
    | cons c s => exact List.dropWhile_cons_of_neg (by simp [h.first c rfl])
  rw [trim, trimStart, hstart, trimEnd_eq, List.rdropWhile_eq_self_iff]
  intro hne
  simp [h.last _ (List.getLast?_eq_some_getLast hne)]

theorem trim_sublist (s : List Char) : (trim s).Sublist s :=
  (List.rdropWhile_prefix isBlank _).sublist.trans (List.dropWhile_sublist _)

/-- What is left at the front is no blank, nor is what is left at the end. -/
theorem trimmed_trim (s : List Char) : Trimmed (trim s) := by
  constructor
  · intro c hc
    -- The end is trimmed last; it takes nothing from the front, unless it takes all.
    have hprefix : trim s <+: trimStart s := List.rdropWhile_prefix isBlank _
    have hhead : (trimStart s).head? = some c := by
      cases htrim : trim s with
      | nil => simp [htrim] at hc
      | cons b r =>
        rw [htrim] at hc hprefix
        obtain ⟨t, ht⟩ := hprefix
        rw [← ht]
        exact hc
    have := List.head?_dropWhile_not isBlank s
    rw [trimStart] at hhead
    simpa [hhead] using this
  · intro c hc
    have hne : trim s ≠ [] := by
      rintro hnil
      simp [hnil] at hc
    have hlast := List.rdropWhile_last_not isBlank (trimStart s) hne
    rw [List.getLast?_eq_some_getLast hne, Option.mem_some_iff] at hc
    rw [← hc]
    exact (Bool.not_eq_true _).mp hlast

theorem trim_of_blank (hw : Blank w) : trim w = [] := by
  have hstart : trimStart w = [] := List.dropWhile_eq_nil_iff.mpr hw
  rw [trim, hstart]
  rfl

theorem trim_blank_append (hw : Blank w) (s : List Char) : trim (w ++ s) = trim s := by
  have hnil : w.dropWhile isBlank = [] := List.dropWhile_eq_nil_iff.mpr hw
  rw [trim, trim, trimStart, List.dropWhile_append, hnil]
  rfl

theorem trimEnd_append_blank (hw : Blank w) (s : List Char) : trimEnd (s ++ w) = trimEnd s := by
  have hnil : w.reverse.dropWhile isBlank = [] :=
    List.dropWhile_eq_nil_iff.mpr fun c hc => hw c (List.mem_reverse.mp hc)
  rw [trimEnd, trimEnd, List.reverse_append, List.dropWhile_append, hnil]
  rfl

theorem trim_append_blank (hw : Blank w) (s : List Char) : trim (s ++ w) = trim s := by
  by_cases hs : Blank s
  · have hall : Blank (s ++ w) := fun c hc => (List.mem_append.mp hc).elim (hs c) (hw c)
    rw [trim_of_blank hall, trim_of_blank hs]
  · have hkept : (s.dropWhile isBlank).isEmpty = false := by
      rw [List.isEmpty_eq_false_iff]
      exact fun hnil => hs (List.dropWhile_eq_nil_iff.mp hnil)
    rw [trim, trimStart, List.dropWhile_append, hkept]
    exact trimEnd_append_blank hw _

theorem Blank.notMem (hw : Blank w) : '\\' ∉ w := by
  intro hmem
  have := hw _ hmem
  revert this
  decide

end Text

/-! ## Reading -/

namespace TypeRef
variable {s t w : List Char} {x : String} {xs : List String}

/-- A text that can stand between the backslashes of a class name as it is. -/
structure IsSegment (x : String) : Prop where
  nonempty : x ≠ ""
  one : '\\' ∉ x.toList
  trimmed : Text.Trimmed x.toList

instance (x : String) : Decidable (IsSegment x) :=
  decidable_of_iff (x ≠ "" ∧ '\\' ∉ x.toList ∧ Text.Trimmed x.toList)
    ⟨fun h => ⟨h.1, h.2.1, h.2.2⟩, fun h => ⟨h.1, h.2, h.3⟩⟩

/-- The segments of a name given by its characters. -/
def cut (s : List Char) : List String :=
  (((Text.split '\\' s).map Text.trim).filter fun s => !s.isEmpty).map String.ofList

theorem segments_eq (path : String) : segments path = cut path.toList := rfl

theorem cut_append (s t : List Char) : cut (s ++ '\\' :: t) = cut s ++ cut t := by
  unfold cut
  rw [Text.split_append, List.map_append, List.filter_append, List.map_append]

/-- A name without a backslash is one segment, or none. -/
theorem cut_of_notMem (h : '\\' ∉ s) :
    cut s = if Text.trim s = [] then [] else [String.ofList (Text.trim s)] := by
  unfold cut
  rw [Text.split_of_notMem h]
  by_cases htrim : Text.trim s = [] <;> simp [htrim]

/-- A property of all names, if names without a backslash have it and two names with one between
them pass it on. -/
theorem name_induction {P : List Char → Prop} (one : ∀ s, '\\' ∉ s → P s)
    (more : ∀ s t, P s → P t → P (s ++ '\\' :: t)) (s : List Char) : P s := by
  induction hn : s.length using Nat.strongRecOn generalizing s with
  | ind n ih =>
    by_cases hmem : '\\' ∈ s
    · obtain ⟨a, b, rfl, ha⟩ := List.eq_append_cons_of_mem hmem
      rw [List.length_append, List.length_cons] at hn
      exact more a b (one a ha) (ih b.length (by omega) b rfl)
    · exact one s hmem

theorem isSegment_of_mem (h : x ∈ cut s) : IsSegment x := by
  induction s using name_induction with
  | one s hs =>
    rw [cut_of_notMem hs] at h
    split at h
    · cases h
    · rename_i hne
      rw [List.mem_singleton] at h
      subst h
      refine ⟨by simpa using hne, ?_, by simpa using Text.trimmed_trim s⟩
      rw [String.toList_ofList]
      exact fun hmem => hs ((Text.trim_sublist s).subset hmem)
  | more s t ihs iht =>
    rw [cut_append, List.mem_append] at h
    exact h.elim ihs iht

theorem cut_blank_append (hw : Text.Blank w) (s : List Char) : cut (w ++ s) = cut s := by
  induction s using name_induction with
  | one s hs =>
    have hall : '\\' ∉ w ++ s := by
      rw [List.mem_append, not_or]
      exact ⟨hw.notMem, hs⟩
    rw [cut_of_notMem hall, cut_of_notMem hs, Text.trim_blank_append hw]
  | more s t ihs iht => rw [← List.append_assoc, cut_append, cut_append, ihs]

theorem cut_append_blank (hw : Text.Blank w) (s : List Char) : cut (s ++ w) = cut s := by
  induction s using name_induction with
  | one s hs =>
    have hall : '\\' ∉ s ++ w := by
      rw [List.mem_append, not_or]
      exact ⟨hs, hw.notMem⟩
    rw [cut_of_notMem hall, cut_of_notMem hs, Text.trim_append_blank hw]
  | more s t ihs iht =>
    rw [List.append_assoc, List.cons_append, cut_append, cut_append, iht]

/-- Nothing but backslashes and blanks. -/
def Separating (w : List Char) : Prop := ∀ c ∈ w, c = '\\' ∨ Text.isBlank c = true

instance (w : List Char) : Decidable (Separating w) :=
  decidable_of_iff (w.all (fun c => c == '\\' || Text.isBlank c) = true)
    (by simp [Separating, List.all_eq_true])

theorem cut_separating_append (hw : Separating w) (s : List Char) : cut (w ++ s) = cut s := by
  induction w with
  | nil => rfl
  | cons c w ih =>
    have hrest := ih fun x hx => hw x (List.mem_cons_of_mem c hx)
    rcases hw c List.mem_cons_self with rfl | hblank
    · rw [← hrest]
      exact cut_append [] (w ++ s)
    · rw [← hrest]
      exact cut_blank_append (w := [c]) (by simpa [Text.Blank] using hblank) (w ++ s)

theorem cut_append_separating (hw : Separating w) (s : List Char) : cut (s ++ w) = cut s := by
  induction w generalizing s with
  | nil => rw [List.append_nil]
  | cons c w ih =>
    have hrest := ih (fun x hx => hw x (List.mem_cons_of_mem c hx)) (s ++ [c])
    rw [List.append_cons, hrest]
    rcases hw c List.mem_cons_self with rfl | hblank
    · rw [cut_append, show cut [] = [] from rfl, List.append_nil]
    · exact cut_append_blank (by simpa [Text.Blank] using hblank) s

/-! ## Writing -/

theorem IsSegment.cut_eq (h : IsSegment x) : cut x.toList = [x] := by
  have hne : x.toList ≠ [] := by simpa using h.nonempty
  rw [cut_of_notMem h.one, Text.trim_of_trimmed h.trimmed, if_neg hne, String.ofList_toList]

/-- Segments are found again between the backslashes that are put there. -/
theorem cut_join (h : ∀ x ∈ xs, IsSegment x) :
    cut (Text.join ['\\'] (xs.map String.toList)) = xs := by
  induction xs with
  | nil => rfl
  | cons x xs ih =>
    have hx := (h x List.mem_cons_self).cut_eq
    have hrest := ih fun y hy => h y (List.mem_cons_of_mem x hy)
    cases xs with
    | nil => exact hx
    | cons y ys =>
      rw [List.map_cons, List.map_cons, Text.join, List.append_assoc, List.singleton_append,
        cut_append, hx, ← List.map_cons, hrest]
      rfl

theorem ofPath_text_iff :
    ofPath (qualified xs).text = qualified xs ↔ ∀ x ∈ xs, IsSegment x := by
  have hread : ofPath (qualified xs).text =
      qualified (cut (Text.join ['\\'] (xs.map String.toList))) := by
    rw [ofPath, segments_eq, text, String.toList_ofList]
  rw [hread, qualified.injEq]
  constructor
  · intro h x hx
    rw [← h] at hx
    exact isSegment_of_mem hx
  · exact cut_join

/-! ## Whole names -/

theorem ofPath_text_ofPath (s : String) : ofPath (ofPath s).text = ofPath s :=
  ofPath_text_iff.mpr fun _ => isSegment_of_mem

/-- The text of a path of segments says which path it is. -/
theorem text_inj {ys : List String} (hxs : ∀ x ∈ xs, IsSegment x) (hys : ∀ y ∈ ys, IsSegment y)
    (h : (qualified xs).text = (qualified ys).text) : xs = ys := by
  have hread := congrArg ofPath h
  rw [ofPath_text_iff.mpr hxs, ofPath_text_iff.mpr hys] at hread
  exact qualified.inj hread

theorem segments_append (s t : String) :
    segments (s ++ "\\" ++ t) = segments s ++ segments t := by
  rw [segments_eq, String.toList_append, String.toList_append, List.append_assoc]
  exact cut_append s.toList t.toList

theorem segments_blanks {w v : String} (hw : Text.Blank w.toList) (hv : Text.Blank v.toList)
    (s : String) : segments (w ++ s ++ v) = segments s := by
  rw [segments_eq, String.toList_append, String.toList_append, cut_append_blank hv,
    cut_blank_append hw, segments_eq]

/-- **Class names.** Reading yields segments, and reading what was written yields them again. The
paths that are read back from their text are those made of segments, so no two of them have the same
text. A backslash puts the segments of two names one behind the other; backslashes at the ends, more
of them at one place and blanks around them change nothing. -/
theorem ofPath_normalises :
    (∀ s, ∃ xs, ofPath s = qualified xs ∧ (∀ x ∈ xs, IsSegment x) ∧
      ofPath (ofPath s).text = ofPath s) ∧
    (∀ xs, ofPath (qualified xs).text = qualified xs ↔ ∀ x ∈ xs, IsSegment x) ∧
    (∀ xs ys, (∀ x ∈ xs, IsSegment x) → (∀ y ∈ ys, IsSegment y) →
      (qualified xs).text = (qualified ys).text → xs = ys) ∧
    (∀ s t, ofPath (s ++ "\\" ++ t) = qualified (segments s ++ segments t)) ∧
    (∀ s, ofPath ("\\" ++ s) = ofPath s ∧ ofPath (s ++ "\\") = ofPath s) ∧
    (∀ s t, ofPath (s ++ "\\" ++ ("\\" ++ t)) = ofPath (s ++ "\\" ++ t)) ∧
    (∀ w v s, Text.Blank w.toList → Text.Blank v.toList → ofPath (w ++ s ++ v) = ofPath s) ∧
    ∀ w v s t, Text.Blank w.toList → Text.Blank v.toList →
      ofPath (s ++ w ++ "\\" ++ (v ++ t)) = ofPath (s ++ "\\" ++ t) := by
  have hnone : segments "" = [] := rfl
  have hleft : ∀ s, segments ("\\" ++ s) = segments s := fun s => by
    have h := segments_append "" s
    rwa [String.empty_append, hnone] at h
  have hright : ∀ s, segments (s ++ "\\") = segments s := fun s => by
    have h := segments_append s ""
    rwa [String.append_empty, hnone, List.append_nil] at h
  have hbefore : ∀ {w : String}, Text.Blank w.toList → ∀ s, segments (w ++ s) = segments s :=
    fun hw s => by simpa using segments_blanks hw (v := "") (by decide) s
  have hbehind : ∀ {v : String}, Text.Blank v.toList → ∀ s, segments (s ++ v) = segments s :=
    fun hv s => by simpa using segments_blanks (w := "") (by decide) hv s
  refine ⟨fun s => ⟨_, rfl, fun _ => isSegment_of_mem, ofPath_text_ofPath s⟩,
    fun _ => ofPath_text_iff, fun _ _ => text_inj, ?_, ?_, ?_, ?_, ?_⟩
  · intro s t
    rw [ofPath, segments_append]
  · intro s
    rw [ofPath, ofPath, ofPath, hleft, hright]
    exact ⟨rfl, rfl⟩
  · intro s t
    rw [ofPath, ofPath, segments_append, segments_append, hleft]
  · intro w v s hw hv
    rw [ofPath, ofPath, segments_blanks hw hv]
  · intro w v s t hw hv
    rw [ofPath, ofPath, segments_append, segments_append, hbehind hw, hbefore hv]

/-- A blank before a separator and a no-break space behind it; a blank inside a segment stays. -/
theorem spacedModel_normalises :
    Text.Blank " ".toList ∧ Text.Blank "\u00a0".toList ∧
      ofPath ("App" ++ " " ++ "\\" ++ ("\u00a0" ++ "My Model")) =
        ofPath ("App" ++ "\\" ++ "My Model") ∧
      (∀ x ∈ ["App", "My Model"], IsSegment x) ∧
      ofPath (qualified ["App", "My Model"]).text = qualified ["App", "My Model"] := by
  obtain ⟨-, hfixed, -, -, -, -, -, hblanks⟩ := ofPath_normalises
  have hw : Text.Blank " ".toList := by decide
  have hv : Text.Blank "\u00a0".toList := by decide
  have hsegments : ∀ x ∈ ["App", "My Model"], IsSegment x := by decide
  exact ⟨hw, hv, hblanks _ _ _ _ hw hv, hsegments, (hfixed _).mpr hsegments⟩

end TypeRef

end Lineage
