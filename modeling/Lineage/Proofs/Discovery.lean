import Mathlib.Data.List.Basic
import Lineage.Discovery

/-!
# The files of a scan

Files are compared by the names that lead to them. That order is total and tells all of them apart,
so the sorted list depends only on which files were walked and are wanted.

* **Order of the walk (`chosen_perm`).** What was walked first does not matter.
* **Less walked (`chosen_filter`).** Files that are not walked are missing, and the others keep
  their order.
* **Patterns (`exists_ofPatterns`).** Extensions and patterns count as sets.
* **Faults (`ofPatterns_eq_error_iff`).** Without a fault in a pattern a search can be made.
  Otherwise the first one is reported, whatever stands in front of it (`firstError_append_iff`).
-/
namespace Lineage.Search

/-! ## The order of files -/

theorem precedes_total (a b : List String) : (precedes a b || precedes b a) = true := by
  induction a generalizing b with
  | nil => simp [precedes]
  | cons x a ih =>
    cases b with
    | nil => simp [precedes]
    | cons y b =>
      by_cases hxy : x = y
      · simpa [precedes, hxy] using ih b
      · by_cases hlt : x < y
        · simp [precedes, hxy, hlt]
        · by_cases hgt : y < x
          · simp [precedes, Ne.symm hxy, hgt]
          · exact absurd (String.le_antisymm hgt hlt) hxy

theorem precedes_trans (a b c : List String) (hab : precedes a b = true)
    (hbc : precedes b c = true) : precedes a c = true := by
  induction a generalizing b c with
  | nil => simp [precedes]
  | cons x a ih =>
    cases b with
    | nil => simp [precedes] at hab
    | cons y b =>
      cases c with
      | nil => simp [precedes] at hbc
      | cons z c =>
        simp only [precedes] at hab hbc ⊢
        by_cases hxy : x = y
        · subst hxy
          by_cases hyz : x = z
          · simp only [hyz, if_true] at hab hbc ⊢
            exact ih b c hab hbc
          · simpa [hyz] using hbc
        · by_cases hyz : y = z
          · subst hyz
            simpa [hxy] using hab
          · simp only [hxy, hyz, if_false, decide_eq_true_eq] at hab hbc
            have hxz : x < z := String.lt_trans hab hbc
            have hne : x ≠ z := by
              rintro rfl
              exact String.lt_irrefl x hxz
            simpa [hne] using hxz

theorem precedes_antisymm (a b : List String) (hab : precedes a b = true)
    (hba : precedes b a = true) : a = b := by
  induction a generalizing b with
  | nil =>
    cases b with
    | nil => rfl
    | cons y b => simp [precedes] at hba
  | cons x a ih =>
    cases b with
    | nil => simp [precedes] at hab
    | cons y b =>
      simp only [precedes] at hab hba
      by_cases hxy : x = y
      · subst hxy
        simp only [if_true] at hab hba
        rw [ih b hab hba]
      · simp only [hxy, Ne.symm hxy, if_false, decide_eq_true_eq] at hab hba
        exact absurd (String.lt_trans hab hba) (String.lt_irrefl x)

theorem pairwise_mergeSort (l : List (List String)) :
    (l.mergeSort precedes).Pairwise fun a b => precedes a b = true :=
  List.pairwise_mergeSort precedes_trans precedes_total l

/-- A list in order is the sorted form of all its rearrangements. -/
theorem mergeSort_eq_of_perm {l l' : List (List String)}
    (hordered : l'.Pairwise fun a b => precedes a b = true) (hperm : l.Perm l') :
    l.mergeSort precedes = l' :=
  List.Perm.eq_of_pairwise (fun a b _ _ => precedes_antisymm a b) (pairwise_mergeSort l) hordered
    ((List.mergeSort_perm l precedes).trans hperm)

/-! ## What is selected -/

/-- The wanted files among those walked, by their names and in order. -/
def chosen (s : Search) (walked : List (List String)) : List (List String) :=
  (walked.filter s.wants).mergeSort precedes

theorem select_eq (s : Search) (walked : List (List String)) :
    s.select walked = (s.chosen walked).map (Path.descend s.root) := rfl

theorem mem_chosen {s : Search} {walked : List (List String)} {names : List String} :
    names ∈ s.chosen walked ↔ names ∈ walked ∧ s.wants names = true := by
  unfold chosen
  rw [List.mem_mergeSort, List.mem_filter]

theorem chosen_perm (s : Search) {walked walked' : List (List String)} (h : walked'.Perm walked) :
    s.chosen walked' = s.chosen walked :=
  mergeSort_eq_of_perm (pairwise_mergeSort _)
    ((h.filter s.wants).trans (List.mergeSort_perm _ precedes).symm)

theorem chosen_filter (s : Search) (keep : List String → Bool) (walked : List (List String)) :
    s.chosen (walked.filter keep) = (s.chosen walked).filter keep := by
  apply mergeSort_eq_of_perm
  · exact (pairwise_mergeSort _).filter keep
  · rw [List.filter_comm]
    exact ((List.mergeSort_perm _ precedes).filter keep).symm

/-- A file that takes part in a scan has an extension. -/
theorem exists_extension {s : Search} {names : List String} (h : s.wants names = true) :
    ∃ file extension, Path.fileName? (Path.descend s.root names) = some file ∧
      Path.extension? file = some extension := by
  unfold wants at h
  cases hext : (Path.fileName? (Path.descend s.root names)).bind Path.extension? with
  | none => simp [hext] at h
  | some extension =>
    obtain ⟨file, hfile, hextension⟩ := Option.bind_eq_some_iff.mp hext
    exact ⟨file, extension, hfile, hextension⟩

/-! ## Extensions and globs -/

/-- Extensions and globs count as sets. -/
theorem wants_congr {s s' : Search} (hroot : s'.root = s.root)
    (hextensions : ∀ e, e ∈ s'.extensions ↔ e ∈ s.extensions)
    (hignore : ∀ g, g ∈ s'.ignore ↔ g ∈ s.ignore) : s'.wants = s.wants := by
  funext names
  have hcontains : ∀ e, s'.extensions.contains e = s.extensions.contains e := by
    intro e
    rw [Bool.eq_iff_iff, List.contains_iff_mem, List.contains_iff_mem, hextensions]
  have hany : ∀ p : Glob → Bool, s'.ignore.any p = s.ignore.any p := by
    intro p
    rw [Bool.eq_iff_iff, List.any_eq_true, List.any_eq_true]
    simp only [hignore]
  unfold wants
  simp only [hroot, hcontains, hany]

theorem mapM_cons_eq_ok_iff {f : α → Except ε β} {a : α} {l : List α} {l' : List β} :
    (a :: l).mapM f = .ok l' ↔ ∃ b bs, f a = .ok b ∧ l.mapM f = .ok bs ∧ b :: bs = l' := by
  rw [List.mapM_cons]
  cases f a with
  | error e => simp [bind, Except.bind]
  | ok b => cases l.mapM f <;> simp [bind, Except.bind, pure, Except.pure]

theorem mem_of_mapM {f : α → Except ε β} {l : List α} {l' : List β} (h : l.mapM f = .ok l')
    {b : β} : b ∈ l' ↔ ∃ a ∈ l, f a = .ok b := by
  induction l generalizing l' with
  | nil =>
    cases h
    simp
  | cons a l ih =>
    obtain ⟨c, cs, hc, hcs, rfl⟩ := mapM_cons_eq_ok_iff.mp h
    simp [ih hcs, hc, eq_comm]

theorem exists_mapM {f : α → Except ε β} {l : List α} (h : ∀ a ∈ l, ∃ b, f a = .ok b) :
    ∃ l', l.mapM f = .ok l' := by
  induction l with
  | nil => exact ⟨[], rfl⟩
  | cons a l ih =>
    obtain ⟨b, hb⟩ := h a List.mem_cons_self
    obtain ⟨bs, hbs⟩ := ih fun c hc => h c (List.mem_cons_of_mem a hc)
    exact ⟨b :: bs, mapM_cons_eq_ok_iff.mpr ⟨b, bs, hb, hbs, rfl⟩⟩

/-- `e` is the error of the first element of the list on which `f` fails. -/
def FirstError (f : α → Except ε β) (l : List α) (e : ε) : Prop :=
  ∃ before a after, l = before ++ a :: after ∧ (∀ b ∈ before, ∃ x, f b = .ok x) ∧ f a = .error e

theorem not_firstError_nil {f : α → Except ε β} {e : ε} : ¬ FirstError f [] e := by
  rintro ⟨before, a, after, hsplit, -⟩
  cases before <;> cases hsplit

theorem firstError_cons_iff {f : α → Except ε β} {a : α} {l : List α} {e : ε} :
    FirstError f (a :: l) e ↔ f a = .error e ∨ (∃ x, f a = .ok x) ∧ FirstError f l e := by
  constructor
  · rintro ⟨before, b, after, hsplit, hbefore, hb⟩
    cases before with
    | nil =>
      cases hsplit
      exact Or.inl hb
    | cons c before =>
      cases hsplit
      exact Or.inr ⟨hbefore a List.mem_cons_self, before, b, after, rfl,
        fun d hd => hbefore d (List.mem_cons_of_mem a hd), hb⟩
  · rintro (ha | ⟨ha, before, b, after, rfl, hbefore, hb⟩)
    · exact ⟨[], a, l, rfl, by simp, ha⟩
    · refine ⟨a :: before, b, after, rfl, ?_, hb⟩
      intro d hd
      rcases List.mem_cons.mp hd with rfl | hd
      · exact ha
      · exact hbefore d hd

/-- What does not fail may stand in front. -/
theorem firstError_append_iff {f : α → Except ε β} {l l' : List α} {e : ε}
    (h : ∀ a ∈ l, ∃ x, f a = .ok x) : FirstError f (l ++ l') e ↔ FirstError f l' e := by
  induction l with
  | nil => rfl
  | cons a l ih =>
    obtain ⟨x, hx⟩ := h a List.mem_cons_self
    rw [List.cons_append, firstError_cons_iff, ih fun b hb => h b (List.mem_cons_of_mem a hb)]
    simp [hx]

theorem mapM_eq_error_iff {f : α → Except ε β} {l : List α} {e : ε} :
    l.mapM f = .error e ↔ FirstError f l e := by
  induction l with
  | nil => simp [not_firstError_nil, pure, Except.pure]
  | cons a l ih =>
    rw [firstError_cons_iff, ← ih, List.mapM_cons]
    cases f a with
    | error e' => simp [bind, Except.bind]
    | ok b => cases l.mapM f <;> simp [bind, Except.bind, pure, Except.pure]

theorem exists_firstError_iff {f : α → Except ε β} {l : List α} :
    (∃ e, FirstError f l e) ↔ ∃ a ∈ l, ∃ e, f a = .error e := by
  induction l with
  | nil => simp [not_firstError_nil]
  | cons a l ih =>
    simp only [firstError_cons_iff, List.exists_mem_cons_iff, ← ih]
    cases f a <;> simp

theorem ofPatterns_eq_ok_iff {root : String} {extensions ignore : List String} {s : Search} :
    ofPatterns root extensions ignore = .ok s ↔
      s.root = root ∧ s.extensions = extensions ∧ ignore.mapM Glob.parse = .ok s.ignore := by
  unfold ofPatterns
  cases ignore.mapM Glob.parse with
  | error e => simp [bind, Except.bind]
  | ok globs =>
    obtain ⟨root', extensions', ignore'⟩ := s
    simp [bind, Except.bind, pure, Except.pure, eq_comm]

theorem ofPatterns_eq_error_iff (root : String) (extensions : List String) {ignore : List String}
    {e : Failure} :
    ofPatterns root extensions ignore = .error e ↔ FirstError Glob.parse ignore e := by
  rw [← mapM_eq_error_iff]
  unfold ofPatterns
  cases ignore.mapM Glob.parse <;> simp [bind, Except.bind, pure, Except.pure]

/-- A search by valid patterns can be made, and patterns count as a set: every search by the same
ones chooses the same files. -/
theorem exists_ofPatterns (root : String) {extensions extensions' ignore ignore' : List String}
    (hvalid : ∀ pattern ∈ ignore, ∃ g, Glob.parse pattern = .ok g)
    (hextensions : ∀ e, e ∈ extensions' ↔ e ∈ extensions)
    (hignore : ∀ pattern, pattern ∈ ignore' ↔ pattern ∈ ignore) :
    ∃ s s', ofPatterns root extensions ignore = .ok s ∧
      ofPatterns root extensions' ignore' = .ok s' ∧ s'.chosen = s.chosen := by
  obtain ⟨globs, hglobs⟩ := exists_mapM hvalid
  obtain ⟨globs', hglobs'⟩ := exists_mapM fun pattern hp => hvalid pattern ((hignore pattern).mp hp)
  have hmem : ∀ g, g ∈ globs' ↔ g ∈ globs := by
    intro g
    simp only [mem_of_mapM hglobs, mem_of_mapM hglobs', hignore]
  have hwants :
      (Search.mk root extensions' globs').wants = (Search.mk root extensions globs).wants :=
    wants_congr rfl hextensions hmem
  refine ⟨⟨root, extensions, globs⟩, ⟨root, extensions', globs'⟩,
    ofPatterns_eq_ok_iff.mpr ⟨rfl, rfl, hglobs⟩, ofPatterns_eq_ok_iff.mpr ⟨rfl, rfl, hglobs'⟩, ?_⟩
  funext walked
  unfold chosen
  rw [hwants]

end Lineage.Search
