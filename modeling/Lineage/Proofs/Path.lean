import Lineage.Path

/-!
# Names in paths

What is joined to a directory's path comes behind the directory's pieces (`pieces_join`), and a name
that is joined to it is the name of the file (`fileName?_join`). The names that lead down from a
root can be read off the path again (`descend_inj`).
-/
namespace Lineage

theorem Text.split_append (sep : Char) (a b : List Char) :
    split sep (a ++ sep :: b) = split sep a ++ split sep b := by
  induction a with
  | nil => simp [split]
  | cons c a ih =>
    rw [List.cons_append, split, ih, split]
    by_cases hc : c = sep
    · simp [hc]
    · cases hs : split sep a with
      | nil => exact absurd hs (split_ne_nil sep a)
      | cons piece pieces => simp [hc]

theorem Text.split_of_notMem {sep : Char} {s : List Char} (h : sep ∉ s) : split sep s = [s] := by
  induction s with
  | nil => rfl
  | cons c s ih =>
    rw [List.mem_cons, not_or] at h
    simp [split, ih h.2, Ne.symm h.1]

namespace Path
variable {dir name root : String}

/-- What a file or directory can be called. -/
def IsName (name : String) : Prop :=
  name ≠ "" ∧ name ≠ "." ∧ name ≠ ".." ∧ '/' ∉ name.toList

instance (name : String) : Decidable (IsName name) := inferInstanceAs (Decidable (_ ∧ _))

theorem endsWith_slash_iff : dir.endsWith "/" = true ↔ ['/'] <:+ dir.toList := by
  rw [String.endsWith_eq_endsWith_toSlice, String.Slice.endsWith_string_iff]
  simp

theorem startsWith_eq_false (h : ¬ ['/'] <+: name.toList) : name.startsWith "/" = false := by
  rw [Bool.eq_false_iff, Ne, String.startsWith_string_iff]
  exact h

theorem IsName.relative (h : IsName name) : ¬ ['/'] <+: name.toList := fun hstart =>
  h.2.2.2 (hstart.subset List.mem_cons_self)

/-- The pieces of a directory's path, less the empty one behind a slash at its end. -/
def stem (dir : String) : List (List Char) :=
  if dir.endsWith "/" then (pieces dir).dropLast else pieces dir

theorem pieces_of_slash {above : List Char} (h : dir.toList = above ++ ['/']) :
    pieces dir = Text.split '/' above ++ [[]] := by
  rw [pieces, h, Text.split_append]
  rfl

theorem stem_of_slash {above : List Char} (h : dir.toList = above ++ ['/']) :
    stem dir = Text.split '/' above := by
  have hslash : dir.endsWith "/" = true := endsWith_slash_iff.mpr ⟨above, h.symm⟩
  rw [stem, if_pos hslash, pieces_of_slash h, List.dropLast_concat]

theorem stem_cases (dir : String) : pieces dir = stem dir ∨ pieces dir = stem dir ++ [[]] := by
  by_cases hslash : dir.endsWith "/" = true
  · obtain ⟨above, habove⟩ := endsWith_slash_iff.mp hslash
    right
    rw [pieces_of_slash habove.symm, stem_of_slash habove.symm]
  · left
    rw [stem, if_neg hslash]

/-- What is joined to a directory's path comes behind the directory's pieces. -/
theorem pieces_join (hdir : dir ≠ "") (hname : ¬ ['/'] <+: name.toList) :
    pieces (join dir name) = stem dir ++ pieces name := by
  have hempty : dir.isEmpty = false := by simpa using hdir
  unfold join
  rw [hempty, startsWith_eq_false hname]
  by_cases hslash : dir.endsWith "/" = true
  · obtain ⟨above, habove⟩ := endsWith_slash_iff.mp hslash
    have hjoin : (dir ++ name).toList = above ++ '/' :: name.toList := by simp [← habove]
    simp only [Bool.or_self, Bool.false_eq_true, if_false, hslash, if_true]
    rw [stem_of_slash habove.symm, pieces, hjoin, Text.split_append, pieces]
  · have hjoin : (dir ++ "/" ++ name).toList = dir.toList ++ '/' :: name.toList := by simp
    simp only [Bool.or_self, Bool.false_eq_true, if_false, hslash]
    rw [stem, if_neg hslash, pieces, hjoin, Text.split_append, pieces, pieces]

theorem exists_pieces_join (dir : String) (hname : ¬ ['/'] <+: name.toList) :
    ∃ above, pieces (join dir name) = above ++ pieces name := by
  by_cases hdir : dir = ""
  · exact ⟨[], by simp [join, hdir]⟩
  · exact ⟨stem dir, pieces_join hdir hname⟩

/-- A directory's path is the start of the paths in it. -/
theorem toList_prefix_join (dir : String) (hname : ¬ ['/'] <+: name.toList) :
    dir.toList <+: (join dir name).toList := by
  unfold join
  rw [startsWith_eq_false hname]
  cases hempty : dir.isEmpty with
  | true =>
    rw [String.isEmpty_iff.mp hempty]
    exact List.nil_prefix
  | false =>
    by_cases hslash : dir.endsWith "/" = true <;> simp [hslash, List.append_assoc]

/-! ## Names one inside the other -/

theorem IsName.pieces (h : IsName name) : pieces name = [name.toList] :=
  Text.split_of_notMem h.2.2.2

theorem IsName.not_isIdle (h : IsName name) : isIdle name.toList = false := by
  have hempty : name.toList ≠ [] := mt String.toList_eq_nil_iff.mp h.1
  have hdot : name.toList ≠ ['.'] := fun heq => h.2.1 (String.toList_inj.mp heq)
  simp [isIdle, hempty, hdot]

theorem join_ne_empty (hdir : dir ≠ "") (hname : IsName name) : join dir name ≠ "" := by
  intro hempty
  have hstart := toList_prefix_join dir hname.relative
  rw [hempty] at hstart
  exact hdir (String.toList_eq_nil_iff.mp (List.prefix_nil.mp hstart))

/-- A name at the end of a path is the name of the file. -/
theorem fileName?_join (hdir : dir ≠ "") (hname : IsName name) :
    fileName? (join dir name) = some name := by
  have hup : name.toList ≠ ['.', '.'] := fun heq => hname.2.2.1 (String.toList_inj.mp heq)
  unfold fileName?
  rw [pieces_join hdir hname.relative, hname.pieces]
  simp [hname.not_isIdle, hup]

theorem descend_ne_empty (hroot : root ≠ "") {names : List String}
    (hnames : ∀ n ∈ names, IsName n) : descend root names ≠ "" := by
  induction names generalizing root with
  | nil => exact hroot
  | cons n names ih =>
    exact ih (join_ne_empty hroot (hnames n List.mem_cons_self)) fun m hm =>
      hnames m (List.mem_cons_of_mem n hm)

/-- The last of the names that lead down from a root is the name of the file. -/
theorem fileName?_descend (hroot : root ≠ "") {names : List String} (hnames : ∀ n ∈ names, IsName n)
    {last : String} (hlast : names.getLast? = some last) :
    fileName? (descend root names) = some last := by
  obtain ⟨above, rfl⟩ := List.getLast?_eq_some_iff.mp hlast
  have habove : ∀ n ∈ above, IsName n := fun n hn => hnames n (List.mem_append_left _ hn)
  rw [descend, List.foldl_append]
  exact fileName?_join (descend_ne_empty hroot habove) (hnames last (by simp))

/-- A path that ends in a name has no slash at its end. -/
theorem stem_join (hdir : dir ≠ "") (hname : IsName name) :
    stem (join dir name) = stem dir ++ [name.toList] := by
  have hpieces := pieces_join hdir hname.relative
  rw [hname.pieces] at hpieces
  rcases stem_cases (join dir name) with hstem | hstem
  · rw [← hstem, hpieces]
  · have hlast := congrArg List.getLast? (hpieces.symm.trans hstem)
    simp only [List.getLast?_concat, Option.some.injEq, String.toList_eq_nil_iff] at hlast
    exact absurd hlast hname.1

theorem stem_descend (hroot : root ≠ "") {names : List String} (hnames : ∀ n ∈ names, IsName n) :
    stem (descend root names) = stem root ++ names.map String.toList := by
  induction names generalizing root with
  | nil => simp [descend]
  | cons n names ih =>
    have hn : IsName n := hnames n List.mem_cons_self
    have hrest := ih (join_ne_empty hroot hn) fun m hm => hnames m (List.mem_cons_of_mem n hm)
    rw [descend, List.foldl_cons, ← descend, hrest, stem_join hroot hn]
    simp

/-- The names that lead down from a root can be read off the path. -/
theorem descend_inj (hroot : root ≠ "") {names names' : List String}
    (hnames : ∀ n ∈ names, IsName n) (hnames' : ∀ n ∈ names', IsName n)
    (h : descend root names = descend root names') : names = names' := by
  have hstem := congrArg stem h
  rw [stem_descend hroot hnames, stem_descend hroot hnames', List.append_cancel_left_eq] at hstem
  exact (List.map_inj_right fun _ _ => String.toList_inj.mp).mp hstem

end Path

end Lineage
