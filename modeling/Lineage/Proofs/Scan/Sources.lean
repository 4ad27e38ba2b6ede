import Lineage.Proofs.Discovery
import Lineage.Proofs.Walk
import Lineage.Scan.Run

/-!
# The sources of a scan

The sources are what the search selects from the walk (`files_eq_ok_iff`). In a tree whose names are
proper each of them is one file, at the place that its names lead to (`nodup_sources`,
`resolve_source`). No source decides what is ignored, so a tree from which sources are deleted lacks
just those (`lacks_sources`).
-/
namespace Lineage

/-- The sources are the files that the search chooses from the walk. -/
theorem Project.files_eq_ok_iff {p : Project} {options : ScanOptions} {files : List String} :
    p.files options = .ok files ↔
      ∃ s walked, Search.ofPatterns p.root options.extensions options.ignore = .ok s ∧
        p.walked = .ok walked ∧ files = (s.chosen walked).map (Path.descend p.root) := by
  unfold Project.files
  cases hs : Search.ofPatterns p.root options.extensions options.ignore with
  | error f => simp [bind, Except.bind]
  | ok s =>
    have hroot : s.root = p.root := (Search.ofPatterns_eq_ok_iff.mp hs).1
    cases p.walked with
    | error fault => simp [bind, Except.bind, Search.discover]
    | ok walked =>
      simp only [bind, Except.bind, Search.discover, Search.select_eq, hroot, Except.ok.injEq,
        exists_and_left, exists_eq_left']
      exact eq_comm

namespace FileTree
variable {t : FileTree} {root : String} {options : ScanOptions} {files : List String}
  {walked : List (List String)}

theorem ne_empty_of_walk (hwalk : t.walk root = .ok walked) : root ≠ "" := by
  rintro rfl
  obtain ⟨place, hplace⟩ := exists_locate_of_walk (by decide) hwalk
  exact ne_empty_of_resolve (locate_eq_ok_iff.mp hplace).1 rfl

theorem isName_of_mem_walk (hproper : t.Proper) (hwalk : t.walk root = .ok walked)
    {names : List String} (h : names ∈ walked) : ∀ name ∈ names, Path.IsName name := by
  intro name hname
  obtain ⟨place, -, hbelow⟩ := exists_of_mem_walk hwalk h
  split at hbelow
  case isTrue hdir =>
    obtain ⟨rest, -, rfl, hlisted, -⟩ := mem_walkBelow hbelow
    obtain ⟨entry, hentry, hplaces⟩ := List.mem_map.mp hlisted
    refine hproper entry hentry name ?_
    rw [hplaces]
    exact List.mem_append_right place hname
  case isFalse =>
    rw [hbelow] at hname
    cases hname

theorem sources_eq_ok_iff :
    t.sources root options = .ok files ↔
      ∃ s walked, Search.ofPatterns root options.extensions options.ignore = .ok s ∧
        t.walk root = .ok walked ∧ files = (s.chosen walked).map (Path.descend root) :=
  Project.files_eq_ok_iff

/-- Each source is one file. -/
theorem nodup_sources (hdistinct : t.Distinct) (hproper : t.Proper)
    (hfiles : t.sources root options = .ok files) : files.Nodup := by
  obtain ⟨s, walked, -, hwalk, rfl⟩ := sources_eq_ok_iff.mp hfiles
  have hchosen : (s.chosen walked).Nodup :=
    (List.mergeSort_perm _ _).nodup_iff.mpr ((nodup_walk hdistinct hwalk).filter _)
  refine hchosen.map_on fun names hnames names' hnames' heq => ?_
  exact Path.descend_inj (ne_empty_of_walk hwalk)
    (isName_of_mem_walk hproper hwalk (Search.mem_chosen.mp hnames).1)
    (isName_of_mem_walk hproper hwalk (Search.mem_chosen.mp hnames').1) heq

/-- A source stands at the place that its names lead to from the root's. -/
theorem resolve_source (hproper : t.Proper) (hwalk : t.walk root = .ok walked)
    {place names there : List String} (hplace : t.locate root = .ok place) (h : names ∈ walked)
    (hres : t.resolve (Path.descend root names) = .ok there) : there = place ++ names := by
  obtain ⟨above, habove, hthere⟩ :=
    resolve_descend (ne_empty_of_walk hwalk) (isName_of_mem_walk hproper hwalk h) hres
  obtain rfl := Except.ok.inj (habove.symm.trans (locate_eq_ok_iff.mp hplace).1)
  exact hthere

theorem extension?_ruleFiles : ∀ name ∈ ruleFiles, Path.extension? name = none := by decide

/-- A tree lacks the sources that were deleted from it, and they had no say in what is ignored. -/
theorem lacks_sources (hproper : t.Proper) {place : List String}
    (hplace : t.locate root = .ok place) (hdir : t.isDirectory place = true)
    (hfiles : t.sources root options = .ok files) {gone : List String}
    (hgone : ∀ path ∈ gone, path ∈ files) : Lacks (t.leadTo gone) t (t.delete gone) := by
  obtain ⟨s, walked, hs, hwalk, rfl⟩ := sources_eq_ok_iff.mp hfiles
  have hsource : ∀ path ∈ gone, ∀ there, t.resolve path = .ok there → ∃ names ∈ s.chosen walked,
      path = Path.descend root names ∧ there = place ++ names := by
    intro path hpath there hres
    obtain ⟨names, hnames, rfl⟩ := List.mem_map.mp (hgone path hpath)
    exact ⟨names, hnames, rfl,
      resolve_source hproper hwalk hplace (Search.mem_chosen.mp hnames).1 hres⟩
  refine lacks_delete ?_ ?_
  · intro path hpath there hres
    obtain ⟨names, hnames, -, rfl⟩ := hsource path hpath there hres
    exact (mem_walk hplace hdir hwalk (Search.mem_chosen.mp hnames).1).2.2
  · intro path hpath there hres name hname hlast
    obtain ⟨names, hnames, rfl, rfl⟩ := hsource path hpath there hres
    obtain ⟨hmem, hwants⟩ := Search.mem_chosen.mp hnames
    have hne : names ≠ [] := (mem_walk hplace hdir hwalk hmem).1
    rw [List.getLast?_append_of_ne_nil _ hne] at hlast
    -- a source has an extension, and no file of rules has one
    obtain ⟨file, extension, hfile, hextension⟩ := Search.exists_extension hwants
    rw [(Search.ofPatterns_eq_ok_iff.mp hs).1, Path.fileName?_descend (ne_empty_of_walk hwalk)
      (isName_of_mem_walk hproper hwalk hmem) hlast] at hfile
    cases hfile
    rw [extension?_ruleFiles name hname] at hextension
    cases hextension

end FileTree

end Lineage
