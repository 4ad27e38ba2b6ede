import Lineage.Proofs.Scan.Schedules
import Lineage.Proofs.Scan.Sources

/-!
# Scans and incidental order

The forest of a scan depends on the order of its files, so that order must not come from anything
incidental. It comes from the names alone: a walk may yield the files in any order (`exists_files`),
and a directory may list its names in any order (`reader_eq_of_perm`, `FileTree.lacks_of_perm`).
Extensions, patterns and ignored kinds count as sets. So the results are the same
(`scan_order_free`).
-/
namespace Lineage

namespace Project
variable {p : Project} {options options' : ScanOptions} {walked : List (List String)}

/-- `p'` is `p` with the files walked in some order. -/
structure Reordered (p p' : Project) : Prop where
  root : p'.root = p.root
  reader : p'.reader = p.reader
  walked : ∀ {walked}, p.walked = .ok walked →
    ∃ walked', p'.walked = .ok walked' ∧ walked'.Perm walked

/-- Valid patterns choose the same files, whatever the order of the walk. -/
theorem exists_files (hvalid : ∀ pattern ∈ options.ignore, ∃ g, Glob.parse pattern = .ok g)
    (hextensions : ∀ e, e ∈ options'.extensions ↔ e ∈ options.extensions)
    (hignore : ∀ pattern, pattern ∈ options'.ignore ↔ pattern ∈ options.ignore)
    (hwalked : p.walked = .ok walked) :
    ∃ files, p.files options = .ok files ∧
      ∀ p', p.Reordered p' → p'.files options' = .ok files := by
  obtain ⟨s, s', hs, hs', hchosen⟩ :=
    Search.exists_ofPatterns p.root hvalid hextensions hignore
  refine ⟨_, files_eq_ok_iff.mpr ⟨s, walked, hs, hwalked, rfl⟩, fun p' hp' => ?_⟩
  obtain ⟨walked', hwalked', hperm⟩ := hp'.walked hwalked
  refine files_eq_ok_iff.mpr ⟨s', walked', hp'.root ▸ hs', hwalked', ?_⟩
  rw [hchosen, hp'.root, s.chosen_perm hperm]

end Project

namespace FileTree
variable {t : FileTree} {items : List (List String × FileItem)}

theorem reader_eq_of_perm (hitems : items.Perm t.items) (h : t.Distinct) :
    { t with items := items }.reader = t.reader := by
  have hitem : ∀ place, { t with items := items }.item? place = t.item? place :=
    (lacks_of_perm hitems h).item?
  have hread : { t with items := items }.read = t.read := funext (read_congr rfl hitem)
  unfold reader
  rw [hread]

/-- A tree whose items are listed in another order is the same project, but for the order of its
walk. -/
theorem reordered_of_perm (hitems : items.Perm t.items) (h : t.Distinct) (root : String) :
    (t.project root).Reordered ({ t with items := items }.project root) where
  root := rfl
  reader := reader_eq_of_perm hitems h
  walked {walked} hwalk := by
    by_cases hroot : root = "-"
    · subst hroot
      exact ⟨walked, hwalk, List.Perm.refl walked⟩
    · obtain ⟨place, hplace⟩ := exists_locate_of_walk hroot hwalk
      obtain ⟨walked', hwalk', hperm⟩ := (lacks_of_perm hitems h).walk hplace rfl hwalk
      exact ⟨walked', hwalk', by simpa using hperm⟩

end FileTree

/-- **Incidental order.** A scan of what can be walked, by valid patterns, succeeds with results that
do not depend on the order in which the walk yields the files, or on the order and repetition of
extensions, patterns and ignored kinds. In a tree they do not depend on the order in which
directories list their names. -/
theorem scan_order_free (options options' : ScanOptions) (schedules schedules' : Schedules)
    (hcomplete : options.parallel = true → schedules.Complete)
    (hcomplete' : options'.parallel = true → schedules'.Complete)
    (hvalid : ∀ pattern ∈ options.ignore, ∃ g, Glob.parse pattern = .ok g)
    (hextensions : ∀ e, e ∈ options'.extensions ↔ e ∈ options.extensions)
    (hignore : ∀ pattern, pattern ∈ options'.ignore ↔ pattern ∈ options.ignore)
    (hkinds : ∀ kind, kind ∈ options'.ignoreKinds ↔ kind ∈ options.ignoreKinds) :
    (∀ (p : Project) (walked : List (List String)), p.walked = .ok walked →
      ∃ results, p.scan options schedules = .ok results ∧
        ∀ walked', walked'.Perm walked →
          { p with walked := .ok walked' }.scan options' schedules' = .ok results) ∧
    ∀ (t : FileTree) (items : List (List String × FileItem)) (root : String)
      (walked : List (List String)),
      t.Distinct → items.Perm t.items → t.walk root = .ok walked →
      ∃ results, t.scan (.sources root) options schedules = .ok results ∧
        { t with items := items }.scan (.sources root) options' schedules' = .ok results := by
  have hscan : ∀ (p : Project) (walked : List (List String)), p.walked = .ok walked →
      ∃ results, p.scan options schedules = .ok results ∧
        ∀ p', p.Reordered p' → p'.scan options' schedules' = .ok results := by
    intro p walked hwalked
    obtain ⟨files, hfiles, hreordered⟩ := Project.exists_files hvalid hextensions hignore hwalked
    obtain ⟨results, hresults⟩ : ∃ results, p.scan options schedules = .ok results := by
      rw [Project.scan, hfiles]
      exact ⟨_, rfl⟩
    refine ⟨results, hresults, fun p' hp' => ?_⟩
    rw [← hresults]
    exact Project.scan_congr hcomplete hcomplete' hkinds hp'.root hp'.reader
      ((hreordered p' hp').trans hfiles.symm)
  constructor
  · intro p walked hwalked
    obtain ⟨results, hresults, hsame⟩ := hscan p walked hwalked
    refine ⟨results, hresults, fun walked' hperm => hsame _ ⟨rfl, rfl, fun hwalked' => ?_⟩⟩
    rw [Except.ok.inj (hwalked.symm.trans hwalked')] at hperm
    exact ⟨walked', rfl, hperm⟩
  · intro t items root walked hdistinct hitems hwalk
    obtain ⟨results, hresults, hsame⟩ := hscan (t.project root) walked hwalk
    exact ⟨results, hresults, hsame _ (FileTree.reordered_of_perm hitems hdistinct root)⟩

/-- The three sources with `c.php` listed first. -/
def reversedSources : FileTree := { threeSources with items := threeSources.items.reverse }

theorem threeSources_walk : threeSources.walk "." = .ok [["a.php"], ["b.php"], ["c.php"]] := by
  decide +kernel

theorem threeSources_order_free :
    let options : ScanOptions :=
      { extensions := ["php", "inc"], ignore := ["*.x", "v/**"]
        ignoreKinds := [.fewerParameters, .referenceMismatch] }
    let options' : ScanOptions :=
      { extensions := ["inc", "php", "inc"], ignore := ["v/**", "*.x", "*.x"]
        ignoreKinds := [.referenceMismatch, .fewerParameters, .referenceMismatch] }
    (∃ results, (threeSources.project ".").scan options {} = .ok results ∧
      { threeSources.project "." with walked := .ok [["c.php"], ["a.php"], ["b.php"]] }.scan
        options' {} = .ok results) ∧
    ∃ results, threeSources.scan (.sources ".") options {} = .ok results ∧
      reversedSources.scan (.sources ".") options' {} = .ok results := by
  intro options options'
  have hx : Glob.parse "*.x" = .ok ⟨[.anyText, .char '.', .char 'x']⟩ := by decide +kernel
  have hv : Glob.parse "v/**" = .ok ⟨[.char 'v', .char '/', .anyDirectories]⟩ := by decide +kernel
  have hvalid : ∀ pattern ∈ options.ignore, ∃ g, Glob.parse pattern = .ok g :=
    List.forall_mem_cons.mpr ⟨⟨_, hx⟩, List.forall_mem_singleton.mpr ⟨_, hv⟩⟩
  have h := scan_order_free options options' {} {} (fun _ => Schedules.complete_inOrder)
    (fun _ => Schedules.complete_inOrder) hvalid (by simp [options, options', or_comm])
    (by simp [options, options', or_comm]) (by simp [options, options', or_comm])
  refine ⟨?_, h.2 threeSources _ "." _ (by decide) (List.reverse_perm _) threeSources_walk⟩
  obtain ⟨results, hscan, hsame⟩ := h.1 (threeSources.project ".") _ threeSources_walk
  exact ⟨results, hscan, hsame _ (by decide)⟩

end Lineage
