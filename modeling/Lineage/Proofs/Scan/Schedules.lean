import Lineage.Proofs.Parallel
import Lineage.Scan.Run

/-!
# Scans side by side and one after the other

A scan has two phases whose tasks may run side by side: the extraction of the files, and the check
of the trees. The forest between them takes the classes in order, so the first phase must not change
their order, nor must the second change the order of the reports.

Whatever the order in which the tasks of either phase finish, each phase gives what it gives without
parallelism (`extractAll_eq`, `allReports_eq`). So does the whole scan (`scan_schedule_free`).
-/
namespace Lineage

/-- Every task of both phases finishes once. -/
def Schedules.Complete (s : Schedules) : Prop := s.files.Complete ∧ s.trees.Complete

theorem Schedules.complete_inOrder : Complete {} := ⟨fun _ => .refl _, fun _ => .refl _⟩

/-- The extraction is a map over the files, however its tasks are run. -/
theorem SourceReader.extractAll_eq {parallel : Bool} {schedule : Schedule}
    (h : parallel = true → schedule.Complete) (r : SourceReader) (files : List String) :
    r.extractAll parallel schedule files =
      .ofOutcomes (files.map fun path => (path, r.extractFile path)) := by
  unfold extractAll
  rw [Parallel.mapIf_eq_map h, ← List.map_prod_left_eq_zip]

theorem Forest.analyzeParallel_eq {schedule : Schedule} (h : schedule.Complete) (f : Forest) :
    f.analyzeParallel schedule = f.analyze := by
  unfold analyzeParallel analyze
  rw [Parallel.map_eq_map h, List.flatMap_def]

theorem ScanResults.allReports_eq {options : ScanOptions} {schedule : Schedule}
    (h : options.parallel = true → schedule.Complete) (f : Forest) :
    allReports options schedule f = f.analyze := by
  unfold allReports
  split
  case isTrue hparallel => exact Forest.analyzeParallel_eq (h hparallel) f
  case isFalse => rfl

/-- Results depend neither on the parallelism of the check nor on its schedule, and ignored kinds
count as a set. -/
theorem ScanResults.ofExtraction_congr {options options' : ScanOptions}
    {schedule schedule' : Schedule} (h : options.parallel = true → schedule.Complete)
    (h' : options'.parallel = true → schedule'.Complete)
    (hkinds : ∀ kind, kind ∈ options'.ignoreKinds ↔ kind ∈ options.ignoreKinds) (path : String)
    (files : Nat) (e : Extraction) :
    ofExtraction options' schedule' path files e = ofExtraction options schedule path files e := by
  have hcontains : ∀ kind,
      options'.ignoreKinds.contains kind = options.ignoreKinds.contains kind := by
    intro kind
    rw [Bool.eq_iff_iff, List.contains_iff_mem, List.contains_iff_mem, hkinds]
  simp only [ofExtraction, allReports_eq h, allReports_eq h', hcontains]

/-- A scan of sources depends neither on the parallelism of its phases nor on their schedules, and
ignored kinds count as a set. -/
theorem Project.scan_congr {options options' : ScanOptions} {schedules schedules' : Schedules}
    (h : options.parallel = true → schedules.Complete)
    (h' : options'.parallel = true → schedules'.Complete)
    (hkinds : ∀ kind, kind ∈ options'.ignoreKinds ↔ kind ∈ options.ignoreKinds) {p p' : Project}
    (hroot : p'.root = p.root) (hreader : p'.reader = p.reader)
    (hfiles : p'.files options' = p.files options) :
    p'.scan options' schedules' = p.scan options schedules := by
  unfold scan
  rw [hfiles, hroot, hreader]
  cases p.files options with
  | error f => rfl
  | ok files =>
    refine congrArg Except.ok ?_
    rw [SourceReader.extractAll_eq fun hp => (h hp).1,
      SourceReader.extractAll_eq fun hp => (h' hp).1]
    exact ScanResults.ofExtraction_congr (fun hp => (h hp).2) (fun hp => (h' hp).2) hkinds _ _ _

/-- **Parallelism.** Whatever the order in which the tasks of both phases finish, a scan gives the
same results side by side as one after the other: the same reports and failures in the same order,
and the same numbers. If it fails, it fails in the same way. -/
theorem FileTree.scan_schedule_free (t : FileTree) (input : ScanInput) (options : ScanOptions)
    (schedules unused : Schedules) (h : schedules.Complete) :
    t.scan input { options with parallel := true } schedules =
      t.scan input { options with parallel := false } unused := by
  have hoff : ({ options with parallel := false } : ScanOptions).parallel = true →
      unused.Complete := fun hp => absurd hp Bool.false_ne_true
  have hkinds : ∀ kind, kind ∈ ({ options with parallel := true } : ScanOptions).ignoreKinds ↔
      kind ∈ ({ options with parallel := false } : ScanOptions).ignoreKinds := fun _ => Iff.rfl
  cases input with
  | sources root =>
    simp only [scan]
    apply Project.scan_congr hoff (fun _ => h) hkinds <;> rfl
  | records path =>
    simp only [scan]
    cases t.loadRecords path with
    | error f => rfl
    | ok classes =>
      refine congrArg Except.ok ?_
      exact ScanResults.ofExtraction_congr (fun hp => (hoff hp).2) (fun _ => h.2) hkinds _ _ _

/-- The last task finishes first. -/
def Schedule.backward : Schedule := fun n => (List.range n).reverse

/-- Three sources: a class that drops a default, one that does not parse, and the parent of the
first. -/
def threeSources : FileTree where
  items :=
    [(["a.php"], .file (Text.Utf8.encode
        "<?php class B extends A \x7b function f($x) \x7b\x7d \x7d")),
      (["b.php"], .file (Text.Utf8.encode "<?php class \x7b")),
      (["c.php"], .file (Text.Utf8.encode
        "<?php class A \x7b function f($x = 1) \x7b\x7d \x7d class C \x7b\x7d"))]

theorem threeSources_schedule_free :
    Schedules.Complete { files := .backward, trees := .backward } ∧
      Schedule.backward 3 = [2, 1, 0] ∧
      threeSources.scan (.sources ".") {} { files := .backward, trees := .backward } =
        threeSources.scan (.sources ".") { parallel := false } {} := by
  have h : Schedules.Complete { files := .backward, trees := .backward } :=
    ⟨fun n => List.reverse_perm _, fun n => List.reverse_perm _⟩
  exact ⟨h, by decide, FileTree.scan_schedule_free threeSources (.sources ".") {} _ {} h⟩

end Lineage
