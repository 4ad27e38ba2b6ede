import Lineage.Proofs.Scan.Schedules
import Lineage.Proofs.Scan.Sources

/-!
# A broken file costs only itself

Of each file a scan keeps one of two things: the classes found in it, or the reason why it failed.

* **Failures (`blames_ofExtraction`).** Those listed are the files that fail, in order and each with
  its own message.
* **Findings (`findings_ofExtraction`).** Reports and statistics depend on the classes of all files
  in order, and on nothing else.

A file that fails has no classes, nor has one that never mentions a class (`records_of_spare`). Such
files can be left out of a project, or deleted from the tree, and the findings stay
(`scan_without_broken`).
-/
namespace Lineage

/-! ## Files that mention no class -/

namespace Php

/-- The word `class` stands somewhere in the bytes, in capitals or small letters. -/
def MentionsClass (bytes : List UInt8) : Prop := classWord <:+: bytes.map lowerByte

theorem startsWithClass_iff {bytes : List UInt8} :
    startsWithClass bytes = true ↔ classWord <+: bytes.map lowerByte := by
  rw [startsWithClass, beq_iff_eq, List.map_take, List.prefix_iff_eq_take]
  exact eq_comm

theorem mayDeclareClass_iff {bytes : List UInt8} :
    mayDeclareClass bytes = true ↔ MentionsClass bytes := by
  unfold MentionsClass
  induction bytes with
  | nil => decide
  | cons b bytes ih =>
    rw [mayDeclareClass, Bool.or_eq_true, startsWithClass_iff, ih, List.map_cons,
      List.infix_cons_iff]

instance (bytes : List UInt8) : Decidable (MentionsClass bytes) :=
  decidable_of_iff _ mayDeclareClass_iff

end Php

/-! ## Outcomes -/

namespace SourceReader
variable {r : SourceReader} {path : String}

/-- The file cannot be read, or it mentions a class and has a fault. -/
def Fails (r : SourceReader) (path : String) : Prop :=
  (∃ fault, r.read path = .error fault) ∨
    ∃ bytes f, r.read path = .ok bytes ∧ Php.MentionsClass bytes ∧ r.extract path bytes = .error f

/-- The file can be read and mentions no class. -/
def Classless (r : SourceReader) (path : String) : Prop :=
  ∃ bytes, r.read path = .ok bytes ∧ ¬ Php.MentionsClass bytes

instance (r : SourceReader) (path : String) : Decidable (r.Classless path) :=
  match h : r.read path with
  | .error _ => isFalse (by simp [Classless, h])
  | .ok bytes => decidable_of_iff (¬ Php.MentionsClass bytes) (by simp [Classless, h])

/-- The classes of a file; a file that fails has none. -/
def records (r : SourceReader) (path : String) : List ClassDecl :=
  (r.extractFile path).toOption.getD []

theorem extractFile_of_read_error {fault : FileFault} (h : r.read path = .error fault) :
    r.extractFile path = .error (.unreadable "Failed to read source file" path fault) := by
  rw [extractFile, h]

theorem extractFile_of_read_ok {bytes : List UInt8} (h : r.read path = .ok bytes) :
    r.extractFile path = if Php.MentionsClass bytes then r.extract path bytes else .ok [] := by
  rw [extractFile, h]
  exact if_congr Php.mayDeclareClass_iff rfl rfl

theorem fails_iff : r.Fails path ↔ ∃ f, r.extractFile path = .error f := by
  cases hread : r.read path with
  | error fault => simp [Fails, hread, extractFile_of_read_error hread]
  | ok bytes =>
    by_cases hclass : Php.MentionsClass bytes <;>
      simp [Fails, hread, extractFile_of_read_ok hread, hclass]

instance (r : SourceReader) (path : String) : Decidable (r.Fails path) :=
  match h : r.extractFile path with
  | .error f => isTrue (fails_iff.mpr ⟨f, h⟩)
  | .ok _ => isFalse (by simp [fails_iff, h])

theorem records_of_spare (h : r.Fails path ∨ r.Classless path) : r.records path = [] := by
  unfold records
  rcases h with hfails | ⟨bytes, hread, hclass⟩
  · obtain ⟨f, hf⟩ := fails_iff.mp hfails
    rw [hf]
    rfl
  · rw [extractFile_of_read_ok hread, if_neg hclass]
    rfl

/-- The classes of a file depend on its bytes alone, if it can be read. -/
theorem records_congr {r' : SourceReader} (hextract : r'.extract = r.extract)
    (hread : (r'.read path).toOption = (r.read path).toOption) :
    r'.records path = r.records path := by
  unfold records extractFile
  rw [hextract]
  cases hbytes : r.read path <;> cases hbytes' : r'.read path <;>
    simp_all [Except.toOption]

end SourceReader

namespace Extraction

/-- Classes are kept in file order. -/
theorem classes_ofOutcomes (r : SourceReader) (files : List String) :
    (ofOutcomes (files.map fun path => (path, r.extractFile path))).classes =
      files.flatMap r.records := by
  unfold ofOutcomes
  rw [List.flatMap_map]
  refine List.flatMap_congr fun path _ => ?_
  unfold SourceReader.records
  cases r.extractFile path <;> rfl

/-- A failure is blamed on the file whose outcome it is. -/
theorem mem_failures_ofOutcomes {r : SourceReader} {files : List String} {path : String}
    {f : Failure}
    (h : (path, f) ∈ (ofOutcomes (files.map fun path => (path, r.extractFile path))).failures) :
    r.extractFile path = .error f := by
  obtain ⟨⟨path', outcome⟩, hmem, hfailure⟩ := List.mem_filterMap.mp h
  obtain ⟨path'', -, hpair⟩ := List.mem_map.mp hmem
  cases hpair
  cases houtcome : r.extractFile path' with
  | ok classes => simp [houtcome] at hfailure
  | error f' =>
    simp only [houtcome, Option.some.injEq, Prod.mk.injEq] at hfailure
    obtain ⟨rfl, rfl⟩ := hfailure
    exact houtcome

/-- Failures are kept in file order. -/
theorem paths_ofOutcomes (r : SourceReader) (files : List String) :
    (ofOutcomes (files.map fun path => (path, r.extractFile path))).failures.map Prod.fst =
      files.filter fun path => r.Fails path := by
  unfold ofOutcomes
  rw [List.filterMap_map, List.map_filterMap, ← List.filterMap_eq_filter]
  refine List.filterMap_congr fun path _ => ?_
  cases houtcome : r.extractFile path <;>
    simp [Option.guard, SourceReader.fails_iff, houtcome]

end Extraction

/-! ## Results -/

/-- What a scan finds out about classes. -/
structure Findings where
  reports : List Report
  classes : Nat
  roots : Nat
  orphans : Nat
  maxDepth : Nat
  deriving DecidableEq

/-- What there is to find in the classes, listed in the order in which they were met. -/
def Findings.ofClasses (ignoreKinds : List Verdict) (classes : List ClassDecl) : Findings :=
  let f := Forest.build classes
  { reports := f.analyze.filter fun report => !ignoreKinds.contains report.kind
    classes := f.stats.classes
    roots := f.stats.roots
    orphans := f.stats.orphans
    maxDepth := f.stats.maxDepth }

namespace ScanResults
variable {options : ScanOptions} {schedule : Schedule}

def findings (results : ScanResults) : Findings where
  reports := results.reports
  classes := results.summary.classes
  roots := results.summary.roots
  orphans := results.summary.orphans
  maxDepth := results.summary.maxDepth

/-- The failures listed are those of the files, in order. -/
structure Blames (results : ScanResults) (r : SourceReader) (files : List String) : Prop where
  paths : results.failures.map FailedFile.path = files.filter fun path => r.Fails path
  messages : ∀ failure ∈ results.failures, ∃ cause,
    r.extractFile failure.path = .error cause ∧ failure.message = cause.message
  number : results.summary.failedFiles = (files.filter fun path => r.Fails path).length

theorem findings_ofExtraction (h : options.parallel = true → schedule.Complete) (path : String)
    (files : Nat) (e : Extraction) :
    (ofExtraction options schedule path files e).findings =
      .ofClasses options.ignoreKinds e.classes := by
  simp only [findings, ofExtraction, Findings.ofClasses, allReports_eq h]

theorem blames_ofExtraction (options : ScanOptions) (schedule : Schedule) (path : String) (n : Nat)
    (r : SourceReader) (files : List String) :
    (ofExtraction options schedule path n
      (.ofOutcomes (files.map fun path => (path, r.extractFile path)))).Blames r files where
  paths := by
    rw [← Extraction.paths_ofOutcomes]
    simp [ofExtraction]
  messages failure hfailure := by
    obtain ⟨⟨path, f⟩, hmem, rfl⟩ := List.mem_map.mp hfailure
    exact ⟨f, Extraction.mem_failures_ofOutcomes hmem, rfl⟩
  number := by
    rw [← Extraction.paths_ofOutcomes, List.length_map]
    rfl

end ScanResults

/-! ## Scans -/

namespace Project
variable {p : Project} {options : ScanOptions} {schedules : Schedules} {files : List String}

/-- The project without the files at some paths. -/
def without (p : Project) (gone : List String) : Project :=
  { p with walked := p.walked.map (List.filter fun names => Path.descend p.root names ∉ gone) }

theorem files_without (hfiles : p.files options = .ok files) (gone : List String) :
    (p.without gone).files options = .ok (files.filter fun path => path ∉ gone) := by
  obtain ⟨s, walked, hs, hwalk, rfl⟩ := files_eq_ok_iff.mp hfiles
  refine files_eq_ok_iff.mpr ⟨s, _, hs, congrArg (Except.map _) hwalk, ?_⟩
  rw [Search.chosen_filter, List.filter_map]
  rfl

/-- Once the files are known a scan succeeds, and it finds what is in the classes of its files. -/
theorem exists_scan (h : options.parallel = true → schedules.Complete)
    (hfiles : p.files options = .ok files) :
    ∃ results, p.scan options schedules = .ok results ∧ results.Blames p.reader files ∧
      results.findings = .ofClasses options.ignoreKinds (files.flatMap p.reader.records) := by
  refine ⟨.ofExtraction options schedules.trees p.root files.length
    (.ofOutcomes (files.map fun path => (path, p.reader.extractFile path))), ?_, ?_, ?_⟩
  · rw [scan, hfiles, ← SourceReader.extractAll_eq fun hp => (h hp).1]
    rfl
  · exact ScanResults.blames_ofExtraction _ _ _ _ _ _
  · rw [ScanResults.findings_ofExtraction fun hp => (h hp).2, Extraction.classes_ofOutcomes]

end Project

/-- Sources that have no classes can be deleted: what is left has the same classes. -/
theorem FileTree.exists_sources_delete {t : FileTree} {options : ScanOptions} {root : String}
    {place : List String} {files gone : List String} (hproper : t.Proper)
    (hplace : t.locate root = .ok place) (hdir : t.isDirectory place = true)
    (hfiles : t.sources root options = .ok files)
    (hgone : ∀ path ∈ gone, path ∈ files ∧ t.reader.records path = []) :
    ∃ left, (t.delete gone).sources root options = .ok left ∧
      left.flatMap (t.delete gone).reader.records = files.flatMap t.reader.records := by
  have hlacks := lacks_sources hproper hplace hdir hfiles fun path hpath => (hgone path hpath).1
  obtain ⟨s, walked, hs, hwalk, rfl⟩ := sources_eq_ok_iff.mp hfiles
  have hkept : t.leadTo gone place = false := by
    rw [Bool.eq_false_iff]
    intro hplaced
    rw [hlacks.not_directory place hplaced] at hdir
    cases hdir
  obtain ⟨walked', hwalk', hperm⟩ := hlacks.walk hplace hkept hwalk
  refine ⟨_, sources_eq_ok_iff.mpr ⟨s, walked', hs, hwalk', rfl⟩, ?_⟩
  rw [s.chosen_perm hperm, Search.chosen_filter, List.flatMap_map, List.flatMap_map]
  trans ((s.chosen walked).filter fun names => !t.leadTo gone (place ++ names)).flatMap
    fun names => t.reader.records (Path.descend root names)
  · -- What is left reads as before.
    refine List.flatMap_congr fun names hnames => SourceReader.records_congr rfl ?_
    rw [List.mem_filter, Search.mem_chosen, Bool.not_eq_true'] at hnames
    refine hlacks.read_toOption fun there hres => ?_
    rw [resolve_source hproper hwalk hplace hnames.1.1 hres]
    exact hnames.2
  · -- What is missing had no classes.
    refine flatMap_filter_of_nil fun names hnames hmissing => ?_
    rw [Bool.not_eq_false', leadTo_eq_true_iff] at hmissing
    obtain ⟨path, hpath, hres⟩ := hmissing
    obtain ⟨hsource, hnone⟩ := hgone path hpath
    obtain ⟨names', hnames', rfl⟩ := List.mem_map.mp hsource
    have hsame := resolve_source hproper hwalk hplace (Search.mem_chosen.mp hnames').1 hres
    rw [List.append_cancel_left hsame]
    exact hnone

/-- **Broken files.** Every scan whose files are known succeeds, whichever of them can be read and
whichever have faults. It blames just the files that fail, and finds what is in the classes of the
others, taken in file order. Any of the files that fail or that mention no class can be left out of
the project, or be deleted from the directory that is scanned: the findings stay. -/
theorem scan_without_broken (options : ScanOptions) (schedules schedules' : Schedules)
    (h : options.parallel = true → schedules.Complete)
    (h' : options.parallel = true → schedules'.Complete) :
    (∀ (p : Project) (files : List String), p.files options = .ok files →
      ∃ results, p.scan options schedules = .ok results ∧
        results.Blames p.reader files ∧
        (p.reader.extractAll options.parallel schedules.files files).classes =
          files.flatMap p.reader.records ∧
        results.findings = .ofClasses options.ignoreKinds (files.flatMap p.reader.records) ∧
        ∀ gone : List String,
          (∀ path ∈ gone, p.reader.Fails path ∨ p.reader.Classless path) →
          ∃ results', (p.without gone).scan options schedules' = .ok results' ∧
            results'.findings = results.findings) ∧
    ∀ (t : FileTree) (root : String) (place : List String) (files : List String),
      t.Distinct → t.Proper → t.locate root = .ok place → t.isDirectory place = true →
      t.sources root options = .ok files →
      ∃ results, t.scan (.sources root) options schedules = .ok results ∧
        (results.failures.map FailedFile.path).Nodup ∧
        ∀ gone : List String,
          (∀ path ∈ gone, path ∈ files ∧ (t.reader.Fails path ∨ t.reader.Classless path)) →
          ∃ results', (t.delete gone).scan (.sources root) options schedules' = .ok results' ∧
            results'.findings = results.findings := by
  constructor
  · intro p files hfiles
    obtain ⟨results, hscan, hblames, hfindings⟩ := Project.exists_scan h hfiles
    refine ⟨results, hscan, hblames, ?_, hfindings, fun gone hgone => ?_⟩
    · rw [SourceReader.extractAll_eq fun hp => (h hp).1, Extraction.classes_ofOutcomes]
    · obtain ⟨results', hscan', -, hfindings'⟩ :=
        Project.exists_scan h' (Project.files_without hfiles gone)
      refine ⟨results', hscan', ?_⟩
      rw [hfindings', hfindings]
      refine congrArg _ (FileTree.flatMap_filter_of_nil fun path _ hmissing => ?_)
      exact SourceReader.records_of_spare (hgone path (by simpa using hmissing))
  · intro t root place files hdistinct hproper hplace hdir hfiles
    obtain ⟨results, hscan, hblames, hfindings⟩ := Project.exists_scan h hfiles
    refine ⟨results, hscan, ?_, fun gone hgone => ?_⟩
    · rw [hblames.paths]
      exact (FileTree.nodup_sources hdistinct hproper hfiles).filter _
    · have hnone : ∀ path ∈ gone, path ∈ files ∧ t.reader.records path = [] := fun path hpath =>
        ⟨(hgone path hpath).1, SourceReader.records_of_spare (hgone path hpath).2⟩
      obtain ⟨left, hleft, hrecords⟩ :=
        FileTree.exists_sources_delete hproper hplace hdir hfiles hnone
      obtain ⟨results', hscan', -, hfindings'⟩ := Project.exists_scan h' hleft
      refine ⟨results', hscan', ?_⟩
      rw [hfindings', hfindings]
      exact congrArg _ hrecords

/-- Four files: one with a class, one that cannot be read, one with a fault and one that mentions no
class. -/
def fourFiles : Project where
  root := "."
  walked := .ok [["d.php"], ["c.php"], ["b.php"], ["a.php"]]
  reader :=
    { read := fun path =>
        if path = "./b.php" then .error .notFound
        else if path = "./d.php" then .ok (Text.Utf8.encode "<?php")
        else .ok (Text.Utf8.encode "<?php class A \x7b\x7d")
      extract := fun path _ =>
        if path = "./c.php" then .error (.unparsable path "syntax error near line 1")
        else .ok [{ name := "A" }] }

/-- A class, and next to it a file without one. -/
def twoFiles : FileTree where
  items :=
    [(["b.php"], .file (Text.Utf8.encode "<?php")),
      (["a.php"], .file (Text.Utf8.encode "<?php class A \x7b\x7d"))]

theorem fourFiles_files :
    fourFiles.files {} = .ok ["./a.php", "./b.php", "./c.php", "./d.php"] := by
  let s : Search := { root := ".", extensions := ["php"], ignore := [] }
  refine Project.files_eq_ok_iff.mpr ⟨s, _, rfl, rfl, ?_⟩
  have hwants : [["d.php"], ["c.php"], ["b.php"], ["a.php"]].filter s.wants =
      [["d.php"], ["c.php"], ["b.php"], ["a.php"]] := by decide +kernel
  have hchosen : s.chosen [["d.php"], ["c.php"], ["b.php"], ["a.php"]] =
      [["a.php"], ["b.php"], ["c.php"], ["d.php"]] := by
    rw [Search.chosen, hwants]
    exact Search.mergeSort_eq_of_perm (by decide) (by decide)
  rw [hchosen]
  decide +kernel

theorem twoFiles_sources : twoFiles.sources "." {} = .ok ["./a.php", "./b.php"] := by
  let s : Search := { root := ".", extensions := ["php"], ignore := [] }
  have hwalk : twoFiles.walk "." = .ok [["b.php"], ["a.php"]] := by decide +kernel
  refine FileTree.sources_eq_ok_iff.mpr ⟨s, _, rfl, hwalk, ?_⟩
  have hwants : [["b.php"], ["a.php"]].filter s.wants = [["b.php"], ["a.php"]] := by decide +kernel
  have hchosen : s.chosen [["b.php"], ["a.php"]] = [["a.php"], ["b.php"]] := by
    rw [Search.chosen, hwants]
    exact Search.mergeSort_eq_of_perm (by decide) (by decide)
  rw [hchosen]
  decide +kernel

theorem twoFiles_locate : twoFiles.locate "." = .ok [] := by decide +kernel

theorem twoFiles_read : twoFiles.read "./b.php" = .ok (Text.Utf8.encode "<?php") := by decide +kernel

theorem fourFiles_without_broken :
    (∃ results, fourFiles.scan {} {} = .ok results ∧
      results.failures.map FailedFile.path = ["./b.php", "./c.php"] ∧
      ∃ results', (fourFiles.without ["./b.php", "./c.php", "./d.php"]).scan {} {} = .ok results' ∧
        results'.findings = results.findings) ∧
    ∃ results results', twoFiles.scan (.sources ".") {} {} = .ok results ∧
      (twoFiles.delete ["./b.php"]).scan (.sources ".") {} {} = .ok results' ∧
      results'.findings = results.findings := by
  have h := scan_without_broken {} {} {} (fun _ => Schedules.complete_inOrder)
    (fun _ => Schedules.complete_inOrder)
  refine ⟨?_, ?_⟩
  · obtain ⟨results, hscan, hblames, -, -, hwithout⟩ := h.1 fourFiles _ fourFiles_files
    refine ⟨results, hscan, ?_, ?_⟩
    · rw [hblames.paths]
      decide +kernel
    · refine hwithout _ ?_
      decide +kernel
  · obtain ⟨results, hscan, -, hdelete⟩ :=
      h.2 twoFiles "." [] _ (by decide) (by decide) twoFiles_locate rfl twoFiles_sources
    have hspare : ∀ path ∈ ["./b.php"], path ∈ ["./a.php", "./b.php"] ∧
        (twoFiles.reader.Fails path ∨ twoFiles.reader.Classless path) := by
      intro path hpath
      rw [List.mem_singleton] at hpath
      subst hpath
      exact ⟨by decide, .inr ⟨_, twoFiles_read, by decide +kernel⟩⟩
    obtain ⟨results', hscan', hfindings⟩ := hdelete ["./b.php"] hspare
    exact ⟨results, results', hscan, hscan', hfindings⟩

end Lineage
