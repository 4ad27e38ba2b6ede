import Lineage.Command.Scan
import Lineage.Proofs.Discovery

/-!
# Accepted settings can be used

Settings are checked when their file is read, and used later by rules that are not those of the
check. The check knows three names of formats, and looks at every ignore pattern by itself. The scan
reads the name of a format in any case and knows a short name more, and reads the patterns of the
settings and of the command line as one list.

**Check.** `parse_eq_ok`: accepted settings name a format by one of the three names, and all their
patterns are globs.

**Use.** A scan reports a fault of a pattern exactly if it scans sources by a list of patterns with
one in it, whatever the files are, and it reports the first one (`FileTree.scan_eq_error_iff`).
Patterns that were accepted stand in front of those of the command line and have no fault, so the
first one is the command line's.

`accepted_usable` puts check and use together.
-/
namespace Lineage

/-! ## Faults of patterns -/

/-- The failure is a fault of a glob. -/
def Failure.IsGlob (e : Failure) : Prop := ∃ position problem, e = .glob position problem

namespace Glob

theorem map_eq_error_iff {f : α → β} {result : Except ε α} {e : ε} :
    result.map f = .error e ↔ result = .error e := by
  cases result <;> simp [Except.map]

theorem isGlob_of_steps? {position : Nat} {before : Option Char} {s : List Char} {e : Failure}
    (h : steps? position before s = .error e) : e.IsGlob := by
  fun_induction steps? position before s
  case case1 | case4 => cases h
  case case2 ih | case5 ih | case8 ih | case9 ih | case11 ih => exact ih (map_eq_error_iff.mp h)
  case case3 | case6 | case7 | case10 =>
    cases h
    exact ⟨_, _, rfl⟩

theorem isGlob_of_parse {text : String} {e : Failure} (h : parse text = .error e) : e.IsGlob :=
  isGlob_of_steps? (map_eq_error_iff.mp h)

end Glob

/-! ## The check -/

namespace Settings

theorem checkFormat_eq_ok_iff {s : Settings} :
    s.checkFormat = .ok () ↔ ∀ name, s.output.defaultFormat = some name → name ∈ formatNames := by
  unfold checkFormat
  cases s.output.defaultFormat with
  | none => simp
  | some name => by_cases h : name ∈ formatNames <;> simp [h]

theorem checkIgnore_eq_ok_iff {s : Settings} :
    s.checkIgnore = .ok () ↔ ∀ pattern ∈ s.scan.ignore, ∃ glob, Glob.parse pattern = .ok glob := by
  unfold checkIgnore
  induction s.scan.ignore with
  | nil => simp [pure, Except.pure]
  | cons pattern rest ih =>
    rw [List.forall_mem_cons, ← ih, List.forM]
    cases Glob.parse pattern <;> simp [Except.map, bind, Except.bind]

/-- What is known of settings that were accepted. -/
theorem parse_eq_ok {text : String} {s : Settings} (h : parse text = .ok s) :
    (∀ name, s.output.defaultFormat = some name → name ∈ formatNames) ∧
      ∀ pattern ∈ s.scan.ignore, ∃ glob, Glob.parse pattern = .ok glob := by
  unfold parse at h
  cases hread : (Toml.read? text).bind ofToml? with
  | none => simp [hread] at h
  | some raw =>
    simp only [hread] at h
    cases hformat : raw.checkFormat with
    | error e => simp [hformat, bind, Except.bind] at h
    | ok u =>
      cases hignore : raw.checkIgnore with
      | error e => simp [hformat, hignore, bind, Except.bind] at h
      | ok v =>
        simp only [hformat, hignore, bind, Except.bind, pure, Except.pure, Except.ok.injEq] at h
        rw [← h]
        exact ⟨checkFormat_eq_ok_iff.mp hformat, checkIgnore_eq_ok_iff.mp hignore⟩

end Settings

/-! ## The use -/

/-- The names of the check are names of the formats that the command line has under them. -/
theorem OutputFormat.parse_of_mem {name : String} (h : name ∈ Settings.formatNames) :
    ∃ f, Command.formatOf? name = some f ∧ OutputFormat.parse name = .ok f := by
  have hall : ∀ name ∈ Settings.formatNames, ∃ f ∈ [OutputFormat.terminal, .markdown, .json],
      Command.formatOf? name = some f ∧ OutputFormat.parse name = .ok f := by
    decide +kernel
  obtain ⟨f, -, hf⟩ := hall name h
  exact ⟨f, hf⟩

theorem Project.files_eq_error_iff {p : Project} {options : ScanOptions} {e : Failure}
    (he : e.IsGlob) :
    p.files options = .error e ↔ Search.FirstError Glob.parse options.ignore e := by
  rw [← Search.ofPatterns_eq_error_iff p.root options.extensions]
  unfold Project.files
  cases Search.ofPatterns p.root options.extensions options.ignore with
  | error e' => simp [bind, Except.bind]
  | ok s =>
    -- The walk may still fail, but not with a fault of a pattern.
    obtain ⟨position, problem, rfl⟩ := he
    cases p.walked <;> simp [bind, Except.bind, Search.discover]

theorem Project.scan_eq_error_iff {p : Project} {options : ScanOptions} {schedules : Schedules}
    {e : Failure} : p.scan options schedules = .error e ↔ p.files options = .error e := by
  unfold Project.scan
  cases p.files options <;> simp [bind, Except.bind, pure, Except.pure]

/-- Records are loaded without a look at the patterns. -/
theorem FileTree.loadRecords_ne_glob (t : FileTree) (path : String) {e : Failure} (he : e.IsGlob) :
    t.loadRecords path ≠ .error e := by
  obtain ⟨position, problem, rfl⟩ := he
  unfold loadRecords
  cases t.readText path with
  | error fault => simp
  | ok text =>
    simp only
    cases ClassDecl.listOfText? text <;> simp

/-- A scan reports a fault of a pattern if it scans sources, and then the first one. -/
theorem FileTree.scan_eq_error_iff {t : FileTree} {input : ScanInput} {options : ScanOptions}
    {schedules : Schedules} {e : Failure} (he : e.IsGlob) :
    t.scan input options schedules = .error e ↔
      (∃ root, input = .sources root) ∧ Search.FirstError Glob.parse options.ignore e := by
  cases input with
  | sources root =>
    rw [FileTree.scan, Project.scan_eq_error_iff, Project.files_eq_error_iff he]
    simp
  | records path =>
    have hload := t.loadRecords_ne_glob path he
    simp only [FileTree.scan]
    cases hrecords : t.loadRecords path with
    | error e' =>
      rw [hrecords] at hload
      simpa [bind, Except.bind] using hload
    | ok classes => simp [bind, Except.bind, pure, Except.pure]

theorem Command.ScanArguments.input_eq_sources_iff (c : Command.ScanArguments) :
    (∃ root, c.input = .sources root) ↔ c.inputJson = false := by
  unfold input
  cases c.inputJson <;> simp

/-! ## Check and use -/

namespace Settings

open Command (ScanArguments)

/-- The scan that `c` asks for can use the settings `s`, whatever the files `t` are. -/
structure Usable (s : Settings) (c : ScanArguments) (t : FileTree) (schedules : Schedules) :
    Prop where
  /-- There is a format. Unless the command line says otherwise it is the one that the settings
  name. -/
  format : ∃ f, c.resolveFormat s = .ok f ∧ (c.format = none →
    ∀ name, s.output.defaultFormat = some name → Command.formatOf? name = some f)
  /-- The patterns of the scan are those of the settings, and behind them those of the command
  line. -/
  patterns : (c.options s).ignore = s.scan.ignore ++ c.ignore.getD []
  /-- No pattern of the settings has a fault. -/
  ignore : ∀ pattern ∈ s.scan.ignore, ∃ glob, Glob.parse pattern = .ok glob
  /-- The scan fails for a pattern exactly if it scans sources and the command line has a pattern
  with a fault. -/
  fault_iff : (∃ e, e.IsGlob ∧ t.scan c.input (c.options s) schedules = .error e) ↔
    c.inputJson = false ∧ ∃ pattern ∈ c.ignore.getD [], ∃ e, Glob.parse pattern = .error e
  /-- It then reports the first of them. -/
  fault_first : ∀ e, e.IsGlob → (t.scan c.input (c.options s) schedules = .error e ↔
    c.inputJson = false ∧ Search.FirstError Glob.parse (c.ignore.getD []) e)

theorem exists_format {s : Settings} (c : ScanArguments)
    (h : ∀ name, s.output.defaultFormat = some name → name ∈ formatNames) :
    ∃ f, c.resolveFormat s = .ok f ∧ (c.format = none →
      ∀ name, s.output.defaultFormat = some name → Command.formatOf? name = some f) := by
  unfold ScanArguments.resolveFormat
  cases c.format with
  | some f => exact ⟨f, rfl, by simp⟩
  | none =>
    cases hname : s.output.defaultFormat with
    | none => exact ⟨.terminal, rfl, by simp⟩
    | some name =>
      obtain ⟨f, hof, hparse⟩ := OutputFormat.parse_of_mem (h name hname)
      refine ⟨f, by simp [hparse, Except.mapError], fun _ name' hname' => ?_⟩
      cases hname'
      exact hof

/-- The patterns of the settings stand in front and have no fault, so the fault that a scan reports
is one of the command line. -/
theorem scan_fault_iff {s : Settings}
    (h : ∀ pattern ∈ s.scan.ignore, ∃ glob, Glob.parse pattern = .ok glob) (c : ScanArguments)
    (t : FileTree) (schedules : Schedules) {e : Failure} (he : e.IsGlob) :
    t.scan c.input (c.options s) schedules = .error e ↔
      c.inputJson = false ∧ Search.FirstError Glob.parse (c.ignore.getD []) e := by
  rw [FileTree.scan_eq_error_iff he, c.input_eq_sources_iff]
  exact and_congr_right fun _ => Search.firstError_append_iff h

/-- **Accepted settings can be used** in every scan. They give a format, and a scan fails for a
pattern only if it scans sources and the command line itself has one with a fault. -/
theorem accepted_usable (text : String) (s : Settings) (h : parse text = .ok s) (c : ScanArguments)
    (t : FileTree) (schedules : Schedules) : Usable s c t schedules := by
  obtain ⟨hformat, hignore⟩ := parse_eq_ok h
  refine ⟨exists_format c hformat, rfl, hignore, ?_,
    fun e => scan_fault_iff hignore c t schedules⟩
  rw [← Search.exists_firstError_iff, ← exists_and_left]
  refine exists_congr fun e => ?_
  constructor
  · rintro ⟨he, hscan⟩
    exact (scan_fault_iff hignore c t schedules he).mp hscan
  · rintro ⟨hsources, hfirst⟩
    have he : e.IsGlob := by
      obtain ⟨-, pattern, -, -, -, hparse⟩ := hfirst
      exact Glob.isGlob_of_parse hparse
    exact ⟨he, (scan_fault_iff hignore c t schedules he).mpr ⟨hsources, hfirst⟩⟩

/-- A settings file with a pattern and a format. -/
def vendorText : String :=
  "[scan]\nignore = [\"vendor/**\"]\n[output]\ndefault_format = \"markdown\"\n"

def vendorSettings : Settings where
  scan := { ignore := ["vendor/**"] }
  output := { defaultFormat := some "markdown" }

/-- A scan of a directory that is not there, by patterns of which two have a fault. -/
def faultyScan : ScanArguments where
  path := "src"
  ignore := some ["*.tmp", "a**", "["]

theorem faultyScan_usable :
    parse vendorText = .ok vendorSettings ∧ Usable vendorSettings faultyScan {} {} ∧
      FileTree.scan {} faultyScan.input (faultyScan.options vendorSettings) {} =
        .error (.glob 0 .component) := by
  have hparse : parse vendorText = .ok vendorSettings := by decide +kernel
  have husable := accepted_usable vendorText vendorSettings hparse faultyScan {} {}
  have hsound : Glob.parse "*.tmp" =
      .ok ⟨[.anyText, .char '.', .char 't', .char 'm', .char 'p']⟩ := by
    decide +kernel
  have hfirst : Search.FirstError Glob.parse ["*.tmp", "a**", "["] (.glob 0 .component) :=
    ⟨["*.tmp"], "a**", ["["], rfl, by simp [hsound], by decide +kernel⟩
  exact ⟨hparse, husable, (husable.fault_first _ ⟨0, .component, rfl⟩).mpr ⟨rfl, hfirst⟩⟩

end Settings

end Lineage
