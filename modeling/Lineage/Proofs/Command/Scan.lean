import Lineage.Command.Scan
import Lineage.Proofs.FileTree

/-!
# What a scan leaves behind

The steps of a command are not taken back when a later one fails. So a command that fails without a
trace has to do all that can fail before it first changes a file.

**Failure.** A routine keeps the files if it never changes them, and is atomic if it does not change
them when it fails. Steps that keep the files may stand before an atomic routine
(`Keeps.andThen_atomic`), and steps that cannot fail behind it (`Atomic.andThen_succeeds`).

**Success.** `Ends a t x t'` says that `a` succeeds on the files `t` with `x` and leaves `t'`. There
is one equivalence for each kind of step.

**The scan.** Looking for settings, choosing the format, scanning and wiping the progress off keep the
files. Then the report's file is created, which empties a file that was there, and filling it cannot
fail. `run_atomic` says what follows for the whole command.
-/
namespace Lineage

namespace Routine
variable {a : Routine α} {f : α → Routine β} {t : FileTree}

theorem andThen_of_error {e : CommandFailure} (h : (a t).result = .error e) :
    ((a >>= f) t).result = .error e ∧ ((a >>= f) t).files = (a t).files := by
  simp only [bind, andThen, h, and_self]

theorem andThen_of_ok {x : α} (h : (a t).result = .ok x) :
    ((a >>= f) t).result = (f x (a t).files).result ∧
      ((a >>= f) t).files = (f x (a t).files).files := by
  simp only [bind, andThen, h, and_self]

/-! ## Failure -/

/-- Never changes a file. -/
def Keeps (a : Routine α) : Prop := ∀ t, (a t).files = t

/-- Changes no file if it fails. -/
def Atomic (a : Routine α) : Prop := ∀ t e, (a t).result = .error e → (a t).files = t

/-- Cannot fail. -/
def Succeeds (a : Routine α) : Prop := ∀ t, ∃ x, (a t).result = .ok x

theorem Keeps.atomic (ha : Keeps a) : Atomic a := fun t _ _ => ha t

theorem Keeps.andThen_atomic (ha : Keeps a) (hf : ∀ x, Atomic (f x)) : Atomic (a >>= f) := by
  intro t e herror
  cases h : (a t).result with
  | error e' => exact (andThen_of_error h).2.trans (ha t)
  | ok x =>
    obtain ⟨hresult, hfiles⟩ := andThen_of_ok (f := f) h
    rw [hresult] at herror
    rw [hfiles, hf x _ e herror, ha t]

theorem Atomic.andThen_succeeds (ha : Atomic a) (hf : ∀ x, Succeeds (f x)) : Atomic (a >>= f) := by
  intro t e herror
  cases h : (a t).result with
  | error e' => exact (andThen_of_error h).2.trans (ha t e' h)
  | ok x =>
    obtain ⟨y, hy⟩ := hf x (a t).files
    rw [(andThen_of_ok h).1, hy] at herror
    cases herror

theorem succeeds_pure (x : α) : Succeeds (pure x : Routine α) := fun _ => ⟨x, rfl⟩

theorem keeps_look (ask : FileTree → Except CommandFailure α) : Keeps (look ask) := fun _ => rfl

theorem keeps_print (text : String) : Keeps (print text) := fun _ => rfl

theorem atomic_create (path : String) (failure : FileFault → CommandFailure) :
    Atomic (create path failure) := by
  intro t e herror
  unfold create at herror ⊢
  cases h : t.create path with
  | error fault => rfl
  | ok made => simp [h] at herror

theorem succeeds_append (place : List String) (bytes : List UInt8) :
    Succeeds (append place bytes) := fun _ => ⟨(), rfl⟩

/-! ## Success -/

/-- On the files `t`, the routine succeeds with `x` and leaves the files `t'`. -/
def Ends (a : Routine α) (t : FileTree) (x : α) (t' : FileTree) : Prop :=
  (a t).result = .ok x ∧ (a t).files = t'

theorem ends_andThen_iff {y : β} {t'' : FileTree} :
    Ends (a >>= f) t y t'' ↔ ∃ x t', Ends a t x t' ∧ Ends (f x) t' y t'' := by
  unfold Ends
  cases h : (a t).result with
  | error e => simp [(andThen_of_error h).1]
  | ok x => simp [andThen_of_ok h]

theorem ends_pure_iff {x y : α} {t' : FileTree} :
    Ends (pure x : Routine α) t y t' ↔ x = y ∧ t = t' := by
  rw [← Except.ok.injEq (ε := CommandFailure)]
  rfl

theorem ends_look_iff {ask : FileTree → Except CommandFailure α} {x : α} {t' : FileTree} :
    Ends (look ask) t x t' ↔ ask t = .ok x ∧ t = t' :=
  Iff.rfl

theorem ends_create_iff {path : String} {failure : FileFault → CommandFailure}
    {place : List String} {t' : FileTree} :
    Ends (create path failure) t place t' ↔ t.create path = .ok (place, t') := by
  unfold Ends create
  cases t.create path with
  | error fault => simp
  | ok made =>
    obtain ⟨place', made⟩ := made
    simp

theorem ends_append_iff {place : List String} {bytes : List UInt8} {t' : FileTree} :
    Ends (append place bytes) t () t' ↔ t.append place bytes = t' :=
  ⟨fun h => h.2, fun h => ⟨rfl, h⟩⟩

end Routine

namespace Command.ScanArguments
open Routine

theorem atomic_deliver (c : ScanArguments) (text : String) : Atomic (c.deliver text) := by
  unfold deliver
  cases c.output with
  | none => exact (keeps_print text).atomic
  | some path => exact (atomic_create path _).andThen_succeeds fun place => succeeds_append place _

/-- All that can fail is done before a file changes. -/
theorem atomic_steps (c : ScanArguments) (terminal : Bool) (schedules : Schedules)
    (wiped : Except FileFault Unit) : Atomic (c.steps terminal schedules wiped) := by
  refine (keeps_look _).andThen_atomic fun s => ?_
  refine (keeps_look _).andThen_atomic fun format => ?_
  refine (keeps_look _).andThen_atomic fun results => ?_
  refine (keeps_look _).andThen_atomic fun _ => ?_
  exact (c.atomic_deliver _).andThen_succeeds fun _ => succeeds_pure _

theorem mapError_eq_ok_iff {result : Except ε α} {f : ε → CommandFailure} {a : α} :
    result.mapError f = .ok a ↔ result = .ok a := by
  cases result <;> simp [Except.mapError]

/-- Delivery to a file succeeds if the file can be created. The report is then all that it holds. -/
theorem ends_deliver_iff {c : ScanArguments} {path : String} (houtput : c.output = some path)
    {text : String} {t t' : FileTree} :
    Ends (c.deliver text) t () t' ↔
      ∃ place, t.resolve path = .ok place ∧ t.createFault? place = none ∧
        t.put place (.file (Text.Utf8.encode text)) = t' := by
  simp only [deliver, houtput, ends_andThen_iff, ends_create_iff, ends_append_iff]
  constructor
  · rintro ⟨place, made, hmade, rfl⟩
    obtain ⟨hres, hfree, -⟩ := FileTree.create_eq_ok_iff.mp hmade
    exact ⟨place, hres, hfree, (FileTree.append_create hmade _).symm⟩
  · rintro ⟨place, hres, hfree, rfl⟩
    have hmade := FileTree.create_eq_ok_iff.mpr ⟨hres, hfree, rfl⟩
    exact ⟨place, _, hmade, FileTree.append_create hmade _⟩

/-- The command succeeds if each of its steps does. -/
theorem ends_steps_iff {c : ScanArguments} {t t' : FileTree} {terminal : Bool}
    {schedules : Schedules} {wiped : Except FileFault Unit} {outcome : ScanOutcome} :
    Ends (c.steps terminal schedules wiped) t outcome t' ↔
      ∃ s format results, c.settings t = .ok s ∧ c.resolveFormat s = .ok format ∧
        t.scan c.input (c.options s) schedules = .ok results ∧ wiped = .ok () ∧
        Ends (c.deliver (results.render format (c.usesColor s terminal))) t () t' ∧
        c.outcome s results = outcome := by
  simp only [steps, ends_andThen_iff, ends_look_iff, ends_pure_iff,
    CommandFailure.attempting, mapError_eq_ok_iff]
  constructor
  · rintro ⟨s, _, ⟨hs, rfl⟩, format, _, ⟨hformat, rfl⟩, results, _, ⟨hscan, rfl⟩, _, _,
      ⟨hwiped, rfl⟩, _, _, hdeliver, houtcome, rfl⟩
    exact ⟨s, format, results, hs, hformat, hscan, hwiped, hdeliver, houtcome⟩
  · rintro ⟨s, format, results, hs, hformat, hscan, hwiped, hdeliver, houtcome⟩
    exact ⟨s, t, ⟨hs, rfl⟩, format, t, ⟨hformat, rfl⟩, results, t, ⟨hscan, rfl⟩, (), t,
      ⟨hwiped, rfl⟩, (), t', hdeliver, houtcome, rfl⟩

/-- **Atomicity.** A scan whose report goes to a file changes no file if it fails, whatever it fails
at. If it succeeds, the file holds the results in the format that was settled on, and no other file
has changed. It succeeds exactly if settings, format and results are to be had, the progress is wiped
off, and the path of the report leads to a file that is not locked or to nothing at all. -/
theorem run_atomic (c : ScanArguments) (t : FileTree) (terminal : Bool) (schedules : Schedules)
    (wiped : Except FileFault Unit) (path : String) (houtput : c.output = some path) :
    (∀ e, (c.run t terminal schedules wiped).result = .error e →
        (c.run t terminal schedules wiped).files = t) ∧
      (∀ outcome, (c.run t terminal schedules wiped).result = .ok outcome →
        ∃ s format results place, c.settings t = .ok s ∧ c.resolveFormat s = .ok format ∧
          t.scan c.input (c.options s) schedules = .ok results ∧ c.outcome s results = outcome ∧
          t.resolve path = .ok place ∧
          (c.run t terminal schedules wiped).files.read path =
            .ok (Text.Utf8.encode (results.render format (c.usesColor s terminal))) ∧
          ∀ other, other ≠ place →
            (c.run t terminal schedules wiped).files.item? other = t.item? other) ∧
      ((∃ outcome, (c.run t terminal schedules wiped).result = .ok outcome) ↔
        ∃ s format results place, c.settings t = .ok s ∧ c.resolveFormat s = .ok format ∧
          t.scan c.input (c.options s) schedules = .ok results ∧ wiped = .ok () ∧
          t.resolve path = .ok place ∧
          (t.item? place = none ∨ ∃ content, t.item? place = some (.file content))) := by
  refine ⟨fun e herror => c.atomic_steps terminal schedules wiped t e herror, ?_, ?_, ?_⟩
  · intro outcome hok
    obtain ⟨s, format, results, hs, hformat, hscan, -, hdeliver, houtcome⟩ :=
      ends_steps_iff.mp ⟨hok, rfl⟩
    obtain ⟨place, hres, hfree, hfiles⟩ := (ends_deliver_iff houtput).mp hdeliver
    have hdir := FileTree.isDirectory_of_createFault? hfree
    refine ⟨s, format, results, place, hs, hformat, hscan, houtcome, hres, ?_, ?_⟩
    · rw [run, ← hfiles]
      exact FileTree.read_put hres hdir _
    · intro other hother
      rw [run, ← hfiles, FileTree.item?_put (FileTree.ne_nil_of_not_isDirectory hdir),
        if_neg hother]
  · rintro ⟨outcome, hok⟩
    obtain ⟨s, format, results, hs, hformat, hscan, hwiped, hdeliver, -⟩ :=
      ends_steps_iff.mp ⟨hok, rfl⟩
    obtain ⟨place, hres, hfree, -⟩ := (ends_deliver_iff houtput).mp hdeliver
    exact ⟨s, format, results, place, hs, hformat, hscan, hwiped, hres,
      FileTree.createFault?_eq_none_iff.mp hfree⟩
  · rintro ⟨s, format, results, place, hs, hformat, hscan, hwiped, hres, hfree⟩
    have hends : Ends (c.steps terminal schedules wiped) t (c.outcome s results)
        (t.put place (.file (Text.Utf8.encode
          (results.render format (c.usesColor s terminal))))) :=
      ends_steps_iff.mpr ⟨s, format, results, hs, hformat, hscan, hwiped,
        (ends_deliver_iff houtput).mpr
          ⟨place, hres, FileTree.createFault?_eq_none_iff.mpr hfree, rfl⟩, rfl⟩
    exact ⟨_, hends.1⟩

/-- Records of no class, next to a report of an earlier scan. -/
def oldReport : FileTree where
  items :=
    [(["classes.json"], .file (Text.Utf8.encode "[]")),
      (["report.out"], .file (Text.Utf8.encode "old"))]

/-- A scan of the records at `path`. -/
def scanOf (path : String) : ScanArguments where
  path := path
  format := some .json
  output := some "report.out"
  inputJson := true

theorem oldReport_resolve :
    oldReport.resolve "classes.json" = .ok ["classes.json"] ∧
      oldReport.resolve "missing.json" = .ok ["missing.json"] ∧
      oldReport.resolve "report.out" = .ok ["report.out"] := by
  refine ⟨?_, ?_, ?_⟩ <;>
    rw [FileTree.resolve_relative (by decide) (by decide) (by decide) (by decide)] <;> rfl

theorem oldReport_scan (options : ScanOptions) :
    (∃ results, oldReport.scan (.records "classes.json") options {} = .ok results) ∧
      ∀ results, oldReport.scan (.records "missing.json") options {} ≠ .ok results := by
  obtain ⟨hthere, hmissing, -⟩ := oldReport_resolve
  have hread : oldReport.loadRecords "classes.json" = .ok [] := by
    have htext : oldReport.readText "classes.json" = .ok "[]" :=
      FileTree.readText_of_read (FileTree.read_eq_ok_iff.mpr ⟨_, hthere, rfl⟩)
    have hlist : ClassDecl.listOfText? "[]" = some [] := by decide +kernel
    simp only [FileTree.loadRecords, htext, hlist]
  have hnone : oldReport.item? ["missing.json"] = none := by decide
  constructor
  · simp only [FileTree.scan, hread]
    exact ⟨_, rfl⟩
  · simp [FileTree.scan, FileTree.loadRecords, FileTree.readText, FileTree.read, hmissing, hnone,
      bind, Except.bind]

/-- Records that are not there leave the old report as it is, and records that are there replace
it. -/
theorem oldReport_kept_or_replaced :
    (scanOf "missing.json").output = some "report.out" ∧
      (∃ e, ((scanOf "missing.json").run oldReport false {}).result = .error e) ∧
      ((scanOf "missing.json").run oldReport false {}).files = oldReport ∧
      (scanOf "classes.json").output = some "report.out" ∧
      (∃ outcome, ((scanOf "classes.json").run oldReport false {}).result = .ok outcome) ∧
      ∃ results : ScanResults,
        ((scanOf "classes.json").run oldReport false {}).files.read "report.out" =
          .ok (Text.Utf8.encode results.jsonText) := by
  obtain ⟨hkept, hreplaced, -⟩ := run_atomic (scanOf "missing.json") oldReport false {} (.ok ()) _ rfl
  obtain ⟨-, hwritten, hsucceeds⟩ :=
    run_atomic (scanOf "classes.json") oldReport false {} (.ok ()) _ rfl
  have hfails : ∃ e, ((scanOf "missing.json").run oldReport false {}).result = .error e := by
    cases hrun : ((scanOf "missing.json").run oldReport false {}).result with
    | error e => exact ⟨e, rfl⟩
    | ok outcome =>
      obtain ⟨s, -, results, -, -, -, hscan, -⟩ := hreplaced outcome hrun
      exact absurd hscan ((oldReport_scan _).2 results)
  have hworks :
      ∃ outcome, ((scanOf "classes.json").run oldReport false {}).result = .ok outcome := by
    obtain ⟨results, hscan⟩ := (oldReport_scan ((scanOf "classes.json").options
      (Settings.search oldReport "/"))).1
    exact hsucceeds.mpr
      ⟨_, .json, results, _, rfl, rfl, hscan, rfl, oldReport_resolve.2.2, .inr ⟨_, rfl⟩⟩
  obtain ⟨e, he⟩ := hfails
  obtain ⟨outcome, houtcome⟩ := hworks
  obtain ⟨s, format, results, -, -, hformat, -, -, -, hread, -⟩ := hwritten outcome houtcome
  cases hformat
  exact ⟨rfl, ⟨e, he⟩, hkept e he, rfl, ⟨outcome, houtcome⟩, results, hread⟩

end Command.ScanArguments

end Lineage
