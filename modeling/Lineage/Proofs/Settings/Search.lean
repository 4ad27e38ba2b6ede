import Mathlib.Data.List.TakeWhile
import Mathlib.Logic.Function.Iterate
import Lineage.Proofs.FileTree
import Lineage.Settings.File

/-!
# Which settings file a search takes

The search asks each directory whether it has a file that loads, so a file that is there and does not
load counts as one that is not there.

**The nearest file (`nearest`).** One would expect the nearest file to decide alone: its settings if
it loads, and the defaults if it does not. `search_exact` says when the search does so: always, but
for a nearest file that does not load, below one that loads and says something.

`broken_file_passed_over` is such a case.
-/
namespace Lineage.Settings

/-! ## The directories -/

/-- The directories of a search are the start and its parents, as far as the limit goes. -/
theorem getElem?_ancestors (start : String) (limit k : Nat) :
    (Path.ancestors start limit)[k]? =
      if k < limit then (fun dir => dir.bind Path.parent?)^[k] (some start) else none := by
  induction limit generalizing start k with
  | zero => simp [Path.ancestors]
  | succ limit ih =>
    rw [Path.ancestors]
    cases k with
    | zero => simp
    | succ k =>
      rw [List.getElem?_cons_succ, Function.iterate_succ_apply, Option.bind_some]
      simp only [Nat.succ_lt_succ_iff]
      cases hup : Path.parent? start with
      | none =>
        have hnone : ∀ n, (fun dir => dir.bind Path.parent?)^[n] none = none := fun n =>
          Function.iterate_fixed rfl n
        simp [hnone]
      | some up => exact ih up k

/-! ## The nearest file -/

/-- Something stands in `directory` under the name of a settings file. -/
def hasFile (t : FileTree) (directory : String) : Bool :=
  t.contains (Path.join directory fileName)

/-- The directories of a search, from the nearest one that has a file on. -/
def fromNearest (t : FileTree) (start : String) : List String :=
  (Path.ancestors start searchDepth).dropWhile fun dir => !hasFile t dir

/-- The settings by the nearest file alone: its own if it loads, else the defaults. -/
def nearest (t : FileTree) (start : String) : Settings :=
  match fromNearest t start with
  | [] => {}
  | dir :: _ => (inDirectory? t dir).getD {}

theorem inDirectory?_eq_some_iff {t : FileTree} {dir : String} {s : Settings} :
    inDirectory? t dir = some s ↔
      ∃ text, t.readText (Path.join dir fileName) = .ok text ∧ parse text = .ok s := by
  unfold inDirectory? load
  cases t.readText (Path.join dir fileName) with
  | error fault => simp [Except.toOption]
  | ok text => cases hp : parse text <;> simp [Except.toOption, hp]

/-- A directory without a file has no settings. -/
theorem inDirectory?_of_not_hasFile {t : FileTree} {dir : String} (h : hasFile t dir = false) :
    inDirectory? t dir = none := by
  cases hs : inDirectory? t dir with
  | none => rfl
  | some s =>
    obtain ⟨text, hread, -⟩ := inDirectory?_eq_some_iff.mp hs
    rw [hasFile, FileTree.contains_of_readText hread] at h
    cases h

/-- The directories below the nearest file do not matter. -/
theorem search_eq_fromNearest (t : FileTree) (start : String) :
    search t start = ((fromNearest t start).findSome? (inDirectory? t)).getD {} := by
  unfold search fromNearest
  generalize Path.ancestors start searchDepth = dirs
  have hbelow : (dirs.takeWhile fun dir => !hasFile t dir).findSome? (inDirectory? t) = none := by
    refine List.findSome?_eq_none_iff.mpr fun dir hdir => inDirectory?_of_not_hasFile ?_
    simpa using List.mem_takeWhile_imp hdir
  conv => lhs; rw [← List.takeWhile_append_dropWhile (p := fun dir => !hasFile t dir) (l := dirs)]
  rw [List.findSome?_append, hbelow, Option.none_or]

theorem search_eq_nearest_iff (t : FileTree) (start : String) :
    search t start = nearest t start ↔
      ∀ dir farther, fromNearest t start = dir :: farther → inDirectory? t dir = none →
        (farther.findSome? (inDirectory? t)).getD {} = {} := by
  rw [search_eq_fromNearest, nearest]
  cases fromNearest t start with
  | nil => simp
  | cons dir farther =>
    simp only [List.findSome?_cons]
    cases hload : inDirectory? t dir with
    | none =>
      simp only [Option.getD_none]
      refine ⟨fun heq dir' farther' hsplit _ => ?_, fun hyp => hyp dir farther rfl hload⟩
      cases hsplit
      exact heq
    | some s =>
      simp only [Option.getD_some, true_iff]
      intro dir' farther' hsplit hnone
      cases hsplit
      rw [hload] at hnone
      cases hnone

/-! ## The search -/

theorem search_cases (t : FileTree) (start : String) :
    (∃ nearer dir farther, Path.ancestors start searchDepth = nearer ++ dir :: farther ∧
        (∀ d ∈ nearer, inDirectory? t d = none) ∧ inDirectory? t dir = some (search t start)) ∨
      (∀ d ∈ Path.ancestors start searchDepth, inDirectory? t d = none) ∧ search t start = {} := by
  cases hfind : (Path.ancestors start searchDepth).findSome? (inDirectory? t) with
  | none => exact Or.inr ⟨List.findSome?_eq_none_iff.mp hfind, by rw [search, hfind]; rfl⟩
  | some s =>
    obtain ⟨nearer, dir, farther, hsplit, hload, hnearer⟩ := List.findSome?_eq_some_iff.mp hfind
    exact Or.inl ⟨nearer, dir, farther, hsplit, hnearer, by rw [hload, search, hfind]; rfl⟩

/-- **What a search takes.** It looks at the start and its parents, ten directories at most. The
nearest file that loads counts, and the defaults without one. That is what the nearest file alone
decides, unless the nearest file does not load and one farther up says something else than the
defaults. -/
theorem search_exact (t : FileTree) (start : String) :
    (∀ k, (Path.ancestors start searchDepth)[k]? =
        if k < 10 then (fun dir => dir.bind Path.parent?)^[k] (some start) else none) ∧
      ((∃ nearer dir farther, Path.ancestors start searchDepth = nearer ++ dir :: farther ∧
          (∀ d ∈ nearer, inDirectory? t d = none) ∧ inDirectory? t dir = some (search t start)) ∨
        (∀ d ∈ Path.ancestors start searchDepth, inDirectory? t d = none) ∧
          search t start = {}) ∧
      (search t start = nearest t start ↔
        ∀ dir farther, fromNearest t start = dir :: farther → inDirectory? t dir = none →
          (farther.findSome? (inDirectory? t)).getD {} = {}) :=
  ⟨getElem?_ancestors start searchDepth, search_cases t start, search_eq_nearest_iff t start⟩

/-- A file that does not load in `a`, below one that leaves out the paths that match `root`. -/
def brokenBelow : FileTree where
  items :=
    [([".sigmap.toml"], .file (Text.Utf8.encode "[scan]\nignore = [\"root\"]\n")),
      (["a"], .directory), (["a", ".sigmap.toml"], .file (Text.Utf8.encode "[scan\n"))]

theorem readText_brokenBelow :
    brokenBelow.readText (Path.join "a" fileName) = .ok "[scan\n" ∧
      brokenBelow.readText (Path.join "" fileName) = .ok "[scan]\nignore = [\"root\"]\n" := by
  have ha : brokenBelow.resolve "a/.sigmap.toml" = .ok ["a", ".sigmap.toml"] := by
    rw [FileTree.resolve_relative (by decide) (by decide) (by decide) (by decide)]
    rfl
  have htop : brokenBelow.resolve ".sigmap.toml" = .ok [".sigmap.toml"] := by
    rw [FileTree.resolve_relative (by decide) (by decide) (by decide) (by decide)]
    rfl
  have hjoin : Path.join "a" fileName = "a/.sigmap.toml" ∧ Path.join "" fileName = ".sigmap.toml" := by
    decide +kernel
  rw [hjoin.1, hjoin.2]
  exact ⟨FileTree.readText_of_read (FileTree.read_eq_ok_iff.mpr ⟨_, ha, rfl⟩),
    FileTree.readText_of_read (FileTree.read_eq_ok_iff.mpr ⟨_, htop, rfl⟩)⟩

/-- The nearest file does not load, and still the one above it counts. -/
theorem broken_file_passed_over :
    hasFile brokenBelow "a" = true ∧ inDirectory? brokenBelow "a" = none ∧
      nearest brokenBelow "a" = {} ∧
      search brokenBelow "a" = { scan := { ignore := ["root"] } } := by
  obtain ⟨ha, htop⟩ := readText_brokenBelow
  have hfile : hasFile brokenBelow "a" = true := FileTree.contains_of_readText ha
  have hbroken : inDirectory? brokenBelow "a" = none := by
    rw [inDirectory?, load, ha]
    decide +kernel
  have hloads : inDirectory? brokenBelow "" = some { scan := { ignore := ["root"] } } := by
    rw [inDirectory?, load, htop]
    decide +kernel
  have hdirs : Path.ancestors "a" searchDepth = ["a", ""] := by decide +kernel
  have hfrom : fromNearest brokenBelow "a" = ["a", ""] := by
    rw [fromNearest, hdirs, List.dropWhile_cons, hfile]
    rfl
  refine ⟨hfile, hbroken, ?_, ?_⟩
  · rw [nearest, hfrom]
    simp only [hbroken, Option.getD_none]
  · rw [search_eq_fromNearest, hfrom, List.findSome?_cons, hbroken]
    simp only [List.findSome?_cons, hloads, Option.getD_some]

end Lineage.Settings
