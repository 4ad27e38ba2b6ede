import Mathlib.Data.List.Nodup
import Mathlib.Data.List.Perm.Basic
import Lineage.Discovery
import Lineage.Proofs.FileTree

/-!
# What a walk yields

A walk succeeds exactly if it meets no fault, and then it yields what it met (`walk_eq_ok_iff`). It
yields every file once (`nodup_walk`), by names that lead to a file of the tree (`mem_walk`). The
bound on its depth never cuts it short (`walkBelow_stable`).

**Trees that lack files.** `Lacks gone t t'` says that `t'` is `t` without the files at some places,
none of which decides what is ignored, and with its directories listed in any order. The walk of `t'`
then meets what the walk of `t` meets, less those files (`Lacks.met_perm`): the same faults, and so
it succeeds when that one does (`Lacks.walk`). A tree whose items are listed in another order lacks
nothing (`lacks_of_perm`), and one from which files were deleted lacks those (`lacks_delete`).
-/
namespace Lineage.FileTree
variable {t t' : FileTree}

theorem flatMap_filter_of_nil {α β : Type} {keep : α → Bool} {f : α → List β} {l : List α}
    (h : ∀ a ∈ l, keep a = false → f a = []) : (l.filter keep).flatMap f = l.flatMap f := by
  induction l with
  | nil => rfl
  | cons a l ih =>
    have hrest := ih fun b hb => h b (List.mem_cons_of_mem a hb)
    cases hkeep : keep a with
    | true => simp [hkeep, hrest]
    | false => simp [hkeep, hrest, h a List.mem_cons_self hkeep]

/-! ## What a tree lists -/

/-- Every place is listed once. -/
def Distinct (t : FileTree) : Prop := (t.items.map Prod.fst).Nodup

instance (t : FileTree) : Decidable t.Distinct := inferInstanceAs (Decidable (List.Nodup _))

/-- All names are such as files and directories can have. -/
def Proper (t : FileTree) : Prop := ∀ entry ∈ t.items, ∀ name ∈ entry.1, Path.IsName name

instance (t : FileTree) : Decidable t.Proper :=
  inferInstanceAs (Decidable (∀ entry ∈ t.items, ∀ name ∈ entry.1, Path.IsName name))

theorem mem_of_item? {place : List String} {item : FileItem} (hplace : place ≠ [])
    (h : t.item? place = some item) : (place, item) ∈ t.items := by
  rw [item?, if_neg hplace, List.lookup_eq_some_iff] at h
  obtain ⟨before, behind, hitems, -⟩ := h
  rw [hitems]
  simp

theorem item?_eq_some_iff (h : t.Distinct) {place : List String} {item : FileItem}
    (hplace : place ≠ []) : t.item? place = some item ↔ (place, item) ∈ t.items := by
  refine ⟨mem_of_item? hplace, fun hmem => ?_⟩
  rw [item?, if_neg hplace, List.lookup_eq_some_iff]
  obtain ⟨before, behind, hitems⟩ := List.append_of_mem hmem
  refine ⟨before, behind, hitems, fun entry hentry => ?_⟩
  rw [Distinct, hitems, List.map_append, List.nodup_append] at h
  have hne := h.2.2 entry.1 (List.mem_map_of_mem hentry) place (by simp)
  exact bne_iff_ne.mpr hne.symm

theorem names_eq (t : FileTree) (place : List String) :
    t.names place = (t.items.map Prod.fst).filterMap fun p =>
      if p.dropLast = place then p.getLast? else none := by
  rw [List.filterMap_map]
  rfl

theorem eq_concat_iff {p place : List String} {name : String} :
    (if p.dropLast = place then p.getLast? else none) = some name ↔ p = place ++ [name] := by
  constructor
  · intro h
    split at h
    case isTrue hlast =>
      obtain ⟨above, rfl⟩ := List.getLast?_eq_some_iff.mp h
      rw [← hlast, List.dropLast_concat]
    case isFalse => cases h
  · rintro rfl
    simp

theorem mem_names_iff {place : List String} {name : String} :
    name ∈ t.names place ↔ place ++ [name] ∈ t.items.map Prod.fst := by
  rw [names_eq, List.mem_filterMap]
  simp only [eq_concat_iff, exists_eq_right]

theorem nodup_names (h : t.Distinct) (place : List String) : (t.names place).Nodup := by
  rw [names_eq]
  refine h.filterMap ?_
  intro p p' name hp hp'
  rw [Option.mem_def, eq_concat_iff] at hp hp'
  rw [hp, hp']

/-! ## The depth of a walk -/

/-- What a walk meets at one of the names in the directory at `place`. -/
def metAt (t : FileTree) (root : String) (depth : Nat) (place above : List String) (name : String) :
    List (Except WalkFault (List String)) :=
  if Ignore.isIgnored t (Ignore.levels t place) (place ++ [name]) (t.isDirectory (place ++ [name]))
  then []
  else if t.isDirectory (place ++ [name]) then
    t.walkBelow root depth (place ++ [name]) (above ++ [name])
  else if exceedsLimit (Path.descend root (above ++ [name])) then []
  else [.ok (above ++ [name])]

theorem walkBelow_of_fault {root : String} {place above : List String} {fault : FileFault}
    (h : t.listFault? (Path.descend root above) place = some fault) (depth : Nat) :
    t.walkBelow root (depth + 1) place above =
      [.error (.entry (Path.descend root above) fault)] := by
  rw [walkBelow, h]

theorem walkBelow_of_listed {root : String} {place above : List String}
    (h : t.listFault? (Path.descend root above) place = none) (depth : Nat) :
    t.walkBelow root (depth + 1) place above =
      (t.names place).flatMap (t.metAt root depth place above) := by
  rw [walkBelow, h]
  rfl

/-- The directories with more than `n` names. -/
def deeper (t : FileTree) (n : Nat) : List (List String × FileItem) :=
  t.items.filter fun (p, item) => item.isDirectory ∧ n < p.length

theorem length_deeper_lt {place : List String} {name : String}
    (h : t.isDirectory (place ++ [name]) = true) :
    (t.deeper (place ++ [name]).length).length < (t.deeper place.length).length := by
  obtain ⟨item, hitem, hdirectory⟩ := (Option.any_eq_true _ _).mp h
  have hmem : (place ++ [name], item) ∈ t.items := mem_of_item? (by simp) hitem
  have hless : t.deeper (place ++ [name]).length =
      (t.deeper place.length).filter fun (p, _) => (place ++ [name]).length < p.length := by
    unfold deeper
    rw [List.filter_filter]
    refine List.filter_congr fun entry _ => ?_
    rw [Bool.eq_iff_iff]
    simp only [List.length_append, List.length_singleton, Bool.and_eq_true, decide_eq_true_eq]
    constructor
    · rintro ⟨hdir, hdeep⟩
      exact ⟨hdeep, hdir, by omega⟩
    · rintro ⟨hdeep, hdir, -⟩
      exact ⟨hdir, hdeep⟩
  rw [hless, List.length_filter_lt_length_iff_exists]
  refine ⟨_, List.mem_filter.mpr ⟨hmem, ?_⟩, ?_⟩
  · simp [hdirectory]
  · simp

/-- A walk that may go deeper than there are directories ends by itself. -/
theorem walkBelow_stable (root : String) {depth depth' : Nat} {place : List String}
    (h : (t.deeper place.length).length < depth) (h' : (t.deeper place.length).length < depth')
    (above : List String) :
    t.walkBelow root depth place above = t.walkBelow root depth' place above := by
  induction depth generalizing depth' place above with
  | zero => omega
  | succ depth ih =>
    obtain ⟨depth', rfl⟩ : ∃ n, depth' = n + 1 := ⟨depth' - 1, by omega⟩
    cases hlist : t.listFault? (Path.descend root above) place with
    | some fault => rw [walkBelow_of_fault hlist, walkBelow_of_fault hlist]
    | none =>
      rw [walkBelow_of_listed hlist, walkBelow_of_listed hlist]
      congr 1
      funext name
      unfold metAt
      cases hdir : t.isDirectory (place ++ [name]) with
      | false => rfl
      | true =>
        have hlt := length_deeper_lt hdir
        have hsame : t.walkBelow root depth (place ++ [name]) (above ++ [name]) =
            t.walkBelow root depth' (place ++ [name]) (above ++ [name]) :=
          ih (by omega) (by omega) _
        rw [hsame]

theorem walkBelow_of_length_lt (root : String) {depth : Nat} (h : t.items.length < depth)
    (place above : List String) :
    t.walkBelow root depth place above = t.walkBelow root (t.items.length + 1) place above := by
  have hle : (t.deeper place.length).length ≤ t.items.length := List.length_filter_le _ _
  exact walkBelow_stable root (by omega) (by omega) above

/-! ## What is yielded -/

/-- What is yielded at a name is found below it, if it is a directory, or else is the file itself. -/
theorem mem_metAt {root : String} {depth : Nat} {place above names : List String} {name : String}
    (h : .ok names ∈ t.metAt root depth place above name) :
    .ok names ∈ t.walkBelow root depth (place ++ [name]) (above ++ [name]) ∨
      t.isDirectory (place ++ [name]) = false ∧ names = above ++ [name] := by
  unfold metAt at h
  split at h
  · cases h
  · split at h
    case isTrue => exact .inl h
    case isFalse hfile =>
      split at h
      · cases h
      · rw [List.mem_singleton, Except.ok.injEq] at h
        exact .inr ⟨by simpa using hfile, h⟩

/-- A walk yields names that lead to a file of the tree. -/
theorem mem_walkBelow {root : String} {depth : Nat} {place above names : List String}
    (h : .ok names ∈ t.walkBelow root depth place above) :
    ∃ rest, rest ≠ [] ∧ names = above ++ rest ∧ place ++ rest ∈ t.items.map Prod.fst ∧
      t.isDirectory (place ++ rest) = false := by
  induction depth generalizing place above with
  | zero => cases h
  | succ depth ih =>
    cases hlist : t.listFault? (Path.descend root above) place with
    | some fault => simp [walkBelow_of_fault hlist] at h
    | none =>
      rw [walkBelow_of_listed hlist, List.mem_flatMap] at h
      obtain ⟨name, hname, h⟩ := h
      rcases mem_metAt h with hbelow | ⟨hfile, rfl⟩
      · obtain ⟨rest, -, rfl, hlisted, hfile⟩ := ih hbelow
        rw [List.append_assoc] at hlisted hfile
        exact ⟨name :: rest, by simp, by simp, hlisted, hfile⟩
      · exact ⟨[name], by simp, rfl, mem_names_iff.mp hname, hfile⟩

/-- What is yielded at a name has that name behind those above. -/
theorem getElem?_of_mem_metAt {root : String} {depth : Nat} {place above names : List String}
    {name : String} (h : .ok names ∈ t.metAt root depth place above name) :
    names[above.length]? = some name := by
  rcases mem_metAt h with hbelow | ⟨-, rfl⟩
  · obtain ⟨rest, -, rfl, -⟩ := mem_walkBelow hbelow
    simp
  · simp

theorem mem_filterMap_toOption {ε α : Type} {l : List (Except ε α)} {a : α} :
    a ∈ l.filterMap Except.toOption ↔ .ok a ∈ l := by
  rw [List.mem_filterMap]
  constructor
  · rintro ⟨outcome, hmem, hsome⟩
    cases outcome with
    | error e => cases hsome
    | ok b =>
      cases hsome
      exact hmem
  · exact fun hmem => ⟨_, hmem, rfl⟩

/-- A walk yields every file once, whatever faults it meets. -/
theorem nodup_walkBelow (h : t.Distinct) (root : String) (depth : Nat) (place above : List String) :
    ((t.walkBelow root depth place above).filterMap Except.toOption).Nodup := by
  induction depth generalizing place above with
  | zero => exact List.nodup_nil
  | succ depth ih =>
    cases hlist : t.listFault? (Path.descend root above) place with
    | some fault =>
      rw [walkBelow_of_fault hlist]
      exact List.nodup_nil
    | none =>
      rw [walkBelow_of_listed hlist, List.filterMap_flatMap, List.nodup_flatMap]
      refine ⟨fun name _ => ?_, (nodup_names h place).imp ?_⟩
      · unfold metAt
        split
        · exact List.nodup_nil
        · split
          · exact ih _ _
          · split
            · exact List.nodup_nil
            · exact List.nodup_singleton _
      · intro name name' hne names hnames hnames'
        have hat := getElem?_of_mem_metAt (mem_filterMap_toOption.mp hnames)
        have hat' := getElem?_of_mem_metAt (mem_filterMap_toOption.mp hnames')
        exact hne (Option.some.inj (hat.symm.trans hat'))

theorem locate_eq_ok_iff {path : String} {place : List String} :
    t.locate path = .ok place ↔ t.resolve path = .ok place ∧ (t.item? place).isSome = true := by
  unfold locate
  cases hres : t.resolve path with
  | error fault => simp [bind, Except.bind]
  | ok found =>
    cases hitem : (t.item? found).isSome with
    | true =>
      simp only [bind, Except.bind, pure, Except.pure, hitem, if_true, Except.ok.injEq]
      constructor
      · rintro rfl
        exact ⟨rfl, hitem⟩
      · exact fun h => h.1
    | false =>
      simp only [bind, Except.bind, hitem, Bool.false_eq_true, if_false, Except.ok.injEq]
      constructor
      · intro h
        cases h
      · rintro ⟨rfl, hsome⟩
        rw [hitem] at hsome
        cases hsome

theorem mapM_id_eq_ok_iff {ε α : Type} {l : List (Except ε α)} {found : List α} :
    l.mapM id = .ok found ↔ l = found.map .ok := by
  induction l generalizing found with
  | nil => cases found <;> simp [pure, Except.pure]
  | cons outcome l ih =>
    rw [List.mapM_cons]
    cases outcome with
    | error e => cases found <;> simp [bind, Except.bind]
    | ok a =>
      cases hrest : l.mapM id with
      | error e =>
        have hnone : ∀ rest : List α, l ≠ rest.map .ok := by
          intro rest heq
          rw [ih.mpr heq] at hrest
          cases hrest
        cases found <;> simp [bind, Except.bind, hnone]
      | ok rest =>
        cases found with
        | nil => simp [bind, Except.bind, pure, Except.pure]
        | cons b found =>
          simp only [bind, Except.bind, id, pure, Except.pure, Except.ok.injEq, List.cons.injEq,
            List.map_cons, ← ih, hrest]

/-- A walk that meets a fault fails, and any other yields what it meets. -/
theorem walk_eq_ok_iff {root : String} {walked : List (List String)} :
    t.walk root = .ok walked ↔ t.met root = walked.map .ok := mapM_id_eq_ok_iff

theorem met_of_locate {root : String} {place : List String} (hroot : root ≠ "-")
    (hplace : t.locate root = .ok place) :
    t.met root =
      if t.isDirectory place then
        t.complaintsMet place ++ t.walkBelow root (t.items.length + 1) place []
      else [.ok []] := by
  rw [met, if_neg hroot, hplace]

/-- A walk that succeeds has found its root, unless that is the standard input. -/
theorem exists_locate_of_walk {root : String} {walked : List (List String)} (hroot : root ≠ "-")
    (hwalk : t.walk root = .ok walked) : ∃ place, t.locate root = .ok place := by
  rw [walk_eq_ok_iff, met, if_neg hroot] at hwalk
  cases hplace : t.locate root with
  | ok place => exact ⟨place, rfl⟩
  | error fault =>
    rw [hplace] at hwalk
    cases walked <;> simp at hwalk

theorem not_mem_complaintsMet {place names : List String} : .ok names ∉ t.complaintsMet place := by
  unfold complaintsMet
  split <;> simp

/-- What is walked is the root alone, if it is a file, or else stands below it. -/
theorem exists_of_mem_walk {root : String} {names : List String} {walked : List (List String)}
    (hwalk : t.walk root = .ok walked) (h : names ∈ walked) :
    ∃ place, t.locate root = .ok place ∧
      if t.isDirectory place then .ok names ∈ t.walkBelow root (t.items.length + 1) place []
      else names = [] := by
  have hmet : .ok names ∈ t.met root := by
    rw [walk_eq_ok_iff.mp hwalk]
    exact List.mem_map_of_mem h
  unfold met at hmet
  split at hmet
  · cases hmet
  · cases hplace : t.locate root with
    | error fault => simp [hplace] at hmet
    | ok place =>
      refine ⟨place, rfl, ?_⟩
      simp only [hplace] at hmet
      split at hmet
      case isTrue hdir =>
        rw [if_pos hdir]
        exact (List.mem_append.mp hmet).resolve_left not_mem_complaintsMet
      case isFalse hfile =>
        rw [if_neg hfile]
        simpa using hmet

/-- No names lead twice to a file. -/
theorem nodup_walk {root : String} {walked : List (List String)} (h : t.Distinct)
    (hwalk : t.walk root = .ok walked) : walked.Nodup := by
  have hwalked : walked = (t.met root).filterMap Except.toOption := by
    rw [walk_eq_ok_iff.mp hwalk, List.filterMap_map]
    exact List.filterMap_some.symm
  rw [hwalked]
  unfold met
  split
  · exact List.nodup_nil
  · cases t.locate root with
    | error fault => exact List.nodup_nil
    | ok place =>
      dsimp only
      split
      · have hnone : (t.complaintsMet place).filterMap Except.toOption = [] := by
          rw [List.eq_nil_iff_forall_not_mem]
          exact fun names hnames => not_mem_complaintsMet (mem_filterMap_toOption.mp hnames)
        rw [List.filterMap_append, hnone]
        exact nodup_walkBelow h root _ place []
      · exact List.nodup_singleton []

/-- Below a directory, what is walked are files of the tree. -/
theorem mem_walk {root : String} {place names : List String} {walked : List (List String)}
    (hplace : t.locate root = .ok place) (hdir : t.isDirectory place = true)
    (hwalk : t.walk root = .ok walked) (h : names ∈ walked) :
    names ≠ [] ∧ place ++ names ∈ t.items.map Prod.fst ∧
      t.isDirectory (place ++ names) = false := by
  obtain ⟨place₀, hplace₀, hbelow⟩ := exists_of_mem_walk hwalk h
  obtain rfl := Except.ok.inj (hplace.symm.trans hplace₀)
  rw [if_pos hdir] at hbelow
  obtain ⟨rest, hne, rfl, hlisted, hfile⟩ := mem_walkBelow hbelow
  exact ⟨hne, hlisted, hfile⟩

/-! ## Trees that lack files -/

/-- The names of the files that decide what a walk leaves out. -/
def ruleFiles : List String := [".ignore", ".gitignore", ".git", ".jj", "commondir", "exclude"]

/-- `t'` is `t` without the files at the places that are `gone`, none of which has a say in what is
ignored. Its directories may be listed in another order. -/
structure Lacks (gone : List String → Bool) (t t' : FileTree) : Prop where
  workingDirectory : t'.workingDirectory = t.workingDirectory
  ownRules : t'.ownRules = t.ownRules
  item? : ∀ place, t'.item? place = if gone place then none else t.item? place
  names : ∀ place,
    (t'.names place).Perm ((t.names place).filter fun name => !gone (place ++ [name]))
  not_directory : ∀ place, gone place = true → t.isDirectory place = false
  not_rules : ∀ place, gone place = true → ∀ name ∈ ruleFiles, place.getLast? ≠ some name

namespace Lacks
variable {gone : List String → Bool}

theorem isDirectory (h : Lacks gone t t') (place : List String) :
    t'.isDirectory place = t.isDirectory place := by
  unfold FileTree.isDirectory
  rw [h.item?]
  split
  case isTrue hgone =>
    have hfile := h.not_directory place hgone
    rw [FileTree.isDirectory] at hfile
    rw [hfile]
    rfl
  case isFalse => rfl

theorem isOpen (h : Lacks gone t t') (place : List String) : t'.isOpen place = t.isOpen place := by
  unfold FileTree.isOpen
  rw [h.item?]
  split
  case isTrue hgone =>
    have hclosed := isOpen_of_not_isDirectory (h.not_directory place hgone)
    rw [FileTree.isOpen] at hclosed
    rw [hclosed]
    rfl
  case isFalse => rfl

theorem resolve_eq_ok_iff (h : Lacks gone t t') {path : String} {place : List String} :
    t'.resolve path = .ok place ↔ t.resolve path = .ok place :=
  resolve_eq_ok_congr h.workingDirectory h.isOpen

/-- A path that does not lead to a missing file reads as before. -/
theorem read_toOption (h : Lacks gone t t') {path : String}
    (hkept : ∀ place, t.resolve path = .ok place → gone place = false) :
    (t'.read path).toOption = (t.read path).toOption := by
  have hiff : ∀ bytes, t'.read path = .ok bytes ↔ t.read path = .ok bytes := by
    intro bytes
    simp only [read_eq_ok_iff, h.resolve_eq_ok_iff]
    refine exists_congr fun place => and_congr_right fun hres => ?_
    rw [h.item?, hkept place hres]
    simp
  cases hread : t.read path with
  | ok bytes => rw [(hiff bytes).mpr hread]
  | error fault =>
    cases hread' : t'.read path with
    | ok bytes =>
      rw [(hiff bytes).mp hread'] at hread
      cases hread
    | error fault' => rfl

/-! ### What is ignored -/

theorem item?_rules (h : Lacks gone t t') {place : List String} {name : String}
    (hname : name ∈ ruleFiles) (hlast : place.getLast? = some name) :
    t'.item? place = t.item? place := by
  rw [h.item?, if_neg]
  intro hgone
  exact h.not_rules place hgone name hname hlast

theorem fileAt_eq (h : Lacks gone t t') {place : List String} {name : String}
    (hname : name ∈ ruleFiles) (hlast : place.getLast? = some name) :
    Ignore.fileAt t' place = Ignore.fileAt t place := by
  rw [Ignore.fileAt, Ignore.fileAt, h.item?_rules hname hlast]

theorem read_rules (h : Lacks gone t t') {path : String} {above : List (List Char)} {name : String}
    (hrules : name ∈ ruleFiles) (hname : Path.IsName name)
    (hpieces : Path.pieces path = above ++ [name.toList]) :
    (t'.read path).toOption = (t.read path).toOption := by
  refine h.read_toOption fun place hres => ?_
  rw [Bool.eq_false_iff]
  intro hgone
  exact h.not_rules place hgone name hrules (getLast?_of_resolve hname hpieces hres)

/-- Nothing is said about a file that cannot be read, so why it cannot does not matter. -/
theorem sharedDirectory_eq (h : Lacks gone t t') (path : String) (content : List UInt8) :
    Ignore.sharedDirectory t' path content = Ignore.sharedDirectory t path content := by
  have hread : ∀ own, (t'.read (Path.join own "commondir")).toOption =
      (t.read (Path.join own "commondir")).toOption := by
    intro own
    have hname : Path.IsName "commondir" := by decide
    obtain ⟨above, habove⟩ := Path.exists_pieces_join own hname.relative
    rw [hname.pieces] at habove
    exact h.read_rules (by decide) hname habove
  unfold Ignore.sharedDirectory
  refine congrArg _ (funext fun own => ?_)
  have hsame := hread own
  cases hbytes : t.read (Path.join own "commondir") <;>
    cases hbytes' : t'.read (Path.join own "commondir") <;> simp_all [Except.toOption]

theorem excludeFile_eq (h : Lacks gone t t') (directory : List String) :
    Ignore.excludeFile t' directory = Ignore.excludeFile t directory := by
  have hread : ∀ shared, (t'.read (Path.join shared "info/exclude")).toOption =
      (t.read (Path.join shared "info/exclude")).toOption := by
    intro shared
    have hname : Path.IsName "exclude" := by decide
    have hrelative : ¬ ['/'] <+: "info/exclude".toList := by decide
    obtain ⟨above, habove⟩ := Path.exists_pieces_join shared hrelative
    have hpieces : Path.pieces "info/exclude" = ["info".toList] ++ ["exclude".toList] := by decide
    rw [hpieces, ← List.append_assoc] at habove
    exact h.read_rules (by decide) hname habove
  have hgit : t'.item? (directory ++ [".git"]) = t.item? (directory ++ [".git"]) :=
    h.item?_rules (by decide : ".git" ∈ ruleFiles) (by simp)
  have hexclude : Ignore.fileAt t' (directory ++ [".git", "info", "exclude"]) =
      Ignore.fileAt t (directory ++ [".git", "info", "exclude"]) :=
    h.fileAt_eq (by decide : "exclude" ∈ ruleFiles) (by simp)
  unfold Ignore.excludeFile
  rw [hgit, hexclude]
  cases t.item? (directory ++ [".git"]) with
  | none => rfl
  | some item =>
    cases item with
    | directory => rfl
    | lockedFile => rfl
    | lockedDirectory => rfl
    | file content =>
      simp only [h.sharedDirectory_eq]
      cases Ignore.sharedDirectory t (pathOf (directory ++ [".git"])) content with
      | error complaints => rfl
      | ok shared =>
        have hsame := hread shared
        cases hbytes : t.read (Path.join shared "info/exclude") <;>
          cases hbytes' : t'.read (Path.join shared "info/exclude") <;>
            simp_all [Except.toOption]

theorem levels_eq (h : Lacks gone t t') (directory : List String) :
    Ignore.levels t' directory = Ignore.levels t directory := by
  have hlevel : ∀ place, Ignore.levelAt t' place = Ignore.levelAt t place := by
    intro place
    unfold Ignore.levelAt
    rw [h.fileAt_eq (by decide : ".ignore" ∈ ruleFiles) (by simp),
      h.fileAt_eq (by decide : ".gitignore" ∈ ruleFiles) (by simp), h.excludeFile_eq,
      h.item?_rules (by decide : ".git" ∈ ruleFiles) (by simp),
      h.item?_rules (by decide : ".jj" ∈ ruleFiles) (by simp)]
  unfold Ignore.levels
  simp only [hlevel]

theorem isIgnored_eq (h : Lacks gone t t') (levels : List Ignore.Level) (place : List String)
    (isDirectory : Bool) :
    Ignore.isIgnored t' levels place isDirectory = Ignore.isIgnored t levels place isDirectory := by
  unfold Ignore.isIgnored Ignore.ownVerdict?
  rw [h.workingDirectory, h.ownRules]

/-! ### What is walked -/

/-- Faults are met all the same, and files if they are not missing. -/
def keeps (gone : List String → Bool) (place : List String) :
    Except WalkFault (List String) → Bool
  | .ok names => !gone (place ++ names)
  | .error _ => true

/-- A walk of what is left meets what the walk met, less the missing files. -/
theorem walkBelow_perm (h : Lacks gone t t') (root : String) (place : List String) (depth : Nat)
    (above : List String) :
    (t'.walkBelow root depth (place ++ above) above).Perm
      ((t.walkBelow root depth (place ++ above) above).filter (keeps gone place)) := by
  induction depth generalizing above with
  | zero => exact List.Perm.nil
  | succ depth ih =>
    have hlists : t'.listFault? (Path.descend root above) (place ++ above) =
        t.listFault? (Path.descend root above) (place ++ above) := by
      rw [listFault?, listFault?, h.isOpen]
    cases hlist : t.listFault? (Path.descend root above) (place ++ above) with
    | some fault =>
      rw [walkBelow_of_fault hlist, walkBelow_of_fault (hlists.trans hlist)]
      exact List.Perm.refl _
    | none =>
      rw [walkBelow_of_listed hlist, walkBelow_of_listed (hlists.trans hlist), List.filter_flatMap]
      -- A missing name is that of a file, so nothing but itself was met there.
      have hmissing : ∀ name ∈ t.names (place ++ above),
          (!gone (place ++ above ++ [name])) = false →
          (t.metAt root depth (place ++ above) above name).filter (keeps gone place) = [] := by
        intro name _ hgone
        rw [Bool.not_eq_false'] at hgone
        have hfile := h.not_directory _ hgone
        unfold metAt
        rw [hfile]
        rw [List.append_assoc] at hgone
        split
        · rfl
        · simp only [Bool.false_eq_true, if_false]
          split <;> simp [keeps, hgone]
      rw [← flatMap_filter_of_nil hmissing]
      refine (h.names _).flatMap fun name hname => ?_
      have hkept := (List.mem_filter.mp ((h.names _).mem_iff.mp hname)).2
      rw [Bool.not_eq_true'] at hkept
      unfold metAt
      rw [h.levels_eq, h.isDirectory, h.isIgnored_eq]
      rw [List.append_assoc] at hkept ⊢
      split
      · exact List.Perm.nil
      · split
        · exact ih (above ++ [name])
        · split
          · exact List.Perm.nil
          · simp [keeps, hkept]

theorem complaintsMet_eq (h : Lacks gone t t') (place : List String) :
    t'.complaintsMet place = t.complaintsMet place := by
  unfold complaintsMet Ignore.complaintsAbove
  rw [h.levels_eq]

theorem filter_complaintsMet (gone : List String → Bool) (t : FileTree) (place : List String) :
    (t.complaintsMet place).filter (keeps gone place) = t.complaintsMet place := by
  rw [List.filter_eq_self]
  intro outcome hmem
  cases outcome with
  | error fault => rfl
  | ok names => exact absurd hmem not_mem_complaintsMet

/-- The walk from a root that is still there meets the same faults, and the files that are left. -/
theorem met_perm (h : Lacks gone t t') {root : String} {place : List String}
    (hplace : t.locate root = .ok place) (hkept : gone place = false) :
    (t'.met root).Perm ((t.met root).filter (keeps gone place)) := by
  by_cases hroot : root = "-"
  · simp [met, hroot]
  · have hplace' : t'.locate root = .ok place := by
      rw [locate_eq_ok_iff] at hplace ⊢
      rw [h.resolve_eq_ok_iff, h.item?, hkept]
      exact hplace
    rw [met_of_locate hroot hplace, met_of_locate hroot hplace', h.isDirectory]
    split
    case isTrue hdir =>
      -- The two walks differ in how deep they may go, and both may go deep enough.
      have hdeep : t.items.length < t'.items.length + t.items.length + 1 := by omega
      have hdeep' : t'.items.length < t'.items.length + t.items.length + 1 := by omega
      rw [← walkBelow_of_length_lt root hdeep, ← walkBelow_of_length_lt root hdeep',
        List.filter_append, filter_complaintsMet, h.complaintsMet_eq]
      refine List.Perm.append_left _ ?_
      simpa using h.walkBelow_perm root place (t'.items.length + t.items.length + 1) []
    case isFalse hfile => simp [keeps, hkept]

/-- The walk from a root that is still there succeeds if it did. -/
theorem walk (h : Lacks gone t t') {root : String} {place : List String}
    {walked : List (List String)} (hplace : t.locate root = .ok place) (hkept : gone place = false)
    (hwalk : t.walk root = .ok walked) :
    ∃ walked', t'.walk root = .ok walked' ∧
      walked'.Perm (walked.filter fun names => !gone (place ++ names)) := by
  have hperm := h.met_perm hplace hkept
  rw [walk_eq_ok_iff.mp hwalk, List.filter_map] at hperm
  obtain ⟨walked', hmet, hwalked⟩ :
      Relation.Comp (· = List.map .ok ·) List.Perm (t'.met root)
        (walked.filter (keeps gone place ∘ .ok)) := by
    rw [List.eq_map_comp_perm]
    exact hperm
  exact ⟨walked', walk_eq_ok_iff.mpr hmet, hwalked⟩

end Lacks

/-- A tree whose items are listed in another order lacks nothing. -/
theorem lacks_of_perm {items : List (List String × FileItem)} (hitems : items.Perm t.items)
    (h : t.Distinct) : Lacks (fun _ => false) t { t with items := items } where
  workingDirectory := rfl
  ownRules := rfl
  item? place := by
    rw [if_neg Bool.false_ne_true]
    by_cases hplace : place = []
    · simp [FileTree.item?, hplace]
    · have hdistinct' : Distinct { t with items := items } :=
        (hitems.map Prod.fst).nodup_iff.mpr h
      refine Option.ext fun item => ?_
      rw [item?_eq_some_iff hdistinct' hplace, item?_eq_some_iff h hplace, hitems.mem_iff]
  names place := by
    have hall : (t.names place).filter (fun _ => !false) = t.names place :=
      List.filter_eq_self.mpr fun _ _ => rfl
    rw [hall, names_eq, names_eq]
    exact (hitems.map Prod.fst).filterMap _
  not_directory place hgone := by cases hgone
  not_rules place hgone := by cases hgone

/-- Does one of the paths lead to `place`? -/
def leadTo (t : FileTree) (paths : List String) (place : List String) : Bool :=
  paths.any fun path => decide ((t.resolve path).toOption = some place)

theorem leadTo_eq_true_iff {paths : List String} {place : List String} :
    t.leadTo paths place = true ↔ ∃ path ∈ paths, t.resolve path = .ok place := by
  simp only [leadTo, List.any_eq_true, decide_eq_true_eq]
  refine exists_congr fun path => and_congr_right fun _ => ?_
  cases t.resolve path <;> simp [Except.toOption]

/-- The tree without the files that the paths lead to. -/
def delete (t : FileTree) (paths : List String) : FileTree :=
  { t with items := t.items.filter fun (p, _) => !t.leadTo paths p }

theorem names_delete (t : FileTree) (paths : List String) (place : List String) :
    (t.delete paths).names place =
      (t.names place).filter fun name => !t.leadTo paths (place ++ [name]) := by
  have hplaces : (t.delete paths).items.map Prod.fst =
      (t.items.map Prod.fst).filter fun p => !t.leadTo paths p := by
    rw [List.filter_map]
    rfl
  rw [names_eq, names_eq, hplaces, List.filterMap_filter, List.filter_filterMap]
  refine List.filterMap_congr fun p _ => ?_
  cases hname : (if p.dropLast = place then p.getLast? else none) with
  | none => simp
  | some name =>
    rw [eq_concat_iff.mp hname]
    rfl

/-- A tree lacks the files that were deleted from it. -/
theorem lacks_delete {paths : List String}
    (hfile : ∀ path ∈ paths, ∀ place, t.resolve path = .ok place → t.isDirectory place = false)
    (hrules : ∀ path ∈ paths, ∀ place, t.resolve path = .ok place →
      ∀ name ∈ ruleFiles, place.getLast? ≠ some name) :
    Lacks (t.leadTo paths) t (t.delete paths) where
  workingDirectory := rfl
  ownRules := rfl
  item? place := by
    unfold FileTree.item?
    split
    case isTrue htop =>
      subst htop
      rw [if_neg]
      intro hgone
      obtain ⟨path, hpath, hres⟩ := leadTo_eq_true_iff.mp hgone
      exact ne_nil_of_not_isDirectory (hfile path hpath [] hres) rfl
    case isFalse =>
      have hlookup := lookup_filter (fun p => !t.leadTo paths p) t.items place
      rw [delete, hlookup]
      cases t.leadTo paths place <;> rfl
  names place := by rw [names_delete]
  not_directory place hgone := by
    obtain ⟨path, hpath, hres⟩ := leadTo_eq_true_iff.mp hgone
    exact hfile path hpath place hres
  not_rules place hgone := by
    obtain ⟨path, hpath, hres⟩ := leadTo_eq_true_iff.mp hgone
    exact hrules path hpath place hres

end Lineage.FileTree
