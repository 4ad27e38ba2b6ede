import Lineage.FileTree
import Lineage.Proofs.Path
import Lineage.Proofs.Text.Utf8

/-!
# Files that are there and files that read

A path is resolved to a place first, and what stands at that place decides the rest. Bytes that a
text was written as read as that text (`readText_of_read`), and what reads is there
(`contains_of_readText`).

A file can be created where there is nothing, or a file that is not locked (`create_eq_ok_iff`). A
file that is created and filled holds what it was filled with (`read_put`), and nothing else changes
(`item?_put`).
-/
namespace Lineage.FileTree
variable {t : FileTree} {path : String}

/-- A short relative path without zero characters is followed from the working directory. -/
theorem resolve_relative (hne : path.isEmpty = false) (hzero : '\x00' ∉ path.toList)
    (hlen : path.utf8ByteSize ≤ pathLimit) (hrel : ¬ ['/'] <+: path.toList) :
    t.resolve path = t.follow t.workingDirectory ((Path.pieces path).map String.ofList) := by
  have hstart : path.startsWith "/" = false := Path.startsWith_eq_false hrel
  unfold resolve
  rw [hne, hstart, if_neg Bool.false_ne_true, if_neg hzero,
    if_neg (Nat.not_lt.mpr hlen), if_neg Bool.false_ne_true]

theorem read_eq_ok_iff {bytes : List UInt8} :
    t.read path = .ok bytes ↔
      ∃ place, t.resolve path = .ok place ∧ t.item? place = some (.file bytes) := by
  unfold read
  cases hres : t.resolve path with
  | error fault => simp [bind, Except.bind]
  | ok place =>
    simp only [bind, Except.bind, pure, Except.pure]
    cases hitem : t.item? place with
    | none => simp [hitem]
    | some item => cases item <;> simp [hitem]

theorem readText_eq_ok_iff {text : String} :
    t.readText path = .ok text ↔
      ∃ bytes, t.read path = .ok bytes ∧ Text.Utf8.decode? bytes = some text := by
  unfold readText
  cases hread : t.read path with
  | error fault => simp [bind, Except.bind]
  | ok bytes =>
    simp only [bind, Except.bind, pure, Except.pure]
    cases hdec : Text.Utf8.decode? bytes <;> simp [hdec]

theorem readText_of_read {text : String} (h : t.read path = .ok (Text.Utf8.encode text)) :
    t.readText path = .ok text :=
  readText_eq_ok_iff.mpr ⟨_, h, Text.Utf8.decode?_encode text⟩

theorem contains_of_readText {text : String} (h : t.readText path = .ok text) :
    t.contains path = true := by
  obtain ⟨bytes, hread, -⟩ := readText_eq_ok_iff.mp h
  obtain ⟨place, hres, hitem⟩ := read_eq_ok_iff.mp hread
  unfold contains locate
  rw [hres]
  simp only [bind, Except.bind, hitem]
  rfl

/-! ## Following paths -/

/-- Where one piece of a path leads from `place`, if it is not too long. -/
def stepTo? (place : List String) (piece : String) : Option (List String) :=
  if piece = "" ∨ piece = "." then some place
  else if piece = ".." then some place.dropLast
  else if nameLimit < piece.utf8ByteSize then none
  else some (place ++ [piece])

/-- Each piece is followed from a directory that is not locked. What else stands in the tree does not
matter. -/
theorem follow_cons_eq_ok_iff {place stop : List String} {piece : String} {rest : List String} :
    t.follow place (piece :: rest) = .ok stop ↔
      t.isOpen place = true ∧
        ∃ next, stepTo? place piece = some next ∧ t.follow next rest = .ok stop := by
  rw [follow, isOpen, stepTo?]
  cases t.item? place with
  | none => simp
  | some item =>
    cases item with
    | file content => simp
    | lockedFile => simp
    | lockedDirectory => simp
    | directory =>
      by_cases hidle : piece = "" ∨ piece = "."
      · simp [hidle]
      · by_cases hup : piece = ".."
        · simp [hup]
        · by_cases hlong : nameLimit < piece.utf8ByteSize <;> simp [hidle, hup, hlong]

/-- Trees with the same open directories lead to the same places. -/
theorem follow_eq_ok_congr {t' : FileTree} (h : ∀ place, t'.isOpen place = t.isOpen place)
    {pieces : List String} {start stop : List String} :
    t'.follow start pieces = .ok stop ↔ t.follow start pieces = .ok stop := by
  induction pieces generalizing start with
  | nil => rfl
  | cons piece pieces ih => simp only [follow_cons_eq_ok_iff, h, ih]

theorem resolve_eq_ok_iff {place : List String} :
    t.resolve path = .ok place ↔
      path.isEmpty = false ∧ '\x00' ∉ path.toList ∧ path.utf8ByteSize ≤ pathLimit ∧
        t.follow (if path.startsWith "/" then [] else t.workingDirectory)
          ((Path.pieces path).map String.ofList) = .ok place := by
  unfold resolve
  cases path.isEmpty <;> by_cases hzero : '\x00' ∈ path.toList <;>
    by_cases hlong : pathLimit < path.utf8ByteSize <;> simp [hzero, hlong, ← Nat.not_lt]

theorem resolve_eq_ok_congr {t' : FileTree} (hwork : t'.workingDirectory = t.workingDirectory)
    (h : ∀ place, t'.isOpen place = t.isOpen place) {place : List String} :
    t'.resolve path = .ok place ↔ t.resolve path = .ok place := by
  simp only [resolve_eq_ok_iff, hwork, follow_eq_ok_congr h]

/-- Trees with the same items read alike, faults included. -/
theorem read_congr {t' : FileTree} (hwork : t'.workingDirectory = t.workingDirectory)
    (h : ∀ place, t'.item? place = t.item? place) (path : String) : t'.read path = t.read path := by
  have hfollow : ∀ pieces place, t'.follow place pieces = t.follow place pieces := by
    intro pieces
    induction pieces with
    | nil => exact fun place => rfl
    | cons piece pieces ih =>
      intro place
      simp only [follow, h, ih]
  have hresolve : t'.resolve path = t.resolve path := by
    simp only [resolve, hwork, hfollow]
  simp only [read, hresolve, h]

theorem follow_append_eq_ok_iff {first second start stop : List String} :
    t.follow start (first ++ second) = .ok stop ↔
      ∃ middle, t.follow start first = .ok middle ∧ t.follow middle second = .ok stop := by
  induction first generalizing start with
  | nil => simp [follow]
  | cons piece first ih =>
    simp only [List.cons_append, follow_cons_eq_ok_iff, ih]
    constructor
    · rintro ⟨hdir, next, hnext, middle, hfirst, hsecond⟩
      exact ⟨middle, ⟨hdir, next, hnext, hfirst⟩, hsecond⟩
    · rintro ⟨middle, ⟨hdir, next, hnext, hfirst⟩, hsecond⟩
      exact ⟨hdir, next, hnext, middle, hfirst, hsecond⟩

/-- A path with a slash at its end leads to a directory. -/
theorem isOpen_of_resolve_slash {place : List String} (hslash : path.endsWith "/" = true)
    (h : t.resolve path = .ok place) : t.isOpen place = true := by
  obtain ⟨-, -, -, hfollow⟩ := resolve_eq_ok_iff.mp h
  obtain ⟨above, habove⟩ := Path.endsWith_slash_iff.mp hslash
  rw [Path.pieces_of_slash habove.symm, List.map_append, follow_append_eq_ok_iff] at hfollow
  obtain ⟨middle, -, hlast⟩ := hfollow
  rw [List.map_singleton, follow_cons_eq_ok_iff] at hlast
  obtain ⟨hopen, next, hnext, hstop⟩ := hlast
  cases hstop
  cases hnext
  exact hopen

theorem ne_empty_of_resolve {place : List String} (h : t.resolve path = .ok place) : path ≠ "" := by
  rintro rfl
  have hempty := (resolve_eq_ok_iff.mp h).1
  simp at hempty

/-- A path with something joined to it leads nowhere but below where the path itself leads. -/
theorem exists_resolve_of_join {dir rest : String} {place : List String} (hdir : dir ≠ "")
    (hrest : ¬ ['/'] <+: rest.toList) (h : t.resolve (Path.join dir rest) = .ok place) :
    ∃ above, t.resolve dir = .ok above ∧
      t.follow above ((Path.pieces rest).map String.ofList) = .ok place := by
  obtain ⟨-, hzero, hlong, hfollow⟩ := resolve_eq_ok_iff.mp h
  obtain ⟨behind, hbehind⟩ := Path.toList_prefix_join dir hrest
  have hjoin : Path.join dir rest = dir ++ String.ofList behind := by
    rw [← String.toList_inj, ← hbehind]
    simp
  have hstart : (Path.join dir rest).startsWith "/" = dir.startsWith "/" := by
    have hne : dir.toList ≠ [] := mt String.toList_eq_nil_iff.mp hdir
    rw [Bool.eq_iff_iff, String.startsWith_string_iff, String.startsWith_string_iff, ← hbehind]
    cases hchars : dir.toList with
    | nil => exact absurd hchars hne
    | cons c chars => simp [List.cons_prefix_cons]
  rw [Path.pieces_join hdir hrest, List.map_append, follow_append_eq_ok_iff, hstart] at hfollow
  obtain ⟨above, habove, hplace⟩ := hfollow
  refine ⟨above, resolve_eq_ok_iff.mpr ⟨?_, ?_, ?_, ?_⟩, hplace⟩
  · simpa using hdir
  · rw [hjoin, String.toList_append, List.mem_append, not_or] at hzero
    exact hzero.1
  · rw [hjoin, String.utf8ByteSize_append] at hlong
    omega
  · rcases Path.stem_cases dir with hstem | hstem
    · rw [hstem, habove]
    · -- the empty piece behind a slash asks for a directory, and so does what was joined
      have hopen : t.isOpen above = true := by
        obtain ⟨piece, pieces, hpieces⟩ :=
          List.exists_cons_of_ne_nil (Text.split_ne_nil '/' rest.toList)
        rw [Path.pieces, hpieces, List.map_cons, follow_cons_eq_ok_iff] at hplace
        exact hplace.1
      rw [hstem, List.map_append, follow_append_eq_ok_iff]
      exact ⟨above, habove, follow_cons_eq_ok_iff.mpr ⟨hopen, above, rfl, rfl⟩⟩

theorem stepTo?_of_isName {name : String} {place next : List String} (hname : Path.IsName name)
    (h : stepTo? place name = some next) : next = place ++ [name] := by
  unfold stepTo? at h
  rw [if_neg (not_or.mpr ⟨hname.1, hname.2.1⟩), if_neg hname.2.2.1] at h
  split at h
  · cases h
  · exact (Option.some.inj h).symm

/-- A path that ends in a name leads to a place of that name. -/
theorem getLast?_of_resolve {above : List (List Char)} {name : String} {place : List String}
    (hname : Path.IsName name) (hpieces : Path.pieces path = above ++ [name.toList])
    (h : t.resolve path = .ok place) : place.getLast? = some name := by
  obtain ⟨-, -, -, hfollow⟩ := resolve_eq_ok_iff.mp h
  rw [hpieces, List.map_append, follow_append_eq_ok_iff] at hfollow
  obtain ⟨middle, -, hstep⟩ := hfollow
  rw [List.map_singleton, String.ofList_toList, follow_cons_eq_ok_iff] at hstep
  obtain ⟨-, next, hnext, hstop⟩ := hstep
  cases hstop
  rw [stepTo?_of_isName hname hnext, List.getLast?_concat]

/-- Names below a root lead to the place of those names below the root's. -/
theorem resolve_descend {root : String} {names place : List String} (hroot : root ≠ "")
    (hnames : ∀ n ∈ names, Path.IsName n) (h : t.resolve (Path.descend root names) = .ok place) :
    ∃ above, t.resolve root = .ok above ∧ place = above ++ names := by
  induction names generalizing root with
  | nil => exact ⟨place, h, (List.append_nil place).symm⟩
  | cons n names ih =>
    have hn : Path.IsName n := hnames n List.mem_cons_self
    have hrest : ∀ m ∈ names, Path.IsName m := fun m hm => hnames m (List.mem_cons_of_mem n hm)
    obtain ⟨middle, hmiddle, rfl⟩ := ih (Path.join_ne_empty hroot hn) hrest h
    obtain ⟨above, habove, hstep⟩ := exists_resolve_of_join hroot hn.relative hmiddle
    rw [hn.pieces, List.map_singleton, String.ofList_toList, follow_cons_eq_ok_iff] at hstep
    obtain ⟨-, next, hnext, hstop⟩ := hstep
    cases hstop
    refine ⟨above, habove, ?_⟩
    rw [stepTo?_of_isName hn hnext, List.append_assoc]
    rfl

/-! ## Changes -/

/-- A look-up in what is left of the items after a choice by place. -/
theorem lookup_filter (keep : List String → Bool) (items : List (List String × FileItem))
    (place : List String) :
    (items.filter fun (p, _) => keep p).lookup place =
      if keep place then items.lookup place else none := by
  induction items with
  | nil => simp
  | cons entry items ih =>
    obtain ⟨p, item⟩ := entry
    rw [List.filter_cons, apply_ite (List.lookup place), ih]
    by_cases hp : place = p
    · subst hp
      by_cases hk : keep place = true <;> simp [hk]
    · have hbeq : (place == p) = false := beq_eq_false_iff_ne.mpr hp
      simp only [List.lookup_cons, hbeq, ih, ite_self]

/-- What is put at a place stands there, and nothing else changes. -/
theorem item?_put {place : List String} (hplace : place ≠ []) (item : FileItem)
    (other : List String) :
    (t.put place item).item? other = if other = place then some item else t.item? other := by
  have hlookup := lookup_filter (fun p => decide (p ≠ place)) t.items other
  unfold item? put
  rw [List.lookup_append, hlookup]
  by_cases hother : other = place
  · subst hother
    simp [hplace]
  · have hbeq : (other == place) = false := beq_eq_false_iff_ne.mpr hother
    simp [hother, hbeq, List.lookup_cons]

theorem put_put (place : List String) (item item' : FileItem) :
    (t.put place item).put place item' = t.put place item' := by
  simp [put, List.filter_append, List.filter_filter]

theorem ne_nil_of_not_isDirectory {place : List String} (h : t.isDirectory place = false) :
    place ≠ [] := by
  rintro rfl
  simp [isDirectory, item?, FileItem.isDirectory] at h

theorem createFault?_eq_none_iff {place : List String} :
    t.createFault? place = none ↔
      t.item? place = none ∨ ∃ content, t.item? place = some (.file content) := by
  unfold createFault?
  cases t.item? place with
  | none => simp
  | some item => cases item <;> simp

/-- Where a file can be created there is no directory. -/
theorem isDirectory_of_createFault? {place : List String} (h : t.createFault? place = none) :
    t.isDirectory place = false := by
  rcases createFault?_eq_none_iff.mp h with hnone | ⟨content, hfile⟩
  · simp [isDirectory, hnone]
  · simp [isDirectory, hfile, FileItem.isDirectory]

theorem isOpen_of_not_isDirectory {place : List String} (h : t.isDirectory place = false) :
    t.isOpen place = false := by
  rw [Bool.eq_false_iff]
  intro hopen
  rw [isOpen, beq_iff_eq] at hopen
  simp [isDirectory, hopen, FileItem.isDirectory] at h

theorem isOpen_put_file {place : List String} (h : t.isDirectory place = false)
    (content : List UInt8) (other : List String) :
    (t.put place (.file content)).isOpen other = t.isOpen other := by
  have hclosed := isOpen_of_not_isDirectory h
  unfold isOpen
  rw [item?_put (ne_nil_of_not_isDirectory h)]
  by_cases hother : other = place
  · subst hother
    simpa [isOpen] using hclosed
  · rw [if_neg hother]

theorem create_eq_ok_iff {place : List String} {t' : FileTree} :
    t.create path = .ok (place, t') ↔
      t.resolve path = .ok place ∧ t.createFault? place = none ∧ t' = t.put place (.file []) := by
  unfold create
  by_cases hslash : path.endsWith "/" = true
  · rw [if_pos hslash]
    constructor
    · intro h
      cases hres : t.resolve (Path.dropSlashes path) <;> simp [hres, bind, Except.bind] at h
    · rintro ⟨hres, hfree, -⟩
      have hopen := isOpen_of_resolve_slash hslash hres
      rw [isOpen_of_not_isDirectory (isDirectory_of_createFault? hfree)] at hopen
      cases hopen
  · rw [if_neg hslash]
    cases t.resolve path with
    | error fault => simp [bind, Except.bind]
    | ok found =>
      simp only [bind, Except.bind, pure, Except.pure, Except.ok.injEq]
      cases hfree : t.createFault? found with
      | some fault =>
        simp only [reduceCtorEq, false_iff, not_and]
        rintro rfl hnone
        rw [hfree] at hnone
        cases hnone
      | none =>
        simp only [Except.ok.injEq, Prod.mk.injEq]
        constructor
        · rintro ⟨rfl, rfl⟩
          exact ⟨rfl, hfree, rfl⟩
        · rintro ⟨rfl, -, rfl⟩
          exact ⟨rfl, rfl⟩

/-- A file that has just been created holds what is added to it. -/
theorem append_create {place : List String} {t' : FileTree} (h : t.create path = .ok (place, t'))
    (bytes : List UInt8) : t'.append place bytes = t.put place (.file bytes) := by
  obtain ⟨-, hfree, rfl⟩ := create_eq_ok_iff.mp h
  have hplace := ne_nil_of_not_isDirectory (isDirectory_of_createFault? hfree)
  simp [append, item?_put hplace, put_put]

/-- A file reads as what was put there, by the path that led there before. -/
theorem read_put {place : List String} (hres : t.resolve path = .ok place)
    (hdir : t.isDirectory place = false) (bytes : List UInt8) :
    (t.put place (.file bytes)).read path = .ok bytes := by
  refine read_eq_ok_iff.mpr ⟨place, ?_, ?_⟩
  · refine (resolve_eq_ok_congr ?_ (isOpen_put_file hdir bytes)).mpr hres
    rfl
  · rw [item?_put (ne_nil_of_not_isDirectory hdir), if_pos rfl]

end Lineage.FileTree
