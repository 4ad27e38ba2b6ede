import Lineage.Php.Extraction
import Lineage.Proofs.Lists
import Lineage.Proofs.Php.SyntaxTree

/-!
# The classes of a syntax tree

Extraction walks down a tree and stops at classes. Here its records are described by places in the
tree alone.

**Sites (`LeadsToClass`).** A path of child numbers that goes through named nodes to a class with a
name, and through no class before. `classSites` lists the sites with their classes, in lexicographic
order of the paths, which is document order. A name has to lie in the source (`hasName`), as all names
do in a tree that lies there itself (`hasName_eq`).

**Records (`Describes`).** What the record of a class says: its name, its parent's name, its line and
file, and its methods, which are those children of its body that declare one and have a name.

**Result (`extract_classes`).** A tree without faults has one record for each site, in document
order. If the tree is in the order of its source, lines never go back: not from class to class, not
from method to method, and not from a class to its methods.
-/
namespace Lineage.Php.SyntaxTree
variable {t c n b : SyntaxTree} {source : List UInt8} {file : String} {p q : List Nat}

/-! ## Sites -/

/-- Has the node a child in the role of its name, which is a part of the source? -/
def hasName (source : List UInt8) (t : SyntaxTree) : Bool :=
  (t.childInRole? .name).any (isWithin source)

/-- The path `p` leads through named nodes to the class `c`, which has a name, and meets no class
on the way. -/
structure LeadsToClass (source : List UInt8) (t : SyntaxTree) (p : List Nat) (c : SyntaxTree) :
    Prop where
  target : t.at? p = some c
  kind : c.kind = .classDeclaration
  name : c.hasName source = true
  named : ∀ q, q <+: p → q ≠ [] → ∀ n, t.at? q = some n → n.isNamed = true
  outermost : ∀ q, q <+: p → q ≠ p → ∀ n, t.at? q = some n → n.kind ≠ .classDeclaration

/-- A class is its own site, if it has a name. -/
theorem leadsToClass_iff_of_class (h : t.kind = .classDeclaration) :
    t.LeadsToClass source p c ↔ t.hasName source = true ∧ p = [] ∧ c = t := by
  constructor
  · intro hp
    have hnil : p = [] := by
      by_contra hne
      exact hp.outermost [] List.nil_prefix (Ne.symm hne) t rfl h
    subst hnil
    have hc := (Option.some.inj hp.target).symm
    exact ⟨hc ▸ hp.name, rfl, hc⟩
  · rintro ⟨hname, rfl, rfl⟩
    refine ⟨rfl, h, hname, ?_, ?_⟩
    · intro q hq hne
      exact absurd (List.prefix_nil.mp hq) hne
    · intro q hq hne
      exact absurd (List.prefix_nil.mp hq) hne

/-- A site below another node is one below a named child. -/
theorem leadsToClass_iff_of_not_class (h : t.kind ≠ .classDeclaration) :
    t.LeadsToClass source p c ↔ ∃ i q d, t.children[i]? = some d ∧ d.isNamed = true ∧ p = i :: q ∧
      d.LeadsToClass source q c := by
  constructor
  · intro hp
    cases p with
    | nil =>
      have hc := Option.some.inj hp.target
      exact absurd (hc ▸ hp.kind) h
    | cons i q =>
      obtain ⟨d, hd, hq⟩ := Option.bind_eq_some_iff.mp hp.target
      refine ⟨i, q, d, hd, ?_, rfl, hq, hp.kind, hp.name, ?_, ?_⟩
      · exact hp.named [i] (by simp) (by simp) d (at?_cons hd [])
      · intro r hr _ n hn
        rw [← at?_cons hd] at hn
        exact hp.named (i :: r) (by simpa using hr) (by simp) n hn
      · intro r hr hne n hn
        rw [← at?_cons hd] at hn
        exact hp.outermost (i :: r) (by simpa using hr) (by simpa using hne) n hn
  · rintro ⟨i, q, d, hd, hnamed, rfl, hq⟩
    refine ⟨?_, hq.kind, hq.name, ?_, ?_⟩
    · rw [at?_cons hd, hq.target]
    · intro r hr hne n hn
      cases r with
      | nil => exact absurd rfl hne
      | cons j r =>
        obtain ⟨rfl, hrq⟩ := List.cons_prefix_cons.mp hr
        rw [at?_cons hd] at hn
        by_cases hnil : r = []
        · subst hnil
          exact Option.some.inj hn ▸ hnamed
        · exact hq.named r hrq hnil n hn
    · intro r hr hne n hn
      cases r with
      | nil => exact Option.some.inj hn ▸ h
      | cons j r =>
        obtain ⟨rfl, hrq⟩ := List.cons_prefix_cons.mp hr
        rw [at?_cons hd] at hn
        exact hq.outermost r hrq (by simpa using hne) n hn

mutual

/-- The sites of the classes of a tree, each with its class, in document order. -/
def classSites (source : List UInt8) : SyntaxTree → List (List Nat × SyntaxTree)
  | node k r m s cs =>
    if k = .classDeclaration then
      if (node k r m s cs).hasName source then [([], node k r m s cs)] else []
    else classSitesFrom source 0 cs

/-- The sites below siblings, the first of which has the number `i`. -/
def classSitesFrom (source : List UInt8) (i : Nat) :
    List SyntaxTree → List (List Nat × SyntaxTree)
  | [] => []
  | t :: ts =>
    (if t.isNamed then (t.classSites source).map fun (p, c) => (i :: p, c) else []) ++
      classSitesFrom source (i + 1) ts

end

theorem mem_classSitesFrom {i : Nat} {ts : List SyntaxTree} :
    (p, c) ∈ classSitesFrom source i ts ↔ ∃ j q d, ts[j]? = some d ∧ d.isNamed = true ∧
      p = (i + j) :: q ∧ (q, c) ∈ d.classSites source := by
  induction ts generalizing i with
  | nil => simp [classSitesFrom]
  | cons t ts ih =>
    rw [classSitesFrom, List.mem_append, ih]
    constructor
    · rintro (h | ⟨j, q, d, hd, hnamed, rfl, hq⟩)
      · split at h
        · rename_i hnamed
          obtain ⟨⟨q, c'⟩, hq, heq⟩ := List.mem_map.mp h
          cases heq
          exact ⟨0, q, t, rfl, hnamed, rfl, hq⟩
        · cases h
      · exact ⟨j + 1, q, d, hd, hnamed, by simp; omega, hq⟩
    · rintro ⟨j, q, d, hd, hnamed, rfl, hq⟩
      cases j with
      | zero =>
        cases hd
        left
        rw [if_pos hnamed]
        exact List.mem_map.mpr ⟨(q, c), hq, rfl⟩
      | succ j => exact Or.inr ⟨j, q, d, hd, hnamed, by simp; omega, hq⟩

/-- The sites listed are all there are. -/
theorem mem_classSites : (p, c) ∈ t.classSites source ↔ t.LeadsToClass source p c := by
  induction t using induction generalizing p c with
  | node k r m s cs ih =>
    rw [classSites]
    by_cases hk : k = .classDeclaration
    · rw [if_pos hk, leadsToClass_iff_of_class (t := .node k r m s cs) hk]
      split <;> simp_all
    · rw [if_neg hk, leadsToClass_iff_of_not_class (t := .node k r m s cs) hk, mem_classSitesFrom]
      constructor
      · rintro ⟨i, q, d, hd, hnamed, rfl, hq⟩
        exact ⟨i, q, d, hd, hnamed, by simp, (ih d (List.mem_of_getElem? hd)).mp hq⟩
      · rintro ⟨i, q, d, hd, hnamed, rfl, hq⟩
        exact ⟨i, q, d, hd, hnamed, by simp, (ih d (List.mem_of_getElem? hd)).mpr hq⟩

/-- The paths of the sites below siblings ascend, if those below each of them do. -/
theorem pairwise_classSitesFrom {i : Nat} {ts : List SyntaxTree}
    (h : ∀ t ∈ ts, (t.classSites source).Pairwise fun x y => List.Lex (· < ·) x.1 y.1) :
    (classSitesFrom source i ts).Pairwise fun x y => List.Lex (· < ·) x.1 y.1 := by
  induction ts generalizing i with
  | nil => exact .nil
  | cons t ts ih =>
    rw [classSitesFrom, List.pairwise_append]
    refine ⟨?_, ih fun d hd => h d (List.mem_cons_of_mem t hd), ?_⟩
    · split
      · rw [List.pairwise_map]
        exact (h t List.mem_cons_self).imp fun hlex => List.Lex.cons hlex
      · exact .nil
    · rintro x hx ⟨p, c⟩ hy
      split at hx
      · obtain ⟨⟨q, d⟩, -, rfl⟩ := List.mem_map.mp hx
        obtain ⟨j, q', d', -, -, rfl, -⟩ := mem_classSitesFrom.mp hy
        exact List.Lex.rel (by omega)
      · cases hx

/-- Sites are listed in document order. -/
theorem pairwise_classSites (source : List UInt8) (t : SyntaxTree) :
    (t.classSites source).Pairwise fun x y => List.Lex (· < ·) x.1 y.1 := by
  induction t using induction with
  | node k r m s cs ih =>
    rw [classSites]
    split
    · split <;> simp
    · exact pairwise_classSitesFrom ih

/-! ## Records -/

theorem nameText?_isSome (source : List UInt8) (n : SyntaxTree) :
    (n.nameText? source).isSome = n.hasName source := by
  unfold nameText? hasName
  cases n.childInRole? .name with
  | none => rfl
  | some c => cases hc : c.isWithin source <;> simp [text?, hc]

theorem classDecl?_isSome (source : List UInt8) (file : String) (c : SyntaxTree) :
    (c.classDecl? source file).isSome = c.hasName source := by
  rw [classDecl?, Option.isSome_map, nameText?_isSome]

theorem method?_isSome (source : List UInt8) (n : SyntaxTree) :
    (n.method? source).isSome = n.hasName source := by
  rw [method?, Option.isSome_map, nameText?_isSome]

theorem forall₂_classesOfAll {i : Nat} {ts : List SyntaxTree}
    (h : ∀ t ∈ ts, List.Forall₂ (fun x d => classDecl? source file x.2 = some d)
      (t.classSites source) (t.classes source file)) :
    List.Forall₂ (fun x d => classDecl? source file x.2 = some d) (classSitesFrom source i ts)
      (classesOfAll source file ts) := by
  induction ts generalizing i with
  | nil => exact .nil
  | cons t ts ih =>
    rw [classSitesFrom, classesOfAll]
    refine List.rel_append ?_ (ih fun d hd => h d (List.mem_cons_of_mem t hd))
    split
    · exact List.forall₂_map_left_iff.mpr (h t List.mem_cons_self)
    · exact .nil

/-- Every site gives its record, and there are no other records. -/
theorem forall₂_classes (source : List UInt8) (file : String) (t : SyntaxTree) :
    List.Forall₂ (fun x d => classDecl? source file x.2 = some d) (t.classSites source)
      (t.classes source file) := by
  induction t using induction with
  | node k r m s cs ih =>
    rw [classSites, classes]
    by_cases hk : k = .classDeclaration
    · rw [if_pos hk, if_pos hk]
      have hsome := classDecl?_isSome source file (.node k r m s cs)
      cases hd : classDecl? source file (.node k r m s cs) with
      | none =>
        rw [hd] at hsome
        rw [← hsome]
        exact .nil
      | some d =>
        rw [hd] at hsome
        rw [← hsome]
        exact .cons hd .nil
    · rw [if_neg hk, if_neg hk]
      exact forall₂_classesOfAll ih

def body? (c : SyntaxTree) : Option SyntaxTree :=
  (c.childInRole? .body).or (c.childOfKind? .declarationList)

/-- The methods in the body of a class. -/
def methodNodes (source : List UInt8) (c : SyntaxTree) : List SyntaxTree :=
  ((c.body?.map namedChildren).getD []).filter fun n =>
    n.kind == .methodDeclaration && n.hasName source

/-- `d` is the record of the class `c`. -/
structure Describes (source : List UInt8) (file : String) (c : SyntaxTree) (d : ClassDecl) :
    Prop where
  name : c.nameText? source = some d.name
  parentName : d.parentName = c.parentName? source
  location : d.location = some ⟨file, c.line⟩
  methods : List.Forall₂
    (fun n m => n.method? source = some m ∧ n.nameText? source = some m.name ∧
      m.line = some n.line) (c.methodNodes source) d.methods

theorem line_of_method? {m : Method} (h : n.method? source = some m) :
    n.nameText? source = some m.name ∧ m.line = some n.line := by
  obtain ⟨name, hname, rfl⟩ := Option.map_eq_some_iff.mp h
  exact ⟨hname, rfl⟩

/-- Of the children that declare a method, those with a name give one. -/
theorem filter_methods (source : List UInt8) (c : SyntaxTree) :
    ((c.body?.map fun b => b.namedChildren.filter (·.kind == .methodDeclaration)).getD []).filter
      (fun n => (n.method? source).isSome) = c.methodNodes source := by
  unfold methodNodes
  cases c.body? with
  | none => rfl
  | some b =>
    simp only [Option.map_some, Option.getD_some, List.filter_filter, method?_isSome]
    exact List.filter_congr fun n _ => Bool.and_comm _ _

theorem describes_of_classDecl? {d : ClassDecl} (h : c.classDecl? source file = some d) :
    Describes source file c d := by
  obtain ⟨name, hname, rfl⟩ := Option.map_eq_some_iff.mp h
  refine ⟨hname, rfl, rfl, ?_⟩
  rw [← filter_methods source c]
  refine (forall₂_filterMap (method? source) _).imp ?_
  intro n m hm
  exact ⟨hm, line_of_method? hm⟩

/-! ## Lines -/

theorem body?_mem (h : c.body? = some b) : b ∈ c.children := by
  rcases Option.or_eq_some_iff.mp h with hrole | ⟨-, hkind⟩
  · exact List.mem_of_find?_eq_some hrole
  · exact List.mem_of_find?_eq_some hkind

/-- The methods of a class stand in its body, in their order. -/
theorem methodNodes_sublist (source : List UInt8) (h : c.body? = some b) :
    (c.methodNodes source).Sublist b.children := by
  rw [methodNodes, h]
  exact List.filter_sublist.trans List.filter_sublist

/-- The methods of an orderly class start no earlier than the class, and none earlier than the one
before it. -/
theorem lines_of_methodNodes (h : ∀ x ∈ c.nodes, x.Orderly source) :
    ((c.methodNodes source).map line).Pairwise (· ≤ ·) ∧
      ∀ l ∈ (c.methodNodes source).map line, c.line ≤ l := by
  cases hb : c.body? with
  | none =>
    have hnone : c.methodNodes source = [] := by rw [methodNodes, hb]; rfl
    simp [hnone]
  | some b =>
    have hmem : ∀ x ∈ b.children, x ∈ c.nodes := fun x hx =>
      nodes_subset_of_mem (body?_mem hb) (mem_nodes_iff.mpr (Or.inr ⟨x, hx, self_mem_nodes x⟩))
    have hsub := methodNodes_sublist source hb
    constructor
    · have hbody := h b (nodes_subset_of_mem (body?_mem hb) (self_mem_nodes b))
      rw [List.pairwise_map]
      refine (hbody.ordered.imp_of_mem ?_).sublist hsub
      intro x y hx hy hxy
      have hforward := (h x (hmem x hx)).forward
      exact (h x (hmem x hx)).line_le (h y (hmem y hy)) (by omega)
    · intro l hl
      obtain ⟨n, hn, rfl⟩ := List.mem_map.mp hl
      have hn := hmem n (hsub.subset hn)
      exact (h c (self_mem_nodes c)).line_le (h n hn) (inside_of_mem_nodes h hn).1

/-- A record whose lines never go back: from the class to its methods, and from each method to the
next. -/
def LinesAscend (d : ClassDecl) : Prop :=
  ∃ (first : Nat) (lines : List Nat), d.location.map (·.line) = some first ∧
    d.methods.map (·.line) = lines.map some ∧ lines.Pairwise (· ≤ ·) ∧ ∀ l ∈ lines, first ≤ l

theorem Describes.linesAscend {d : ClassDecl} (hd : Describes source file c d)
    (h : ∀ x ∈ c.nodes, x.Orderly source) : LinesAscend d := by
  obtain ⟨hpair, hfirst⟩ := lines_of_methodNodes h
  refine ⟨c.line, (c.methodNodes source).map line, by rw [hd.location]; rfl, ?_, hpair, hfirst⟩
  rw [List.map_map]
  exact (map_eq_map_of_forall₂ hd.methods fun n m hm => hm.2.2.symm).symm

theorem mem_nodes_of_mem_classSites {x : List Nat × SyntaxTree} (h : x ∈ t.classSites source) :
    x.2 ∈ t.nodes :=
  mem_nodes_iff_at?.mpr ⟨x.1, (mem_classSites.mp h).target⟩

/-- In an orderly tree that lies in its source, every name does. -/
theorem hasName_eq (horder : ∀ x ∈ t.nodes, x.Orderly source) (hwithin : t.isWithin source = true)
    (hn : n ∈ t.nodes) : n.hasName source = (n.childInRole? .name).isSome := by
  unfold hasName
  cases hc : n.childInRole? .name with
  | none => rfl
  | some c =>
    have hmem : c ∈ t.nodes := nodes_subset hn
      (nodes_subset_of_mem (List.mem_of_find?_eq_some hc) (self_mem_nodes c))
    have hinside := (inside_of_mem_nodes horder hmem).2
    have hforward := (horder c hmem).forward
    simp only [isWithin, Bool.and_eq_true, decide_eq_true_eq] at hwithin
    simp only [Option.any_some, Option.isSome_some, isWithin, Bool.and_eq_true, decide_eq_true_eq]
    omega

/-- **Classes in source order.** A tree without faults yields its records. They belong, one to one
and in document order, to the classes with a name that are reached through named nodes and are inside
no other class. Each record has the line of its class in the file, and the methods of the class in
order. Where the tree is in the order of its source, lines never go back. To have a name is to have a
child in that role, if the tree lies in its source. -/
theorem extract_classes (source : List UInt8) (file : String) (t : SyntaxTree)
    (hclean : t.hasError = false) (horder : ∀ n ∈ t.nodes, n.Orderly source) :
    (∃ (sites : List (List Nat × SyntaxTree)) (ds : List ClassDecl),
      t.extract source file = .ok ds ∧
      (∀ p c, (p, c) ∈ sites ↔ t.LeadsToClass source p c) ∧
      sites.Pairwise (fun x y => List.Lex (· < ·) x.1 y.1) ∧
      List.Forall₂ (fun x d => Describes source file x.2 d ∧ LinesAscend d) sites ds ∧
      ∃ lines : List Nat, ds.map (·.location) = lines.map (fun l => some ⟨file, l⟩) ∧
        lines.Pairwise (· ≤ ·)) ∧
      (t.isWithin source = true →
        ∀ n ∈ t.nodes, n.hasName source = (n.childInRole? .name).isSome) := by
  have hrecords := forall₂_classes source file t
  refine ⟨⟨t.classSites source, t.classes source file, ?_, fun _ _ => mem_classSites,
    t.pairwise_classSites source, ?_, (t.classSites source).map fun x => x.2.line, ?_, ?_⟩,
    fun hwithin n hn => hasName_eq horder hwithin hn⟩
  · rw [extract, hclean]
    rfl
  · have hsites : ∀ x ∈ t.classSites source, ∀ n ∈ x.2.nodes, n.Orderly source := fun x hx n hn =>
      horder n (nodes_subset (mem_nodes_of_mem_classSites hx) hn)
    refine ((List.forall₂_and_left _ _).mpr ⟨hsites, hrecords⟩).imp ?_
    rintro x d ⟨hx, hd⟩
    have hdescribes := describes_of_classDecl? hd
    exact ⟨hdescribes, hdescribes.linesAscend hx⟩
  · rw [List.map_map]
    exact (map_eq_map_of_forall₂ hrecords fun x d hd =>
      (describes_of_classDecl? hd).location.symm).symm
  · rw [List.pairwise_map]
    refine (t.pairwise_classSites source).imp_of_mem ?_
    intro x y hx hy hlex
    exact line_le_of_lex horder (mem_classSites.mp hx).target (mem_classSites.mp hy).target hlex

/-- A class in a block, with two methods, and another class behind the block. -/
def blockAndClass : List UInt8 :=
  Text.Utf8.encode
    "<?php\n\x7b\n class A \x7b\n  function f();\n  function g();\n \x7d\n\x7d\nclass B \x7b\x7d\n"

/-- The tree of `blockAndClass`. -/
def blockAndClassTree : SyntaxTree :=
  .node .program none false ⟨0, 67, 0⟩ [
    .node .block none false ⟨6, 55, 1⟩ [
      .node .token none false ⟨6, 7, 1⟩ [],
      .node .classDeclaration none false ⟨9, 53, 2⟩ [
        .node .token none false ⟨9, 14, 2⟩ [],
        .node .name (some .name) false ⟨15, 16, 2⟩ [],
        .node .declarationList (some .body) false ⟨17, 53, 2⟩ [
          .node .token none false ⟨17, 18, 2⟩ [],
          .node .methodDeclaration none false ⟨21, 34, 3⟩ [
            .node .token none false ⟨21, 29, 3⟩ [],
            .node .name (some .name) false ⟨30, 31, 3⟩ [],
            .node .formalParameters (some .parameters) false ⟨31, 33, 3⟩ [
              .node .token none false ⟨31, 32, 3⟩ [],
              .node .token none false ⟨32, 33, 3⟩ []],
            .node .token none false ⟨33, 34, 3⟩ []],
          .node .methodDeclaration none false ⟨37, 50, 4⟩ [
            .node .token none false ⟨37, 45, 4⟩ [],
            .node .name (some .name) false ⟨46, 47, 4⟩ [],
            .node .formalParameters (some .parameters) false ⟨47, 49, 4⟩ [
              .node .token none false ⟨47, 48, 4⟩ [],
              .node .token none false ⟨48, 49, 4⟩ []],
            .node .token none false ⟨49, 50, 4⟩ []],
          .node .token none false ⟨52, 53, 5⟩ []]],
      .node .token none false ⟨54, 55, 6⟩ []],
    .node .classDeclaration none false ⟨56, 66, 7⟩ [
      .node .token none false ⟨56, 61, 7⟩ [],
      .node .name (some .name) false ⟨62, 63, 7⟩ [],
      .node .declarationList (some .body) false ⟨64, 66, 7⟩ [
        .node .token none false ⟨64, 65, 7⟩ [],
        .node .token none false ⟨65, 66, 7⟩ []]]]

theorem blockAndClass_classes :
    blockAndClassTree.hasError = false ∧
      (∀ n ∈ blockAndClassTree.nodes, n.Orderly blockAndClass) ∧
      blockAndClassTree.isWithin blockAndClass = true ∧
      ∃ sites ds, blockAndClassTree.extract blockAndClass "a.php" = .ok ds ∧
        List.Forall₂ (fun (x : List Nat × SyntaxTree) d =>
          Describes blockAndClass "a.php" x.2 d ∧ LinesAscend d) sites ds ∧
        ds.map (fun d => (d.name, d.location.map (·.line), d.methods.map (·.line))) =
          [("A", some 3, [some 4, some 5]), ("B", some 8, [])] := by
  have hclean : blockAndClassTree.hasError = false := by decide
  have horder : ∀ n ∈ blockAndClassTree.nodes, n.Orderly blockAndClass := by decide +kernel
  obtain ⟨⟨sites, ds, hok, -, -, hrecords, -⟩, -⟩ :=
    extract_classes blockAndClass "a.php" blockAndClassTree hclean horder
  refine ⟨hclean, horder, by decide +kernel, sites, ds, hok, hrecords, ?_⟩
  have hds : blockAndClassTree.classes blockAndClass "a.php" = ds := by
    rw [extract, hclean] at hok
    exact Except.ok.inj hok
  rw [← hds]
  decide +kernel

end Lineage.Php.SyntaxTree
