import Mathlib.Logic.Relation
import Mathlib.Order.WellFounded
import Lineage.Forest.Build

/-!
# Parent and child links

A node is read through four views: its declaration, its parent, its children, and the list of roots
it may stand in. Here is what each building operation does to each view, and the invariant that
holds of the links at every moment, also while a new node hangs below no root.

**Links (`Linked`).** Every node stores its own id. The child lists and the parent fields are two
records of one relation, no child list repeats an entry, and following parents always ends. Whoever
reads the stored id thus reads the index (`Linked.find?_eq`, `Linked.map_id_eq`).

**Effects.**
* `push` adds a declaration and changes no link.
* `attach p c` sets the parent of `c` and appends `c` to the children of `p`.
* `adopt s v` does so for every root that waits for `s`, and takes these out of the root list.

`linked_attach` is the one place where a cycle could arise: the new parent must lie outside the
subtree that is attached.
-/
namespace Lineage.Forest

/-! ## Views -/

/-- The classes of the nodes, by id. -/
def declarations (f : Forest) : List ClassDecl := f.nodes.toList.map (·.declaration)

/-- The class at `id`. -/
def declaration? (f : Forest) (id : Nat) : Option ClassDecl := f.declarations[id]?

theorem declaration?_eq (f : Forest) (id : Nat) :
    f.declaration? id = (f.node? id).map (·.declaration) := by
  simp [declaration?, declarations, node?]

theorem length_declarations (f : Forest) : f.declarations.length = f.size := by
  simp [declarations, size]

theorem name?_eq (f : Forest) (id : Nat) : f.name? id = (f.declaration? id).map (·.name) := by
  rw [declaration?_eq, name?, Option.map_map]; rfl

theorem waitsFor_iff (f : Forest) (s : String) (id : Nat) :
    f.waitsFor s id = true ↔ ∃ d, f.declaration? id = some d ∧ d.parentName = some s := by
  rw [declaration?_eq, waitsFor]
  cases f.node? id <;> simp

theorem node?_isSome_iff (f : Forest) (id : Nat) : (f.node? id).isSome ↔ id < f.size := by
  simp [node?, size]

theorem exists_node {f : Forest} {id : Nat} (h : id < f.size) : ∃ n, f.node? id = some n :=
  Option.isSome_iff_exists.mp ((f.node?_isSome_iff id).mpr h)

theorem lt_of_parent? {f : Forest} {c p : Nat} (h : f.parent? c = some p) : c < f.size := by
  rw [← node?_isSome_iff]
  unfold parent? at h
  cases hn : f.node? c with
  | none => simp [hn] at h
  | some n => rfl

theorem lt_of_mem_children {f : Forest} {p c : Nat} (h : c ∈ f.children p) : p < f.size := by
  rw [← node?_isSome_iff]
  unfold children at h
  cases hn : f.node? p with
  | none => simp [hn] at h
  | some n => rfl

theorem children_of_node? {f : Forest} {id : Nat} {n : Node} (h : f.node? id = some n) :
    f.children id = n.children := by
  simp [children, h]

/-! ## Effects of the building operations -/

@[simp] theorem size_push (f : Forest) (d : ClassDecl) : (f.push d).size = f.size + 1 := by
  simp [push, size]

@[simp] theorem roots_push (f : Forest) (d : ClassDecl) : (f.push d).roots = f.roots := rfl

theorem node?_push (f : Forest) (d : ClassDecl) (i : Nat) :
    (f.push d).node? i = if i = f.size then some { id := f.size, declaration := d } else f.node? i := by
  by_cases h : i = f.size
  · rw [if_pos h]
    simp [push, node?, h, size]
  · rw [if_neg h]
    have h' : i ≠ f.nodes.size := h
    simp [push, node?, Array.getElem?_push, h']

/-- The new node has no parent, and neither has an id that no node carries. -/
@[simp] theorem parent?_push (f : Forest) (d : ClassDecl) (i : Nat) :
    (f.push d).parent? i = f.parent? i := by
  unfold parent?
  rw [node?_push]
  split
  · rename_i h
    have : f.node? i = none := by simp [h, node?, size]
    simp [this]
  · rfl

@[simp] theorem children_push (f : Forest) (d : ClassDecl) (i : Nat) :
    (f.push d).children i = f.children i := by
  unfold children
  rw [node?_push]
  split
  · rename_i h
    have : f.node? i = none := by simp [h, node?, size]
    simp [this]
  · rfl

@[simp] theorem declarations_push (f : Forest) (d : ClassDecl) :
    (f.push d).declarations = f.declarations ++ [d] := by
  simp [declarations, push]

@[simp] theorem size_attach (f : Forest) (p c : Nat) : (f.attach p c).size = f.size := by
  simp [attach, size]

@[simp] theorem roots_attach (f : Forest) (p c : Nat) : (f.attach p c).roots = f.roots := rfl

theorem node?_attach (f : Forest) (p c i : Nat) :
    (f.attach p c).node? i = (f.node? i).map fun n =>
      { n with
        parent := if i = c then some p else n.parent
        children := if i = p then n.children ++ [c] else n.children } := by
  simp only [attach, node?, Array.getElem?_modify, eq_comm (a := i)]
  cases f.nodes[i]? with
  | none => simp
  | some n => by_cases hc : c = i <;> by_cases hp : p = i <;> simp [hc, hp]

theorem parent?_attach {f : Forest} {c : Nat} (hc : c < f.size) (p i : Nat) :
    (f.attach p c).parent? i = if i = c then some p else f.parent? i := by
  unfold parent?
  rw [node?_attach]
  by_cases h : i = c
  · obtain ⟨n, hn⟩ := exists_node hc
    simp [h, hn]
  · simp only [h, if_false]
    cases f.node? i <;> rfl

theorem children_attach {f : Forest} {p : Nat} (hp : p < f.size) (c i : Nat) :
    (f.attach p c).children i = if i = p then f.children p ++ [c] else f.children i := by
  unfold children
  rw [node?_attach]
  by_cases h : i = p
  · obtain ⟨n, hn⟩ := exists_node hp
    simp [h, hn]
  · simp only [h, if_false]
    cases f.node? i <;> rfl

@[simp] theorem declarations_attach (f : Forest) (p c : Nat) :
    (f.attach p c).declarations = f.declarations := by
  apply List.ext_getElem?
  intro i
  change (f.attach p c).declaration? i = f.declaration? i
  rw [declaration?_eq, declaration?_eq, node?_attach, Option.map_map]
  rfl

@[simp] theorem size_addRoot (f : Forest) (v : Nat) : (f.addRoot v).size = f.size := rfl

@[simp] theorem roots_addRoot (f : Forest) (v : Nat) : (f.addRoot v).roots = f.roots ++ [v] := rfl

@[simp] theorem parent?_addRoot (f : Forest) (v i : Nat) :
    (f.addRoot v).parent? i = f.parent? i := rfl

@[simp] theorem children_addRoot (f : Forest) (v i : Nat) :
    (f.addRoot v).children i = f.children i := rfl

@[simp] theorem declarations_addRoot (f : Forest) (v : Nat) :
    (f.addRoot v).declarations = f.declarations := rfl

/-- The roots that wait for a class called `s`, in root order. -/
def waiting (f : Forest) (s : String) : List Nat := f.roots.filter (f.waitsFor s)

theorem mem_waiting {f : Forest} {s : String} {r : Nat} :
    r ∈ f.waiting s ↔ r ∈ f.roots ∧ ∃ d, f.declaration? r = some d ∧ d.parentName = some s := by
  rw [waiting, List.mem_filter, waitsFor_iff]

/-- `attach` for every id of `cs` in turn. -/
def attachAll (f : Forest) (v : Nat) (cs : List Nat) : Forest :=
  cs.foldl (fun g c => g.attach v c) f

theorem adopt_eq (f : Forest) (s : String) (v : Nat) :
    f.adopt s v =
      ({ f with roots := f.roots.filter fun r => !f.waitsFor s r } : Forest).attachAll v
        (f.waiting s) := rfl

@[simp] theorem size_attachAll (f : Forest) (v : Nat) (cs : List Nat) :
    (f.attachAll v cs).size = f.size := by
  induction cs generalizing f with
  | nil => rfl
  | cons c cs ih => exact (ih (f.attach v c)).trans (size_attach f v c)

@[simp] theorem roots_attachAll (f : Forest) (v : Nat) (cs : List Nat) :
    (f.attachAll v cs).roots = f.roots := by
  induction cs generalizing f with
  | nil => rfl
  | cons c cs ih => exact ih (f.attach v c)

@[simp] theorem declarations_attachAll (f : Forest) (v : Nat) (cs : List Nat) :
    (f.attachAll v cs).declarations = f.declarations := by
  induction cs generalizing f with
  | nil => rfl
  | cons c cs ih => exact (ih (f.attach v c)).trans (declarations_attach f v c)

theorem parent?_attachAll {f : Forest} {cs : List Nat} (hcs : ∀ c ∈ cs, c < f.size) (v i : Nat) :
    (f.attachAll v cs).parent? i = if i ∈ cs then some v else f.parent? i := by
  induction cs generalizing f with
  | nil => simp [attachAll]
  | cons c cs ih =>
    have hc : c < f.size := hcs c (by simp)
    have hrest : ∀ x ∈ cs, x < (f.attach v c).size := by
      intro x hx
      rw [size_attach]
      exact hcs x (by simp [hx])
    have hstep := ih hrest
    rw [parent?_attach hc] at hstep
    refine Eq.trans hstep ?_
    by_cases h1 : i ∈ cs <;> by_cases h2 : i = c <;> simp [h1, h2]

theorem children_attachAll {f : Forest} {v : Nat} (hv : v < f.size) (cs : List Nat) (i : Nat) :
    (f.attachAll v cs).children i = if i = v then f.children v ++ cs else f.children i := by
  induction cs generalizing f with
  | nil => by_cases h : i = v <;> simp [attachAll, h]
  | cons c cs ih =>
    have hstep := ih (f := f.attach v c) (by rwa [size_attach])
    rw [children_attach hv, children_attach hv] at hstep
    refine Eq.trans hstep ?_
    by_cases h : i = v <;> simp [h]

@[simp] theorem size_adopt (f : Forest) (s : String) (v : Nat) : (f.adopt s v).size = f.size := by
  rw [adopt_eq, size_attachAll]; rfl

theorem mem_roots_adopt {f : Forest} {s : String} {v r : Nat} :
    r ∈ (f.adopt s v).roots ↔ r ∈ f.roots ∧ r ∉ f.waiting s := by
  rw [adopt_eq, roots_attachAll, waiting]
  simp only [List.mem_filter, Bool.not_eq_true']
  cases f.waitsFor s r <;> simp

theorem roots_adopt_sublist (f : Forest) (s : String) (v : Nat) :
    (f.adopt s v).roots.Sublist f.roots := by
  rw [adopt_eq, roots_attachAll]
  exact List.filter_sublist

@[simp] theorem declarations_adopt (f : Forest) (s : String) (v : Nat) :
    (f.adopt s v).declarations = f.declarations := by
  rw [adopt_eq, declarations_attachAll]; rfl

theorem parent?_adopt {f : Forest} (hr : ∀ r ∈ f.roots, r < f.size) (s : String) (v i : Nat) :
    (f.adopt s v).parent? i = if i ∈ f.waiting s then some v else f.parent? i := by
  rw [adopt_eq, parent?_attachAll]
  · rfl
  · intro c hc
    exact hr c (mem_waiting.mp hc).1

theorem children_adopt {f : Forest} {v : Nat} (hv : v < f.size) (s : String) (i : Nat) :
    (f.adopt s v).children i = if i = v then f.children v ++ f.waiting s else f.children i := by
  rw [adopt_eq, children_attachAll (by exact hv)]
  rfl

/-! ## Ancestors -/

/-- `p` is the parent of `c`. -/
def Link (f : Forest) (c p : Nat) : Prop := f.parent? c = some p

/-- `a` is on the parent chain of `n`. -/
def ProperAncestor (f : Forest) (a n : Nat) : Prop := Relation.TransGen f.Link n a

/-- `n` is `a` or hangs below it. -/
def InSubtree (f : Forest) (a n : Nat) : Prop := Relation.ReflTransGen f.Link n a

theorem link_unique (f : Forest) : Relator.RightUnique f.Link :=
  fun _ _ _ h₁ h₂ => Option.some.inj (h₁.symm.trans h₂)

/-- Two nodes whose subtrees share a node lie on one chain. -/
theorem InSubtree.total {f : Forest} {a b n : Nat} (ha : f.InSubtree a n) (hb : f.InSubtree b n) :
    f.InSubtree a b ∨ f.InSubtree b a :=
  (Relation.ReflTransGen.total_of_right_unique f.link_unique ha hb).symm

/-- Nothing but `n` itself has a parentless `n` in its subtree. -/
theorem InSubtree.eq_of_top {f : Forest} {a n : Nat} (h : f.InSubtree a n)
    (htop : f.parent? n = none) : a = n := by
  rcases Relation.ReflTransGen.cases_head h with rfl | ⟨p, hp, -⟩
  · rfl
  · rw [Link, htop] at hp
    cases hp

theorem properAncestor_iff {f : Forest} {a n : Nat} :
    f.ProperAncestor a n ↔ ∃ p, f.parent? n = some p ∧ f.InSubtree a p :=
  Relation.TransGen.head'_iff

theorem inSubtree_iff {f : Forest} {a n : Nat} :
    f.InSubtree a n ↔ n = a ∨ f.ProperAncestor a n := by
  rw [InSubtree, Relation.reflTransGen_iff_eq_or_transGen, eq_comm]
  rfl

theorem properAncestor_iff_of_some {f : Forest} {n p b : Nat} (hp : f.parent? n = some p) :
    f.ProperAncestor b n ↔ p = b ∨ f.ProperAncestor b p := by
  rw [properAncestor_iff, ← inSubtree_iff]
  constructor
  · intro hyp
    obtain ⟨q, hq, hb⟩ := hyp
    rw [hp] at hq
    cases hq
    exact hb
  · intro hb
    exact ⟨p, hp, hb⟩

theorem InSubtree.lt {f : Forest} {a n : Nat} (hn : f.InSubtree a n) (ha : a < f.size) :
    n < f.size := by
  rcases Relation.ReflTransGen.cases_head hn with rfl | ⟨p, hp, -⟩
  · exact ha
  · exact lt_of_parent? hp

/-- The subtree of `p` is `p` and the subtrees of its children. -/
theorem inSubtree_iff_child {f : Forest} {p n : Nat} :
    f.InSubtree p n ↔ n = p ∨ ∃ c, f.parent? c = some p ∧ f.InSubtree c n := by
  rw [InSubtree, Relation.ReflTransGen.cases_tail_iff]
  constructor
  · intro hyp
    rcases hyp with rfl | ⟨c, hc, hp⟩
    · exact Or.inl rfl
    · exact Or.inr ⟨c, hp, hc⟩
  · intro hyp
    rcases hyp with rfl | ⟨c, hp, hc⟩
    · exact Or.inl rfl
    · exact Or.inr ⟨c, hc, hp⟩

/-! ## Linked forests -/

/-- Every node stores its own id, child lists and parent fields agree, and following parents always
ends. -/
structure Linked (f : Forest) : Prop where
  id_eq : ∀ i n, f.node? i = some n → n.id = i
  child_iff : ∀ p c, c ∈ f.children p ↔ f.parent? c = some p
  nodup : ∀ p, (f.children p).Nodup
  grounded : WellFounded fun p c => f.Link c p

namespace Linked
variable {f : Forest}

theorem parent_lt (h : f.Linked) {c p : Nat} (hp : f.parent? c = some p) : p < f.size :=
  lt_of_mem_children ((h.child_iff p c).mpr hp)

theorem child_lt (h : f.Linked) {c p : Nat} (hc : c ∈ f.children p) : c < f.size :=
  lt_of_parent? ((h.child_iff p c).mp hc)

/-- A search by name through the nodes of a list of ids answers with one of these ids. -/
theorem find?_nodes_eq (h : f.Linked) (s : String) (ids : List Nat) :
    ((ids.filterMap f.node?).find? fun n => n.declaration.name == s).map (·.id) =
      ids.find? fun id => f.name? id == some s := by
  induction ids with
  | nil => rfl
  | cons id ids ih =>
    cases hn : f.node? id with
    | none =>
      have hname : f.name? id = none := by rw [name?, hn]; rfl
      rw [List.filterMap_cons_none hn, ih, List.find?_cons_of_neg (by simp [hname])]
    | some n =>
      have hname : f.name? id = some n.declaration.name := by rw [name?, hn]; rfl
      rw [List.filterMap_cons_some hn]
      by_cases hs : n.declaration.name = s
      · rw [List.find?_cons_of_pos (by simp [hs]), List.find?_cons_of_pos (by simp [hname, hs]),
          Option.map_some, h.id_eq id n hn]
      · rw [List.find?_cons_of_neg (by simp [hs]), List.find?_cons_of_neg (by simp [hname, hs]), ih]

theorem find?_eq (h : f.Linked) (s : String) :
    f.find? s = f.order.find? fun id => f.name? id == some s :=
  h.find?_nodes_eq s f.order

theorem map_id_eq (h : f.Linked) : f.nodes.toList.map (·.id) = List.range f.size := by
  refine List.ext_getElem? fun i => ?_
  rw [List.getElem?_map, Array.getElem?_toList]
  change (f.node? i).map _ = _
  cases hn : f.node? i with
  | none =>
    have hi : f.size ≤ i := by
      rw [← Nat.not_lt, ← node?_isSome_iff, hn]
      exact Bool.false_ne_true
    rw [List.getElem?_eq_none (by simpa using hi)]
    rfl
  | some n =>
    have hi : i < f.size := (f.node?_isSome_iff i).mp (by rw [hn]; rfl)
    rw [List.getElem?_range hi, Option.map_some, h.id_eq i n hn]

theorem maxDepth_eq_foldl (h : f.Linked) :
    f.stats.maxDepth = ((List.range f.size).map f.depth).foldl max 0 := by
  rw [← h.map_id_eq, List.map_map]
  rfl

theorem acyclic (h : f.Linked) (n : Nat) : ¬ f.ProperAncestor n n := by
  intro hn
  have hwf := h.grounded.transGen
  have hloop : Relation.TransGen (fun p c => f.Link c p) n n := Relation.transGen_swap.mpr hn
  exact hwf.irrefl.irrefl n hloop

theorem ancestor_lt (h : f.Linked) {a n : Nat} (ha : f.ProperAncestor a n) : a < f.size := by
  obtain ⟨c, -, hc⟩ := Relation.TransGen.tail'_iff.mp ha
  exact h.parent_lt hc

/-- A child's subtree does not hold its parent. -/
theorem not_inSubtree_parent (h : f.Linked) {c p : Nat} (hp : f.parent? c = some p) :
    ¬ f.InSubtree c p :=
  fun hc => h.acyclic c (properAncestor_iff.mpr ⟨p, hp, hc⟩)

theorem not_inSubtree_sibling (h : f.Linked) {p c₁ c₂ : Nat} (h₁ : f.parent? c₁ = some p)
    (h₂ : f.parent? c₂ = some p) (hne : c₁ ≠ c₂) : ¬ f.InSubtree c₁ c₂ := by
  intro hc
  rcases inSubtree_iff.mp hc with rfl | ha
  · exact hne rfl
  · have hp := (properAncestor_iff_of_some h₂).mp ha
    exact h.not_inSubtree_parent h₁ (inSubtree_iff.mpr hp)

/-- Two children of one node share nothing below them. -/
theorem siblings_disjoint (h : f.Linked) {p c₁ c₂ n : Nat} (h₁ : f.parent? c₁ = some p)
    (h₂ : f.parent? c₂ = some p) (hne : c₁ ≠ c₂) (hn₁ : f.InSubtree c₁ n) : ¬ f.InSubtree c₂ n := by
  intro hn₂
  rcases hn₁.total hn₂ with hc | hc
  · exact h.not_inSubtree_sibling h₁ h₂ hne hc
  · exact h.not_inSubtree_sibling h₂ h₁ hne.symm hc

/-- Two nodes that hold each other in their subtrees are one. -/
theorem inSubtree_antisymm (h : f.Linked) {a b : Nat} (hab : f.InSubtree a b)
    (hba : f.InSubtree b a) : a = b := by
  rcases inSubtree_iff.mp hab with rfl | hanc
  · rfl
  · exact absurd (Relation.TransGen.trans_left hanc hba) (h.acyclic b)

/-- Every chain ends in a node without parent. -/
theorem exists_top (h : f.Linked) {n : Nat} (hn : n < f.size) :
    ∃ t, t < f.size ∧ f.parent? t = none ∧ f.InSubtree t n := by
  induction n using h.grounded.induction with
  | _ n ih =>
    cases hp : f.parent? n with
    | none => exact ⟨n, hn, hp, Relation.ReflTransGen.refl⟩
    | some p =>
      obtain ⟨t, ht, htop, hsub⟩ := ih p hp (h.parent_lt hp)
      exact ⟨t, ht, htop, Relation.ReflTransGen.head hp hsub⟩

/-- Two forests with the same links are linked alike. -/
theorem congr (h : f.Linked) {g : Forest} (hid : ∀ i n, g.node? i = some n → n.id = i)
    (hp : ∀ i, g.parent? i = f.parent? i) (hc : ∀ i, g.children i = f.children i) : g.Linked := by
  have hlink : g.Link = f.Link := by
    funext c p
    rw [Link, Link, hp]
  refine ⟨hid, ?_, ?_, ?_⟩
  · intro p c
    rw [hc, hp]
    exact h.child_iff p c
  · intro p
    rw [hc]
    exact h.nodup p
  · rw [hlink]
    exact h.grounded

/-! ## Preservation -/

theorem empty : ({} : Forest).Linked := by
  have hp : ∀ i, ({} : Forest).parent? i = none := by
    intro i
    simp [parent?, node?]
  have hc : ∀ i, ({} : Forest).children i = [] := by
    intro i
    simp [children, node?]
  refine ⟨?_, ?_, ?_, ⟨fun c => ⟨c, ?_⟩⟩⟩
  · intro i n hn
    simp [node?] at hn
  · intro p c
    simp [hp, hc]
  · intro p
    simp [hc]
  · intro p hl
    rw [Link, hp] at hl
    cases hl

theorem push (h : f.Linked) (d : ClassDecl) : (f.push d).Linked := by
  refine h.congr ?_ (parent?_push f d) (children_push f d)
  intro i n hn
  rw [node?_push] at hn
  split at hn
  · cases hn
    exact Eq.symm ‹i = f.size›
  · exact h.id_eq i n hn

/-- The subtree of `c` may hang below any node outside it. -/
theorem attach (h : f.Linked) {p c : Nat} (hp : p < f.size) (hc : c < f.size)
    (htop : f.parent? c = none) (hout : ¬ f.InSubtree c p) : (f.attach p c).Linked := by
  have hpar := parent?_attach hc p
  refine ⟨?_, ?_, ?_, ?_⟩
  · intro i n hn
    rw [node?_attach, Option.map_eq_some_iff] at hn
    obtain ⟨m, hm, rfl⟩ := hn
    exact h.id_eq i m hm
  · intro q i
    rw [children_attach hp, hpar]
    by_cases hq : q = p <;> by_cases hi : i = c
    · simp [hq, hi]
    · simp [hq, hi, h.child_iff]
    · have hno : c ∉ f.children q := by
        rw [h.child_iff, htop]
        simp
      simp [hq, hi, hno, Ne.symm hq]
    · simp [hq, hi, h.child_iff]
  · intro q
    rw [children_attach hp]
    split
    · have hno : c ∉ f.children p := by
        rw [h.child_iff, htop]
        simp
      exact List.nodup_append.mpr ⟨h.nodup p, by simp, by
        intro a ha b hb hab
        rw [List.mem_singleton] at hb
        exact hno (hb ▸ hab ▸ ha)⟩
    · exact h.nodup q
  · -- First the nodes outside the moved subtree, whose chains are the old ones; then the rest,
    -- whose chains reach `c` and go on from `p`.
    have houter : ∀ i, ¬ f.InSubtree c i → Acc (fun q i => (f.attach p c).Link i q) i := by
      intro i
      induction i using h.grounded.induction with
      | _ i ih =>
        intro hi
        refine ⟨_, fun q hq => ?_⟩
        have hne : i ≠ c := fun e => hi (e ▸ Relation.ReflTransGen.refl)
        rw [Link, hpar, if_neg hne] at hq
        exact ih q hq fun hsub => hi (Relation.ReflTransGen.head hq hsub)
    refine ⟨fun i => ?_⟩
    induction i using h.grounded.induction with
    | _ i ih =>
      refine ⟨_, fun q hq => ?_⟩
      rw [Link, hpar] at hq
      split at hq
      · cases hq
        exact houter p hout
      · exact ih q hq

theorem attachAll (h : f.Linked) {v : Nat} {cs : List Nat} (hv : v < f.size)
    (hvtop : f.parent? v = none) (hcs : ∀ c ∈ cs, c < f.size ∧ f.parent? c = none ∧ c ≠ v)
    (hnd : cs.Nodup) : (f.attachAll v cs).Linked := by
  induction cs generalizing f with
  | nil => exact h
  | cons c cs ih =>
    obtain ⟨hc, hctop, hcv⟩ := hcs c (by simp)
    have hout : ¬ f.InSubtree c v := fun hsub => hcv (hsub.eq_of_top hvtop)
    have hpar := parent?_attach hc v
    refine ih (h.attach hv hc hctop hout) (by rwa [size_attach]) ?_ ?_ (List.nodup_cons.mp hnd).2
    · rw [hpar, if_neg (Ne.symm hcv)]
      exact hvtop
    · intro x hx
      obtain ⟨hxs, hxtop, hxv⟩ := hcs x (by simp [hx])
      have hxc : x ≠ c := fun e => (List.nodup_cons.mp hnd).1 (e ▸ hx)
      rw [size_attach, hpar, if_neg hxc]
      exact ⟨hxs, hxtop, hxv⟩

theorem adopt (h : f.Linked) {s : String} {v : Nat} (hv : v < f.size) (hvtop : f.parent? v = none)
    (hroots : ∀ r ∈ f.roots, r < f.size ∧ f.parent? r = none ∧ r ≠ v) (hnd : f.roots.Nodup) :
    (f.adopt s v).Linked := by
  rw [adopt_eq]
  have hkept : ({ f with roots := f.roots.filter fun r => !f.waitsFor s r } : Forest).Linked :=
    h.congr h.id_eq (fun _ => rfl) (fun _ => rfl)
  refine hkept.attachAll hv hvtop ?_ (hnd.filter _)
  intro c hc
  exact hroots c (mem_waiting.mp hc).1

end Linked

end Lineage.Forest
