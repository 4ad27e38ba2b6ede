import Mathlib.Data.List.Lex
import Mathlib.Data.List.Sort
import Lineage.Proofs.Forest.Arrangement
import Lineage.Proofs.Forest.Subtrees

/-!
# The parent links decide the order

Child lists and root lists are kept beside the parent links, and a traversal reads them alone. They
hold nothing of their own all the same. Since they ascend (`Ascending`), a child list is the nodes
with that parent in order of arrival, and the root list is the nodes without one.

**Paths.** `path` leads from the root down to a node. It is read off the parent links. A node comes
before another in the forest if its path does in lexicographic order (`Before`): ahead of what hangs
below it, and two that part at some node in the order in which the branches arrived there.

**Results.**
* `WellFormed.order_sorted`: the whole forest is traversed in ascending order of paths.
* `build_canonical`: at every moment of a run all lists ascend, the links say what they are, and
  forests with the same links are traversed alike.
-/
namespace Lineage.Forest

/-! ## Lists of ids -/

/-- An ascending list of ids of nodes is read off the nodes in order of arrival. -/
theorem eq_filter_range {f : Forest} {l : List Nat} {p : Nat → Bool} (hl : l.Pairwise (· < ·))
    (hp : ∀ i, i ∈ l ↔ i < f.size ∧ p i = true) : l = (List.range f.size).filter p := by
  refine hl.eq_of_mem_iff (List.pairwise_lt_range.filter p) fun i => ?_
  rw [hp, List.mem_filter, List.mem_range]

namespace Ascending
variable {f : Forest}

theorem roots_eq (ha : f.Ascending) (h : f.WellFormed) :
    f.roots = (List.range f.size).filter fun i => f.parent? i = none := by
  refine eq_filter_range ha.roots fun i => ?_
  rw [decide_eq_true_iff]
  constructor
  · intro hi
    exact ⟨h.root_lt i hi, h.root_top i hi⟩
  · intro hyp
    obtain ⟨hi, htop⟩ := hyp
    exact h.complete i hi htop

theorem children_eq (ha : f.Ascending) (h : f.Linked) (p : Nat) :
    f.children p = (List.range f.size).filter fun i => f.parent? i = some p := by
  refine eq_filter_range (ha.children p) fun i => ?_
  rw [decide_eq_true_iff, h.child_iff]
  constructor
  · intro hi
    exact ⟨lt_of_parent? hi, hi⟩
  · intro hyp
    exact hyp.2

end Ascending

/-! ## Paths -/

/-- The way from the root down to `id`, both included. -/
def path (f : Forest) (id : Nat) : List Nat := (f.ancestors id).reverse ++ [id]

/-- The path of `x` is ahead of that of `y` in lexicographic order. -/
def Before (f : Forest) (x y : Nat) : Prop := List.Lex (· < ·) (f.path x) (f.path y)

theorem Before.asymm {f : Forest} {x y : Nat} (h : f.Before x y) : ¬ f.Before y x :=
  List.lex_asymm (fun hab => Nat.lt_asymm hab) h

theorem path_of_none {f : Forest} {id : Nat} (hp : f.parent? id = none) : f.path id = [id] := by
  rw [path, ancestors_of_none hp]
  rfl

/-- Paths that part at some point are in the order of the branches. -/
theorem before_of_branch {f : Forest} {r : List Nat} {i j x y : Nat} (hij : i < j)
    (hx : r ++ [i] <+: f.path x) (hy : r ++ [j] <+: f.path y) : f.Before x y := by
  obtain ⟨s, hs⟩ := hx
  obtain ⟨t, ht⟩ := hy
  rw [Before, ← hs, ← ht, List.append_assoc, List.append_assoc]
  exact List.Lex.append_left _ (List.Lex.rel hij) r

namespace Linked
variable {f : Forest}

theorem path_of_some (h : f.Linked) {c p : Nat} (hp : f.parent? c = some p) :
    f.path c = f.path p ++ [c] := by
  rw [path, h.ancestors_of_some hp, List.reverse_cons]
  rfl

theorem path_prefix (h : f.Linked) {a n : Nat} (hn : f.InSubtree a n) : f.path a <+: f.path n := by
  induction hn using Relation.ReflTransGen.head_induction_on with
  | refl => exact List.prefix_refl _
  | head hp _ ih =>
    rw [h.path_of_some hp]
    exact ih.trans (List.prefix_append _ _)

/-- A node comes before what hangs below its children. -/
theorem before_of_inSubtree (h : f.Linked) {p c n : Nat} (hp : f.parent? c = some p)
    (hn : f.InSubtree c n) : f.Before p n := by
  obtain ⟨rest, hrest⟩ := h.path_prefix hn
  rw [h.path_of_some hp] at hrest
  have hlex : List.Lex (· < ·) (f.path p ++ []) (f.path p ++ (c :: rest)) :=
    List.Lex.append_left _ List.Lex.nil (f.path p)
  rw [Before, ← hrest, List.append_assoc]
  rwa [List.append_nil] at hlex

/-- Trees side by side, below one node or at the top, are in order if each of them is and their
roots ascend. -/
theorem sorted_flatMap (h : f.Linked) (above : List Nat) {ids : List Nat}
    (hasc : ids.Pairwise (· < ·)) (hids : ∀ c ∈ ids, c < f.size ∧ f.path c = above ++ [c])
    (heach : ∀ c ∈ ids, (f.preorder c).Pairwise f.Before) :
    (ids.flatMap f.preorder).Pairwise f.Before := by
  refine List.pairwise_flatMap.mpr ⟨heach, hasc.imp_of_mem ?_⟩
  intro a b ha hb hab x hx y hy
  have hpath : ∀ c ∈ ids, ∀ n ∈ f.preorder c, above ++ [c] <+: f.path n := by
    intro c hc n hn
    obtain ⟨hlt, hpath⟩ := hids c hc
    rw [← hpath]
    exact h.path_prefix ((h.mem_preorder hlt).mp hn)
  exact before_of_branch hab (hpath a ha x hx) (hpath b hb y hy)

theorem preorder_sorted (h : f.Linked) (ha : f.Ascending) {x : Nat} (hx : x < f.size) :
    (f.preorder x).Pairwise f.Before := by
  induction x using h.downward with
  | step x ih =>
    have hpar : ∀ c ∈ f.children x, f.parent? c = some x := fun c => (h.child_iff x c).mp
    rw [h.preorder_eq hx, List.pairwise_cons]
    constructor
    · intro n hn
      obtain ⟨c, hc, hcn⟩ := List.mem_flatMap.mp hn
      exact h.before_of_inSubtree (hpar c hc) ((h.mem_preorder (h.child_lt hc)).mp hcn)
    · apply h.sorted_flatMap (f.path x) (ha.children x)
      · intro c hc
        exact ⟨h.child_lt hc, h.path_of_some (hpar c hc)⟩
      · intro c hc
        exact ih c (hpar c hc) (h.child_lt hc)

end Linked

namespace WellFormed
variable {f : Forest}

/-- The forest is traversed in ascending order of paths. -/
theorem order_sorted (h : f.WellFormed) (ha : f.Ascending) : f.order.Pairwise f.Before := by
  apply h.sorted_flatMap [] ha.roots
  · intro r hr
    exact ⟨h.root_lt r hr, path_of_none (h.root_top r hr)⟩
  · intro r hr
    exact h.preorder_sorted ha (h.root_lt r hr)

end WellFormed

theorem climb_congr {f g : Forest} (hp : ∀ i, g.parent? i = f.parent? i) (k id : Nat) :
    g.climb k id = f.climb k id := by
  induction k generalizing id with
  | zero => rfl
  | succ k ih =>
    rw [climb_succ, climb_succ, hp]
    cases f.parent? id with
    | none => rfl
    | some p => exact congrArg (p :: ·) (ih p)

theorem before_congr {f g : Forest} (hsize : g.size = f.size)
    (hp : ∀ i, g.parent? i = f.parent? i) : g.Before = f.Before := by
  have hpath : g.path = f.path := by
    funext id
    rw [path, path, ancestors, ancestors, hsize, climb_congr hp]
  unfold Before
  rw [hpath]

/-- Only one list of all nodes ascends by paths. -/
theorem WellFormed.order_eq {f g : Forest} (hf : f.WellFormed) (hg : g.WellFormed)
    (af : f.Ascending) (ag : g.Ascending) (hsize : g.size = f.size)
    (hp : ∀ i, g.parent? i = f.parent? i) : g.order = f.order := by
  have hsorted := hg.order_sorted ag
  have hperm := hg.order_perm
  rw [before_congr hsize hp] at hsorted
  rw [hsize] at hperm
  refine List.Perm.eq_of_pairwise ?_ hsorted (hf.order_sorted af) (hperm.trans hf.order_perm.symm)
  intro x y _ _ hxy hyx
  exact absurd hyx hxy.asymm

/-! ## Whole runs -/

/-- Every list of ids in the forest is in order of arrival, and the parent links say which it is. -/
structure Canonical (f : Forest) : Prop where
  roots_ascend : f.roots.Pairwise (· < ·)
  children_ascend : ∀ p, (f.children p).Pairwise (· < ·)
  roots_eq : f.roots = (List.range f.size).filter fun i => f.parent? i = none
  children_eq : ∀ p, f.children p = (List.range f.size).filter fun i => f.parent? i = some p
  /-- The traversal of the forest ascends by the paths down from the roots. -/
  order_sorted : f.order.Pairwise fun x y => List.Lex (· < ·) (f.path x) (f.path y)
  /-- A forest of as many classes with the same parent links is traversed in the same order. -/
  order_unique : ∀ es, (build es).size = f.size → (∀ i, (build es).parent? i = f.parent? i) →
    (build es).order = f.order

/-- **Canonical order.** After the first `k` insertions of any list of classes, roots and siblings
stand in order of arrival, and the traversal of the forest follows from the parent links. -/
theorem build_canonical (ds : List ClassDecl) (k : Nat) : Canonical (build (ds.take k)) := by
  generalize ds.take k = pre
  have h := wellFormed_build pre
  have ha := ascending_build pre
  refine ⟨ha.roots, ha.children, ha.roots_eq h, ha.children_eq h.toLinked, h.order_sorted ha, ?_⟩
  intro es hsize hp
  exact h.order_eq (wellFormed_build es) ha (ascending_build es) hsize hp

end Lineage.Forest
