import Mathlib.Algebra.Ring.Nat
import Mathlib.Data.List.Nodup
import Lineage.Proofs.Forest.WellFormed

/-!
# The numbers of a forest measure its shape

The depth of a forest is taken from the parent chains, the longest one over all nodes. Seen from
above it is a height, taken through the child lists: `Height` measures one tree, `Tallest` all of
them. Both are relations that hold only where the way down comes to its end.

**Up and down.** `Height.spans`: whatever hangs below a node is at most its height deeper than it
is, and something is as much deeper. So the height of a root is the greatest depth in its tree
(`WellFormed.maxDepth_eq`).

**Counting.** Every node stands in the root list or in one child list, once
(`WellFormed.listed_perm`). And the nodes of a chain below its root are no roots, as many as the
chain has links, so that the roots and the depth together are at most the nodes
(`WellFormed.depth_add_roots_le`).

`stats_measure` has all three for every forest that classes are built to.
-/
namespace Lineage.Forest

/-! ## Height -/

/-- Measured downward, the tree below `x` has the given height: that of a leaf is zero, and
otherwise it is one more than the greatest height of a child. -/
inductive Height (f : Forest) : Nat → Nat → Prop where
  | node {x : Nat} {n : Node} (heights : Nat → Nat) (hn : f.node? x = some n)
      (below : ∀ c ∈ n.children, Height f c (heights c)) :
      Height f x ((n.children.map fun c => heights c + 1).foldl max 0)

/-- The tallest of the trees has the height `k`. -/
def Tallest (f : Forest) (k : Nat) : Prop :=
  ∃ heights : Nat → Nat,
    (∀ r ∈ f.roots, f.Height r (heights r)) ∧ k = (f.roots.map heights).foldl max 0

theorem foldl_max_eq_iff {l : List Nat} {m : Nat} :
    l.foldl max 0 = m ↔ (∀ x ∈ l, x ≤ m) ∧ (m = 0 ∨ m ∈ l) := by
  rw [List.foldl_max, Nat.zero_max]
  cases hmax : l.max? with
  | none =>
    rw [List.max?_eq_none_iff] at hmax
    simp [hmax, eq_comm]
  | some a =>
    obtain ⟨hmem, hle⟩ := List.max?_eq_some_iff.mp hmax
    constructor
    · rintro rfl
      exact ⟨hle, Or.inr hmem⟩
    · rintro ⟨hall, rfl | hm⟩
      · exact Nat.le_zero.mp (hall a hmem)
      · exact Nat.le_antisymm (hall a hmem) (hle m hm)

/-- The deepest node of the tree below `x` is `k` links below `x`. -/
structure Spans (f : Forest) (x k : Nat) : Prop where
  le : ∀ y, f.InSubtree x y → f.depth y ≤ f.depth x + k
  attained : ∃ y, f.InSubtree x y ∧ f.depth y = f.depth x + k

theorem Height.spans {f : Forest} (h : f.Linked) {x k : Nat} (hk : f.Height x k) :
    f.Spans x k := by
  induction hk with
  | @node x n heights hn _ ih =>
    have hpar : ∀ c, c ∈ n.children ↔ f.parent? c = some x := by
      intro c
      rw [← children_of_node? hn, h.child_iff]
    obtain ⟨hle, hmax⟩ :=
      (foldl_max_eq_iff (l := n.children.map fun c => heights c + 1)).mp rfl
    generalize (n.children.map fun c => heights c + 1).foldl max 0 = m at hle hmax
    constructor
    · intro y hy
      rcases inSubtree_iff_child.mp hy with rfl | ⟨c, hc, hcy⟩
      · exact Nat.le_add_right _ _
      · have hbound := (ih c ((hpar c).mpr hc)).le y hcy
        have hchild := hle (heights c + 1) (List.mem_map.mpr ⟨c, (hpar c).mpr hc, rfl⟩)
        rw [h.depth_of_some hc] at hbound
        omega
    · rcases hmax with rfl | hmem
      · exact ⟨x, Relation.ReflTransGen.refl, rfl⟩
      · obtain ⟨c, hc, rfl⟩ := List.mem_map.mp hmem
        obtain ⟨y, hy, hdepth⟩ := (ih c hc).attained
        have hlink := (hpar c).mp hc
        refine ⟨y, inSubtree_iff_child.mpr (Or.inr ⟨c, hlink, hy⟩), ?_⟩
        rw [hdepth, h.depth_of_some hlink]
        omega

namespace Linked
variable {f : Forest}

/-- The way down ends below every node. -/
theorem exists_height (h : f.Linked) {x : Nat} (hx : x < f.size) : ∃ k, f.Height x k := by
  induction x using h.downward with
  | step x ih =>
    obtain ⟨n, hn⟩ := exists_node hx
    have heach : ∀ c ∈ n.children, ∃ k, f.Height c k := by
      intro c hc
      have hpar : f.parent? c = some x := (h.child_iff x c).mp (children_of_node? hn ▸ hc)
      exact ih c hpar (lt_of_parent? hpar)
    choose! heights hheights using heach
    exact ⟨_, .node heights hn hheights⟩

end Linked

namespace WellFormed
variable {f : Forest}

theorem depth_root (h : f.WellFormed) {r : Nat} (hr : r ∈ f.roots) : f.depth r = 0 := by
  rw [depth, ancestors_of_none (h.root_top r hr)]
  rfl

/-- The greatest depth is the height of the tallest tree. -/
theorem maxDepth_eq (h : f.WellFormed) {k : Nat} (hk : f.Tallest k) : f.stats.maxDepth = k := by
  obtain ⟨heights, hheights, rfl⟩ := hk
  obtain ⟨hle, hmax⟩ := (foldl_max_eq_iff (l := f.roots.map heights)).mp rfl
  rw [h.maxDepth_eq_foldl]
  refine foldl_max_eq_iff.mpr ⟨?_, hmax.imp_right ?_⟩
  · intro d hd
    obtain ⟨i, hi, rfl⟩ := List.mem_map.mp hd
    obtain ⟨r, hr, htop, hsub⟩ := h.exists_top (List.mem_range.mp hi)
    have hroot := h.complete r hr htop
    have hbound := ((hheights r hroot).spans h.toLinked).le i hsub
    rw [h.depth_root hroot, Nat.zero_add] at hbound
    exact hbound.trans (hle _ (List.mem_map.mpr ⟨r, hroot, rfl⟩))
  · intro hmem
    obtain ⟨r, hr, hrmax⟩ := List.mem_map.mp hmem
    obtain ⟨y, hy, hdepth⟩ := ((hheights r hr).spans h.toLinked).attained
    rw [h.depth_root hr, Nat.zero_add, hrmax] at hdepth
    exact List.mem_map.mpr ⟨y, List.mem_range.mpr (hy.lt (h.root_lt r hr)), hdepth⟩

theorem exists_tallest (h : f.WellFormed) : ∃ k, f.Tallest k := by
  have heach : ∀ r ∈ f.roots, ∃ k, f.Height r k := fun r hr => h.exists_height (h.root_lt r hr)
  choose! heights hheights using heach
  exact ⟨_, heights, hheights, rfl⟩

end WellFormed

/-! ## Counting -/

/-- The child lists of all nodes, one behind the other. -/
def listed (f : Forest) : List Nat := (List.range f.size).flatMap f.children

theorem mem_listed {f : Forest} {c : Nat} : c ∈ f.listed ↔ ∃ p, c ∈ f.children p := by
  rw [listed, List.mem_flatMap]
  constructor
  · rintro ⟨p, -, hc⟩
    exact ⟨p, hc⟩
  · rintro ⟨p, hc⟩
    exact ⟨p, List.mem_range.mpr (lt_of_mem_children hc), hc⟩

theorem Linked.nodup_listed {f : Forest} (h : f.Linked) : f.listed.Nodup := by
  refine List.nodup_flatMap.mpr ⟨fun p _ => h.nodup p, List.nodup_range.imp ?_⟩
  intro p q hpq c hcp hcq
  rw [h.child_iff] at hcp hcq
  rw [hcp] at hcq
  exact hpq (Option.some.inj hcq)

namespace WellFormed
variable {f : Forest}

/-- Every node stands in the root list or in one child list, once. -/
theorem listed_perm (h : f.WellFormed) : (f.roots ++ f.listed).Perm (List.range f.size) := by
  have hnd : (f.roots ++ f.listed).Nodup := by
    refine List.nodup_append'.mpr ⟨h.roots_nodup, h.nodup_listed, ?_⟩
    intro c hr hc
    obtain ⟨p, hp⟩ := mem_listed.mp hc
    rw [h.child_iff, h.root_top c hr] at hp
    cases hp
  rw [List.perm_ext_iff_of_nodup hnd List.nodup_range]
  intro c
  rw [List.mem_append, mem_listed, List.mem_range]
  constructor
  · rintro (hr | ⟨p, hp⟩)
    · exact h.root_lt c hr
    · exact h.child_lt hp
  · intro hc
    cases hp : f.parent? c with
    | none => exact Or.inl (h.complete c hc hp)
    | some p => exact Or.inr ⟨p, (h.child_iff p c).mpr hp⟩

theorem size_eq (h : f.WellFormed) :
    f.size = f.roots.length + ((List.range f.size).map fun p => (f.children p).length).sum := by
  have hlen := h.listed_perm.length_eq
  rw [List.length_append, List.length_range, listed, List.length_flatMap] at hlen
  exact hlen.symm

end WellFormed

/-- A chain has as many links as it has nodes with a parent. -/
theorem Linked.depth_eq_length {f : Forest} (h : f.Linked) (x : Nat) :
    f.depth x = ((x :: f.ancestors x).filter fun y => (f.parent? y).isSome).length := by
  induction x using h.grounded.induction with
  | _ x ih =>
    cases hp : f.parent? x with
    | none => simp [depth, ancestors_of_none hp, hp]
    | some p =>
      rw [h.depth_of_some hp, h.ancestors_of_some hp, List.filter_cons_of_pos (by simp [hp]),
        List.length_cons, ← ih p hp]

namespace WellFormed
variable {f : Forest}

theorem depth_add_roots_le (h : f.WellFormed) (x : Nat) :
    f.depth x + f.roots.length ≤ f.size := by
  have hchain : (x :: f.ancestors x).Nodup := h.nodup_climb f.size x
  rw [h.depth_eq_length, ← List.length_append]
  apply length_le_size
  · refine List.nodup_append'.mpr ⟨hchain.filter _, h.roots_nodup, ?_⟩
    intro y hy hr
    have hsome := (List.mem_filter.mp hy).2
    rw [h.root_top y hr] at hsome
    cases hsome
  · intro y hy
    rcases List.mem_append.mp hy with hy | hr
    · obtain ⟨p, hp⟩ := Option.isSome_iff_exists.mp (List.mem_filter.mp hy).2
      exact lt_of_parent? hp
    · exact h.root_lt y hr

theorem maxDepth_add_roots_le (h : f.WellFormed) :
    f.stats.maxDepth + f.roots.length ≤ f.size := by
  obtain ⟨-, hzero | hmem⟩ := foldl_max_eq_iff.mp h.maxDepth_eq_foldl.symm
  · rw [hzero, Nat.zero_add]
    exact length_le_size h.roots_nodup h.root_lt
  · obtain ⟨x, -, hdepth⟩ := List.mem_map.mp hmem
    rw [← hdepth]
    exact h.depth_add_roots_le x

end WellFormed

/-! ## Whole runs -/

/-- The numbers of the forest are measures of its trees. -/
structure Measured (f : Forest) : Prop where
  /-- The greatest depth, taken upward, is the height of the tallest tree, taken downward. -/
  height : ∀ k, f.Tallest k ↔ k = f.stats.maxDepth
  /-- The classes are the roots and all children. -/
  classes : f.stats.classes =
    f.stats.roots + ((List.range f.size).map fun p => (f.children p).length).sum
  /-- The longest chain holds that many nodes beside the roots. -/
  bound : f.stats.maxDepth + f.stats.roots ≤ f.stats.classes

/-- **Numbers and shape** agree in every forest that classes are built to. -/
theorem stats_measure (ds : List ClassDecl) : Measured (build ds) := by
  have h := wellFormed_build ds
  refine ⟨fun k => ⟨fun hk => (h.maxDepth_eq hk).symm, ?_⟩, h.size_eq, h.maxDepth_add_roots_le⟩
  rintro rfl
  obtain ⟨k, hk⟩ := h.exists_tallest
  exact h.maxDepth_eq hk ▸ hk

end Lineage.Forest
