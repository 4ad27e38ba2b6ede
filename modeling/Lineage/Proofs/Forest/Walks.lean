import Mathlib.Data.List.Perm.Subperm
import Lineage.Proofs.Forest.Links

/-!
# Walks up and down a linked forest

`ancestors` and `preorder` stop after as many steps as there are nodes. In a linked forest no walk
needs more, so the bound never shows.

**Up.** `Linked.ancestors_of_some`: the chain of `c` is its parent followed by the parent's chain.
Hence `Linked.mem_ancestors`, and every depth is below the number of nodes.

**Down.** `Walk f stack out` says that the traversal of `stack`, with no bound on its steps, comes
to its end, meets only ids of nodes, and yields `out`. `Linked.walk_preorder` gives one for every
node, with `out` the bounded `preorder`, in which each node of the subtree stands once
(`Linked.mem_preorder`, `Linked.nodup_preorder`).

The way down needs an induction on the number of nodes that still fit below: `Linked.downward`, from
the depth bound.
-/
namespace Lineage.Forest

/-- Distinct ids of nodes are at most as many as the nodes. -/
theorem length_le_size {f : Forest} {l : List Nat} (hnd : l.Nodup) (hlt : ∀ x ∈ l, x < f.size) :
    l.length ≤ f.size := by
  have hsub : l ⊆ List.range f.size := fun x hx => List.mem_range.mpr (hlt x hx)
  simpa using (List.subperm_of_subset hnd hsub).length_le

/-! ## Up -/

theorem climb_succ (f : Forest) (k id : Nat) :
    f.climb (k + 1) id = match f.parent? id with
      | none => []
      | some p => p :: f.climb k p := rfl

theorem properAncestor_of_mem_climb {f : Forest} {k id a : Nat} (h : a ∈ f.climb k id) :
    f.ProperAncestor a id := by
  induction k generalizing id with
  | zero => simp [climb] at h
  | succ k ih =>
    rw [climb_succ] at h
    cases hp : f.parent? id with
    | none => simp [hp] at h
    | some p =>
      simp only [hp, List.mem_cons] at h
      rcases h with rfl | h
      · exact Relation.TransGen.single hp
      · exact Relation.TransGen.head hp (ih h)

/-- A climb that stopped early had reached a root, so a longer one is the same. -/
theorem climb_stable {f : Forest} {k id : Nat} (h : (f.climb k id).length < k) :
    f.climb (k + 1) id = f.climb k id := by
  induction k generalizing id with
  | zero => simp at h
  | succ k ih =>
    rw [climb_succ] at h
    rw [climb_succ f (k + 1), climb_succ f k]
    cases hp : f.parent? id with
    | none => rfl
    | some p =>
      simp only [hp, List.length_cons] at h
      simp only
      rw [ih (by omega)]

theorem ancestors_of_none {f : Forest} {id : Nat} (hp : f.parent? id = none) :
    f.ancestors id = [] := by
  unfold ancestors
  cases f.size with
  | zero => rfl
  | succ k => rw [climb_succ, hp]

namespace Linked
variable {f : Forest}

theorem nodup_climb (h : f.Linked) (k id : Nat) : (id :: f.climb k id).Nodup := by
  induction k generalizing id with
  | zero => simp [climb]
  | succ k ih =>
    refine List.nodup_cons.mpr ⟨fun hm => h.acyclic id (properAncestor_of_mem_climb hm), ?_⟩
    rw [climb_succ]
    cases f.parent? id with
    | none => exact List.nodup_nil
    | some p => exact ih p

theorem length_climb_lt (h : f.Linked) {id : Nat} (hid : id < f.size) (k : Nat) :
    (f.climb k id).length < f.size := by
  have hlt : ∀ x ∈ id :: f.climb k id, x < f.size := by
    intro x hx
    rcases List.mem_cons.mp hx with rfl | hx
    · exact hid
    · exact h.ancestor_lt (properAncestor_of_mem_climb hx)
  have := length_le_size (h.nodup_climb k id) hlt
  rw [List.length_cons] at this
  omega

theorem depth_lt (h : f.Linked) {id : Nat} (hid : id < f.size) : f.depth id < f.size :=
  h.length_climb_lt hid f.size

theorem ancestors_of_some (h : f.Linked) {c p : Nat} (hp : f.parent? c = some p) :
    f.ancestors c = p :: f.ancestors p := by
  have hlen := h.length_climb_lt (lt_of_parent? hp) f.size
  unfold ancestors
  cases hk : f.size with
  | zero => omega
  | succ k =>
    rw [hk, climb_succ, hp, List.length_cons] at hlen
    rw [climb_succ f k c, hp]
    simp only
    rw [climb_stable (by omega)]

/-- The parent chain of `n` is exactly what lies above it. -/
theorem mem_ancestors (h : f.Linked) {a n : Nat} : a ∈ f.ancestors n ↔ f.ProperAncestor a n := by
  refine ⟨properAncestor_of_mem_climb, fun ha => ?_⟩
  induction ha using Relation.TransGen.head_induction_on with
  | single hp => rw [h.ancestors_of_some hp]; exact List.mem_cons_self
  | head hp _ ih => rw [h.ancestors_of_some hp]; exact List.mem_cons_of_mem _ ih

theorem depth_of_some (h : f.Linked) {c p : Nat} (hp : f.parent? c = some p) :
    f.depth c = f.depth p + 1 := by
  unfold depth
  rw [h.ancestors_of_some hp, List.length_cons]

/-- Induction from children to parents: what holds of a node once it holds of all its children holds
of every node. Each step down raises the depth, which stays below the number of nodes. -/
theorem downward (h : f.Linked) {P : Nat → Prop}
    (step : ∀ p, (∀ c, f.parent? c = some p → P c) → P p) (n : Nat) : P n := by
  induction hm : f.size - f.depth n using Nat.strongRecOn generalizing n with
  | ind m ih =>
    refine step n fun c hc => ih (f.size - f.depth c) ?_ c rfl
    have hd := h.depth_of_some hc
    have hlt := h.depth_lt (lt_of_parent? hc)
    omega

end Linked

/-! ## Down -/

/-- The traversal of the pending ids `stack` comes to its end, meets only nodes and yields `out`. -/
inductive Walk (f : Forest) : List Nat → List Nat → Prop where
  | done : Walk f [] []
  | visit {id : Nat} {n : Node} {stack out : List Nat} (hn : f.node? id = some n)
      (rest : Walk f (n.children ++ stack) out) : Walk f (id :: stack) (id :: out)

namespace Walk
variable {f : Forest}

theorem append {s₁ s₂ o₁ o₂ : List Nat} (w₁ : Walk f s₁ o₁) (w₂ : Walk f s₂ o₂) :
    Walk f (s₁ ++ s₂) (o₁ ++ o₂) := by
  induction w₁ with
  | done => exact w₂
  | visit hn _ ih =>
    rw [List.append_assoc] at ih
    exact .visit hn ih

/-- A traversal that needs no more steps than it is given is not cut short. -/
theorem visit_eq {stack out : List Nat} (w : Walk f stack out) {k : Nat} (hk : out.length ≤ k) :
    f.visit k stack = out := by
  induction w generalizing k with
  | done => cases k <;> rfl
  | visit hn _ ih =>
    cases k with
    | zero => simp at hk
    | succ k =>
      rw [Forest.visit, children_of_node? hn, ih (by simpa using hk)]

theorem unique {stack out out' : List Nat} (w : Walk f stack out)
    (w' : Walk f stack out') : out = out' := by
  induction w generalizing out' with
  | done =>
    cases w'
    rfl
  | visit hn _ ih =>
    cases w' with
    | visit hn' rest' =>
      rw [hn] at hn'
      cases hn'
      rw [ih rest']

theorem of_children {p : Nat} {out : List Nat} (hp : p < f.size) (w : Walk f (f.children p) out) :
    Walk f [p] (p :: out) := by
  obtain ⟨n, hn⟩ := exists_node hp
  rw [children_of_node? hn] at w
  exact .visit hn (by rwa [List.append_nil])

end Walk

/-- Walks from ids with disjoint subtrees join to one walk that meets each node once. -/
theorem exists_walk_of_each {f : Forest} {ids : List Nat}
    (hwalk : ∀ c ∈ ids, ∃ out, Walk f [c] out ∧ out.Nodup ∧ ∀ x, x ∈ out ↔ f.InSubtree c x)
    (hdisj : ids.Pairwise fun a b => ∀ x, f.InSubtree a x → ¬ f.InSubtree b x) :
    ∃ out, Walk f ids out ∧ out.Nodup ∧ ∀ x, x ∈ out ↔ ∃ c ∈ ids, f.InSubtree c x := by
  induction ids with
  | nil => exact ⟨[], .done, List.nodup_nil, by simp⟩
  | cons c ids ih =>
    obtain ⟨hc, hrest⟩ := List.pairwise_cons.mp hdisj
    obtain ⟨o₁, w₁, nd₁, mem₁⟩ := hwalk c (by simp)
    obtain ⟨o₂, w₂, nd₂, mem₂⟩ := ih (fun x hx => hwalk x (by simp [hx])) hrest
    refine ⟨o₁ ++ o₂, w₁.append w₂, List.nodup_append.mpr ⟨nd₁, nd₂, ?_⟩, ?_⟩
    · intro a ha b hb hab
      subst hab
      obtain ⟨c', hc', hsub⟩ := (mem₂ a).mp hb
      exact hc c' hc' a ((mem₁ a).mp ha) hsub
    · intro x
      rw [List.mem_append, mem₁, mem₂]
      simp

namespace Linked
variable {f : Forest}

theorem children_disjoint (h : f.Linked) (p : Nat) :
    (f.children p).Pairwise fun a b => ∀ x, f.InSubtree a x → ¬ f.InSubtree b x := by
  refine List.Pairwise.imp_of_mem ?_ (h.nodup p)
  intro a b ha hb hne x
  exact h.siblings_disjoint ((h.child_iff p a).mp ha) ((h.child_iff p b).mp hb) hne

theorem exists_walk (h : f.Linked) (p : Nat) (hp : p < f.size) :
    ∃ out, Walk f [p] out ∧ out.Nodup ∧ ∀ x, x ∈ out ↔ f.InSubtree p x := by
  induction p using h.downward with
  | step p ih =>
    have heach : ∀ c ∈ f.children p,
        ∃ out, Walk f [c] out ∧ out.Nodup ∧ ∀ x, x ∈ out ↔ f.InSubtree c x := by
      intro c hc
      have hpar := (h.child_iff p c).mp hc
      exact ih c hpar (lt_of_parent? hpar)
    obtain ⟨out, w, nd, mem⟩ := exists_walk_of_each heach (h.children_disjoint p)
    refine ⟨p :: out, Walk.of_children hp w, List.nodup_cons.mpr ⟨?_, nd⟩, ?_⟩
    · intro hm
      obtain ⟨c, hc, hsub⟩ := (mem p).mp hm
      exact h.not_inSubtree_parent ((h.child_iff p c).mp hc) hsub
    · intro x
      rw [List.mem_cons, mem, inSubtree_iff_child]
      simp only [h.child_iff]

/-- The traversal below `p` ends, never leaves the arena, and is `preorder p`, in which every node
of the subtree stands once. -/
theorem preorder_spec (h : f.Linked) {p : Nat} (hp : p < f.size) :
    Walk f [p] (f.preorder p) ∧ (f.preorder p).Nodup ∧
      ∀ x, x ∈ f.preorder p ↔ f.InSubtree p x := by
  obtain ⟨out, w, nd, mem⟩ := h.exists_walk p hp
  have hlen : out.length ≤ f.size :=
    length_le_size nd fun x hx => ((mem x).mp hx).lt hp
  have hpre : f.preorder p = out := w.visit_eq hlen
  rw [hpre]
  exact ⟨w, nd, mem⟩

theorem walk_preorder (h : f.Linked) {p : Nat} (hp : p < f.size) : Walk f [p] (f.preorder p) :=
  (h.preorder_spec hp).1

theorem nodup_preorder (h : f.Linked) {p : Nat} (hp : p < f.size) : (f.preorder p).Nodup :=
  (h.preorder_spec hp).2.1

theorem mem_preorder (h : f.Linked) {p x : Nat} (hp : p < f.size) :
    x ∈ f.preorder p ↔ f.InSubtree p x :=
  (h.preorder_spec hp).2.2 x

end Linked

end Lineage.Forest
