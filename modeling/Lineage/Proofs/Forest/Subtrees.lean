import Lineage.Proofs.Forest.WellFormed

/-!
# Three views of a subtree

What hangs below a node can be walked with a stack of pending ids, described by recursion (the node,
then what hangs below each child, in child order), or told from the parent chains. The stack and the
recursion read the child lists, the chains read the parent fields.

* `Walk` is the stack, without a bound on its steps. `Descent` is the recursion, `Ascent` the parent
  chain. All three are relations that hold only of a traversal that has come to its end.
* `Linked.preorder_eq`: the traversal with a stack satisfies the equation of the recursion. In a
  linked forest the recursion has one solution (`Linked.descent_iff`).
* `Linked.preorder_infix`: a subtree inside another is a block of its traversal, and so, along the
  chain up to the root, of the order of the whole forest.

`traversals_agree` puts the views together.
-/
namespace Lineage.Forest

/-- The recursive preorder from `x` ends with `out`: `x` itself, then the recursive preorder of each
child, in child order. -/
inductive Descent (f : Forest) : Nat → List Nat → Prop where
  | node {x : Nat} {n : Node} {outs : List (List Nat)} (hn : f.node? x = some n)
      (below : List.Forall₂ (Descent f) n.children outs) : Descent f x (x :: outs.flatten)

/-- The parents followed from `x` end with a node without parent and are `out`, nearest first. -/
inductive Ascent (f : Forest) : Nat → List Nat → Prop where
  | top {x : Nat} (hx : f.parent? x = none) : Ascent f x []
  | up {x p : Nat} {out : List Nat} (hx : f.parent? x = some p) (rest : Ascent f p out) :
      Ascent f x (p :: out)

theorem Walk.flatMap {f : Forest} {g : Nat → List Nat} {ids : List Nat}
    (h : ∀ c ∈ ids, Walk f [c] (g c)) : Walk f ids (ids.flatMap g) := by
  induction ids with
  | nil => exact .done
  | cons c ids ih =>
    rw [List.flatMap_cons]
    exact (h c (by simp)).append (ih fun x hx => h x (by simp [hx]))

theorem eq_map_of_forall₂ {α β : Type} {R : α → β → Prop} {g : α → β} {l : List α} {outs : List β}
    (h : List.Forall₂ R l outs) (hg : ∀ a ∈ l, ∀ b, R a b → b = g a) : outs = l.map g := by
  induction h with
  | nil => rfl
  | cons hab _ ih =>
    rw [List.map_cons, hg _ (by simp) _ hab, ih fun x hx => hg x (by simp [hx])]

namespace Linked
variable {f : Forest}

/-- The traversal with a stack satisfies the equation of the recursion. -/
theorem preorder_eq (h : f.Linked) {x : Nat} (hx : x < f.size) :
    f.preorder x = x :: (f.children x).flatMap f.preorder := by
  have hbelow : Walk f (f.children x) ((f.children x).flatMap f.preorder) :=
    Walk.flatMap fun c hc => h.walk_preorder (h.child_lt hc)
  exact (h.walk_preorder hx).unique (Walk.of_children hx hbelow)

theorem walk_iff (h : f.Linked) {x : Nat} (hx : x < f.size) (out : List Nat) :
    Walk f [x] out ↔ out = f.preorder x := by
  constructor
  · intro w
    exact w.unique (h.walk_preorder hx)
  · rintro rfl
    exact h.walk_preorder hx

/-- The recursion ends, and its result is the traversal with a stack. -/
theorem descent_iff (h : f.Linked) {x : Nat} (hx : x < f.size) (out : List Nat) :
    Descent f x out ↔ out = f.preorder x := by
  induction x using h.downward generalizing out with
  | step x ih =>
    obtain ⟨n, hn⟩ := exists_node hx
    have hchildren : f.children x = n.children := children_of_node? hn
    have heach : ∀ c ∈ n.children, ∀ o, Descent f c o ↔ o = f.preorder c := by
      intro c hc
      have hpar : f.parent? c = some x := (h.child_iff x c).mp (hchildren ▸ hc)
      exact ih c hpar (lt_of_parent? hpar)
    rw [h.preorder_eq hx, hchildren, List.flatMap_def]
    constructor
    · intro hd
      cases hd with
      | node hn' below =>
        rw [hn] at hn'
        cases hn'
        rw [eq_map_of_forall₂ below fun c hc o => (heach c hc o).mp]
    · rintro rfl
      refine .node hn ?_
      rw [List.forall₂_map_right_iff, List.forall₂_same]
      exact fun c hc => (heach c hc _).mpr rfl

theorem ascent_ancestors (h : f.Linked) (x : Nat) : Ascent f x (f.ancestors x) := by
  induction x using h.grounded.induction with
  | _ x ih =>
    cases hp : f.parent? x with
    | none =>
      rw [ancestors_of_none hp]
      exact .top hp
    | some p =>
      rw [h.ancestors_of_some hp]
      exact .up hp (ih p hp)

/-- A node stands once in the traversals from itself and from what is above it, in no other. -/
theorem count_preorder (h : f.Linked) {x : Nat} (hx : x < f.size) (y : Nat) :
    (f.preorder x).count y = if y = x ∨ x ∈ f.ancestors y then 1 else 0 := by
  have hmem : y ∈ f.preorder x ↔ y = x ∨ x ∈ f.ancestors y := by
    rw [h.mem_preorder hx, inSubtree_iff, h.mem_ancestors]
  rw [(h.nodup_preorder hx).count]
  simp only [hmem]

theorem preorder_infix_parent (h : f.Linked) {c p : Nat} (hp : f.parent? c = some p) :
    f.preorder c <:+: f.preorder p := by
  rw [h.preorder_eq (h.parent_lt hp)]
  have hc : c ∈ f.children p := (h.child_iff p c).mpr hp
  exact List.infix_cons (List.infix_flatMap_of_mem hc f.preorder)

/-- A subtree inside another is a block of its traversal. -/
theorem preorder_infix (h : f.Linked) {a x : Nat} (ha : f.InSubtree a x) :
    f.preorder x <:+: f.preorder a := by
  induction ha using Relation.ReflTransGen.head_induction_on with
  | refl => exact List.infix_refl _
  | head hp _ ih => exact (h.preorder_infix_parent hp).trans ih

end Linked

theorem WellFormed.preorder_infix_order {f : Forest} (h : f.WellFormed) {x : Nat}
    (hx : x < f.size) : f.preorder x <:+: f.order := by
  obtain ⟨t, ht, htop, hsub⟩ := h.exists_top hx
  have hroot : t ∈ f.roots := h.complete t ht htop
  exact (h.preorder_infix hsub).trans (List.infix_flatMap_of_mem hroot f.preorder)

/-- How the traversals of `f` from its node `x` agree. -/
structure TraversalsAgree (f : Forest) (x : Nat) : Prop where
  /-- The traversal with a stack comes to its end without leaving the arena, with `preorder x`. -/
  walk : ∀ out, Walk f [x] out ↔ out = f.preorder x
  /-- So does the recursive one. -/
  descent : ∀ out, Descent f x out ↔ out = f.preorder x
  /-- Every parent chain ends and is `ancestors`. -/
  ascent : ∀ y, Ascent f y (f.ancestors y)
  /-- A node stands in the traversal if it is `x` or has `x` on its chain, and then once. -/
  count : ∀ y, (f.preorder x).count y = if y = x ∨ x ∈ f.ancestors y then 1 else 0
  /-- The traversal is a block of the whole forest's. -/
  block : f.preorder x <:+: f.order

/-- **Traversals agree** from every node of every forest that classes are built to. -/
theorem traversals_agree (ds : List ClassDecl) (x : Nat) (hx : x < (build ds).size) :
    TraversalsAgree (build ds) x := by
  have h := wellFormed_build ds
  exact ⟨h.walk_iff hx, h.descent_iff hx, h.ascent_ancestors, h.count_preorder hx,
    h.preorder_infix_order hx⟩

/-- Children ahead of their parents, and a cycle of `A`, `B` and `D` that is broken above `A`. -/
def thicket : List ClassDecl :=
  [{ name := "D", parentName := some "B" }, { name := "B", parentName := some "A" },
   { name := "E", parentName := some "B" }, { name := "A", parentName := some "D" },
   { name := "C", parentName := some "A" }]

theorem thicket_traversals :
    1 < (build thicket).size ∧ TraversalsAgree (build thicket) 1 ∧
      (build thicket).preorder 1 = [1, 0, 2] ∧ (build thicket).ancestors 0 = [1, 3] ∧
      (build thicket).order = [3, 1, 0, 2, 4] :=
  ⟨by decide, traversals_agree thicket 1 (by decide), by decide, by decide, by decide⟩

end Lineage.Forest
