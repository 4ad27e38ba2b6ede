import Lineage.Proofs.Forest.WellFormed

/-!
# Roots and siblings stand in order of arrival

A new node has the largest id. It goes to the end of a list, the root list (`roots_insert`) or one
child list (`WellFormed.children_insert`), and the only other list that an insertion makes is the
new node's own: the roots that waited for it, in root order. So every list of ids in the forest
ascends (`ascending_build`), and which ids it holds says in which order they stand.
-/
namespace Lineage.Forest

/-- The root list and all child lists ascend. -/
structure Ascending (f : Forest) : Prop where
  roots : f.roots.Pairwise (· < ·)
  children : ∀ p, (f.children p).Pairwise (· < ·)

/-- A larger id may join an ascending list at its end. -/
theorem pairwise_lt_join {l : List Nat} {v : Nat} {joins : Prop} [Decidable joins]
    (hl : l.Pairwise (· < ·)) (hv : ∀ x ∈ l, x < v) :
    (l ++ if joins then [v] else []).Pairwise (· < ·) := by
  split
  · refine List.pairwise_append.mpr ⟨hl, List.pairwise_singleton _ _, ?_⟩
    intro x hx y hy
    rw [List.mem_singleton.mp hy]
    exact hv x hx
  · rwa [List.append_nil]

/-- The new node is the last root if no parent was found for it. -/
theorem roots_insert (f : Forest) (d : ClassDecl) :
    (f.insert d).roots =
      (f.prepare d).roots ++ if f.newParent? d = none then [f.size] else [] := by
  rw [insert_eq]
  cases f.newParent? d <;> simp

namespace WellFormed
variable {f : Forest}

/-- The new node's children are the roots that waited for it. -/
theorem children_prepare (h : f.WellFormed) (d : ClassDecl) (i : Nat) :
    (f.prepare d).children i = if i = f.size then f.waiting d.name else f.children i := by
  have hv : f.size < (f.push d).size := by
    rw [size_push]
    omega
  have hnone : f.children f.size = [] := by
    rw [List.eq_nil_iff_forall_not_mem]
    intro c hc
    exact absurd (lt_of_mem_children hc) (Nat.lt_irrefl _)
  rw [Forest.prepare, children_adopt hv, waiting_push h.root_lt, children_push, children_push,
    hnone, List.nil_append]

theorem child_prepare_lt (h : f.WellFormed) (d : ClassDecl) {p c : Nat}
    (hc : c ∈ (f.prepare d).children p) : c < f.size := by
  rw [h.children_prepare] at hc
  split at hc
  · exact h.root_lt c (mem_waiting.mp hc).1
  · exact h.child_lt hc

/-- The new node is the last child of the parent that was found for it. -/
theorem children_insert (h : f.WellFormed) (d : ClassDecl) (i : Nat) :
    (f.insert d).children i =
      (f.prepare d).children i ++ if f.newParent? d = some i then [f.size] else [] := by
  rw [insert_eq]
  cases hp : f.newParent? d with
  | none => simp
  | some p =>
    have hlt : p < (f.prepare d).size := by
      rw [size_prepare]
      exact (h.newParent?_some hp).1
    simp only [children_attach hlt, Option.some.injEq]
    by_cases hi : i = p
    · simp [hi]
    · simp [hi, Ne.symm hi]

end WellFormed

namespace Ascending
variable {f : Forest}

theorem prepare (ha : f.Ascending) (h : f.WellFormed) (d : ClassDecl) :
    (f.prepare d).Ascending := by
  refine ⟨ha.roots.sublist (roots_adopt_sublist (f.push d) d.name f.size), fun p => ?_⟩
  rw [h.children_prepare]
  split
  · exact ha.roots.sublist List.filter_sublist
  · exact ha.children p

theorem insert (ha : f.Ascending) (h : f.WellFormed) (d : ClassDecl) : (f.insert d).Ascending := by
  obtain ⟨hroots, hchildren⟩ := ha.prepare h d
  refine ⟨?_, fun p => ?_⟩
  · rw [roots_insert]
    exact pairwise_lt_join hroots fun r hr => h.root_lt r ((h.mem_roots_prepare d).mp hr).1
  · rw [h.children_insert]
    exact pairwise_lt_join (hchildren p) fun c hc => h.child_prepare_lt d hc

end Ascending

theorem ascending_build (ds : List ClassDecl) : (build ds).Ascending := by
  induction ds using List.reverseRecOn with
  | nil => exact ⟨List.Pairwise.nil, fun _ => by simp [build, children, node?]⟩
  | append_singleton ds d ih =>
    rw [build_concat]
    exact ih.insert (wellFormed_build ds) d

end Lineage.Forest
