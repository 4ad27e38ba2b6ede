import Lineage.Proofs.Forest.Families
import Lineage.Proofs.Override.Arrival

/-!
# Reports on unrelated families

Two families are unrelated if no class of one names a class of the other as its parent; names may
repeat in a family, and be shared by both. However the classes are mixed on arrival, the reports on
a family are those that it gets alone, in the same order, and the numbers of the mixed forest are
made up of those of the two.

Reports do not say which node they are about. `attributed` adds the node, so that the reports on one
family can be told from the others.
-/
namespace Lineage.Forest

/-! ## Reports by node -/

/-- The reports of a forest, each with the node of the overriding class. -/
def attributed (f : Forest) : List (Nat × Report) :=
  f.order.flatMap fun n => (f.checkNode n).map fun r => (n, r)

theorem map_attributed (f : Forest) : f.attributed.map (·.2) = f.analyze := by
  rw [attributed, analyze_eq_flatMap, List.map_flatMap]
  refine List.flatMap_congr fun n _ => ?_
  rw [List.map_map]
  exact List.map_id _

theorem map_filter_attributed (f : Forest) (part : Nat → Bool) :
    (f.attributed.filter fun x => part x.1).map (·.2) =
      (f.order.filter part).flatMap f.checkNode := by
  rw [attributed, List.filter_flatMap, List.map_flatMap, ← flatMap_ite_nil]
  refine List.flatMap_congr fun n _ => ?_
  cases hn : part n <;> simp [hn, List.filter_map, Function.comp_def]

/-- The reports on the part are those of the forest that it is a copy of. -/
theorem Copies.map_filter_attributed {φ : Nat → Nat} {part : Nat → Bool} {f g : Forest}
    (h : Copies φ part f g) (hf : f.WellFormed) (hg : g.WellFormed) (af : f.Ascending)
    (ag : g.Ascending) : (g.attributed.filter fun x => part x.1).map (·.2) = f.analyze := by
  rw [Forest.map_filter_attributed, h.order_filter hf.toRooted hg.toRooted af ag, List.flatMap_map,
    analyze_eq_flatMap]
  exact List.flatMap_congr fun i hi =>
    h.checkNode_eq hf.toLinked hg.toLinked (hf.lt_of_mem_order hi)

/-! ## The numbers -/

/-- Every class is of one family or the other. -/
theorem places_perm (w : List (Bool × ClassDecl)) :
    (places w true ++ places w false).Perm (List.range w.length) := by
  have hother : places w false =
      (List.range w.length).filter fun i => !fromFamily w true i := by
    refine List.filter_congr fun i hi => ?_
    obtain ⟨x, hx⟩ : ∃ x, w[i]? = some x := ⟨_, List.getElem?_eq_getElem (List.mem_range.mp hi)⟩
    rw [fromFamily, fromFamily, hx, Option.any_some, Option.any_some]
    cases x.1 <;> rfl
  rw [hother]
  exact List.filter_append_perm _ _

theorem stats_mixed {w : List (Bool × ClassDecl)} (happ : Apart w) :
    (mixed w).stats = (build (family w true)).stats.sum (build (family w false)).stats := by
  have hg := wellFormed_mixed w
  have hfamily : ∀ b, tally ((places w b).map (mixed w).shape) = (build (family w b)).stats := by
    intro b
    have hf := wellFormed_build (family w b)
    have hshape := (copies_build happ b).map_shape hf.toLinked hg.toLinked
    rw [size_build, map_place] at hshape
    rw [hf.stats_eq, size_build, hshape]
  rw [hg.stats_eq, size_mixed, ← tally_perm ((places_perm w).map _), List.map_append, tally_append,
    hfamily, hfamily]

/-! ## Independence -/

/-- An order of arrival for two lists of classes together, each class marked with the list that it
comes from. -/
structure Interleaving (L₁ L₂ : List ClassDecl) where
  marked : List (Bool × ClassDecl)
  first : family marked true = L₁
  second : family marked false = L₂

namespace Interleaving
variable {L₁ L₂ : List ClassDecl}

/-- All classes in their order of arrival. -/
def classes (w : Interleaving L₁ L₂) : List ClassDecl := w.marked.map (·.2)

/-- The reports on all classes whose overriding class comes from one of the lists: from the first if
`b` holds. -/
def reportsOn (w : Interleaving L₁ L₂) (b : Bool) : List Report :=
  ((build w.classes).attributed.filter fun x => fromFamily w.marked b x.1).map (·.2)

end Interleaving

/-- No class of one list names a class of the other as its parent. -/
def Unrelated (L₁ L₂ : List ClassDecl) : Prop :=
  (∀ x ∈ L₁, ∀ y ∈ L₂, x.parentName ≠ some y.name) ∧
    ∀ x ∈ L₂, ∀ y ∈ L₁, x.parentName ≠ some y.name

instance (L₁ L₂ : List ClassDecl) : Decidable (Unrelated L₁ L₂) :=
  inferInstanceAs (Decidable (_ ∧ _))

theorem Unrelated.apart {w : List (Bool × ClassDecl)}
    (h : Unrelated (family w true) (family w false)) : Apart w := by
  intro x hx y hy hname
  obtain ⟨b, x⟩ := x
  obtain ⟨c, y⟩ := y
  cases b <;> cases c
  · rfl
  · exact absurd hname (h.2 x (mem_family.mpr hx) y (mem_family.mpr hy))
  · exact absurd hname (h.1 x (mem_family.mpr hx) y (mem_family.mpr hy))
  · rfl

/-- What the lists `L₁` and `L₂` have to do with each other in an interleaving: nothing. -/
structure Independent {L₁ L₂ : List ClassDecl} (w : Interleaving L₁ L₂) : Prop where
  /-- The reports told apart below are all the reports there are. -/
  reports : (build w.classes).attributed.map (·.2) = (build w.classes).analyze
  /-- The reports on each list's classes are those that it gets alone, in the same order. -/
  reports_first : w.reportsOn true = (build L₁).analyze
  reports_second : w.reportsOn false = (build L₂).analyze
  classes : (build w.classes).stats.classes =
    (build L₁).stats.classes + (build L₂).stats.classes
  roots : (build w.classes).stats.roots = (build L₁).stats.roots + (build L₂).stats.roots
  orphans : (build w.classes).stats.orphans = (build L₁).stats.orphans + (build L₂).stats.orphans
  maxDepth : (build w.classes).stats.maxDepth =
    max (build L₁).stats.maxDepth (build L₂).stats.maxDepth

/-- **Independence.** Unrelated lists of classes, with any names repeated, in any interleaving. -/
theorem families_independent (L₁ L₂ : List ClassDecl) (hun : Unrelated L₁ L₂)
    (w : Interleaving L₁ L₂) : Independent w := by
  obtain ⟨marked, rfl, rfl⟩ := w
  have happ : Apart marked := hun.apart
  have hstats : (build (marked.map (·.2))).stats =
      (build (family marked true)).stats.sum (build (family marked false)).stats :=
    stats_mixed happ
  have hreports : ∀ b, ((mixed marked).attributed.filter fun x => fromFamily marked b x.1).map
      (·.2) = (build (family marked b)).analyze := fun b =>
    (copies_build happ b).map_filter_attributed (wellFormed_build _) (wellFormed_mixed marked)
      (ascending_build _) (ascending_build _)
  refine ⟨map_attributed _, hreports true, hreports false, ?_, ?_, ?_, ?_⟩
  all_goals
    rw [Interleaving.classes, hstats]
    rfl

/-- A child before its parent, and a second class of the parent's name. -/
def firstFamily : List ClassDecl :=
  [{ name := "B", parentName := some "A"
     methods := [{ name := "f", parameters := [{ name := "x" }] }] },
   { name := "A"
     methods := [{ name := "f", parameters := [{ name := "x", hasDefault := true }] }] },
   { name := "A", methods := [{ name := "f" }] }]

/-- A parent before its child, whose name the other family has too, and an orphan. -/
def secondFamily : List ClassDecl :=
  [{ name := "P", methods := [{ name := "g", byReference := true }] },
   { name := "B", parentName := some "P", methods := [{ name := "g" }] },
   { name := "C", parentName := some "Z" }]

def mingled : Interleaving firstFamily secondFamily where
  marked := (List.zipWith (fun r b => [(true, r), (false, b)]) firstFamily secondFamily).flatten
  first := by decide
  second := by decide

theorem mingled_independent :
    Unrelated firstFamily secondFamily ∧ Independent mingled ∧
      mingled.reportsOn true ≠ [] ∧ mingled.reportsOn false ≠ [] :=
  ⟨by decide, families_independent firstFamily secondFamily (by decide) mingled, by decide,
    by decide⟩

end Lineage.Forest
