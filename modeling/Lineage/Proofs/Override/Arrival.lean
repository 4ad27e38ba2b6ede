import Mathlib.Data.List.Flatten
import Mathlib.Data.List.Perm.Subperm
import Lineage.Proofs.Forest.Embedding
import Lineage.Proofs.Forest.UniqueNames
import Lineage.Proofs.Override.Reports

/-!
# Reports and the order of arrival

Up to their order, the reports of a forest are those of its nodes one by one
(`WellFormed.analyze_perm`), and those of a node depend only on the chain above it.

**Along a map of nodes.** Where a forest is extended, the reports of a node stay and new ones may
join them (`Extends.checkNode_sublist`). Where it is embedded, they are the same
(`Embeds.checkNode_eq`).

**Results.**
* `analyze_monotone`: further classes take no report back and change none.
* `analyze_order_free`: with unique names and without cycles, the order of arrival changes neither
  the reports, up to their order, nor the numbers.
-/
namespace Lineage.Forest

/-! ## The reports of one node -/

theorem method?_congr {f g : Forest} {i j : Nat} (h : g.declaration? j = f.declaration? i)
    (s : String) : g.method? j s = f.method? i s := by
  rw [method?, method?, h]

/-- A report depends on the forest only through the nearest declaration and its class's name. -/
theorem check?_congr {f g : Forest} {i j a b : Nat} {m o : Method} (c : ClassDecl)
    (hf : f.nearestDeclaration? i m.name = some (a, o))
    (hg : g.nearestDeclaration? j m.name = some (b, o)) (hname : g.name? b = f.name? a) :
    g.check? j c m = f.check? i c m := by
  unfold check?
  rw [hf, hg]
  simp only [hname]

theorem check?_of_none {f : Forest} {i : Nat} {m : Method} (c : ClassDecl)
    (h : f.nearestDeclaration? i m.name = none) : f.check? i c m = none := by
  unfold check?
  rw [h]
  exact ite_self none

theorem checkNode_of_declaration? {f : Forest} (hf : f.Linked) {i : Nat} {c : ClassDecl}
    (h : f.declaration? i = some c) : f.checkNode i = c.methods.filterMap (f.check? i c) := by
  rw [declaration?_eq, Option.map_eq_some_iff] at h
  obtain ⟨n, hn, rfl⟩ := h
  rw [checkNode, hn]
  simp only [hf.id_eq i n hn]

theorem filterMap_sublist_filterMap {α β : Type} {p q : α → Option β}
    (hpq : ∀ a b, p a = some b → q a = some b) (l : List α) :
    (l.filterMap p).Sublist (l.filterMap q) := by
  induction l with
  | nil => exact List.Sublist.slnil
  | cons a l ih =>
    cases hp : p a with
    | some b =>
      rw [List.filterMap_cons_some hp, List.filterMap_cons_some (hpq a b hp)]
      exact ih.cons_cons b
    | none =>
      rw [List.filterMap_cons_none hp]
      cases hq : q a with
      | some b =>
        rw [List.filterMap_cons_some hq]
        exact ih.cons b
      | none => rwa [List.filterMap_cons_none hq]

namespace Extends
variable {φ : Nat → Nat} {f g : Forest}

/-- The search through the images of a node's ancestors ends where the search through the ancestors
does. -/
theorem findSome?_image (h : Extends φ f g) (hf : f.Linked) (i : Nat) (s : String) :
    (((f.ancestors i).map φ).findSome? fun a => (g.method? a s).map fun o => (a, o)) =
      (f.nearestDeclaration? i s).map fun x => (φ x.1, x.2) := by
  rw [nearestDeclaration?_eq, List.map_findSome?, List.findSome?_map, ← List.head?_filterMap,
    ← List.head?_filterMap]
  congr 1
  refine List.filterMap_congr fun a ha => ?_
  have hlt : a < f.size := hf.ancestor_lt (hf.mem_ancestors.mp ha)
  simp only [Function.comp_apply, method?_congr (h.declaration a hlt), Option.map_map]
  rfl

theorem nearestDeclaration?_eq_some (h : Extends φ f g) (hf : f.Linked) (hg : g.Linked)
    {i a : Nat} {s : String} {o : Method} (hn : f.nearestDeclaration? i s = some (a, o)) :
    g.nearestDeclaration? (φ i) s = some (φ a, o) := by
  rw [nearestDeclaration?_eq]
  apply (h.ancestors_prefix hf hg i).findSome?_eq_some
  rw [h.findSome?_image hf, hn]
  rfl

theorem check?_eq_some (h : Extends φ f g) (hf : f.Linked) (hg : g.Linked) {i : Nat}
    {c : ClassDecl} {m : Method} {r : Report} (hr : f.check? i c m = some r) :
    g.check? (φ i) c m = some r := by
  obtain ⟨-, a, o, hn, -⟩ := Forest.check?_eq_some hr
  have hnear := hf.nearestDeclaration?_eq_some_iff.mp hn
  have hlt : a < f.size := hf.ancestor_lt hnear.above
  rw [check?_congr c hn (h.nearestDeclaration?_eq_some hf hg hn) (h.name?_eq hlt), hr]

theorem report?_eq_some (h : Extends φ f g) (hf : f.Linked) (hg : g.Linked) {n k : Nat}
    {r : Report} (hr : f.report? (n, k) = some r) : g.report? (φ n, k) = some r := by
  obtain ⟨c, hc, hrest⟩ := Option.bind_eq_some_iff.mp hr
  obtain ⟨m, hm, hcheck⟩ := Option.bind_eq_some_iff.mp hrest
  have hc' : g.declaration? (φ n) = some c := (h.declaration n (lt_of_declaration? hc)).trans hc
  exact Option.bind_eq_some_iff.mpr ⟨c, hc',
    Option.bind_eq_some_iff.mpr ⟨m, hm, h.check?_eq_some hf hg hcheck⟩⟩

theorem checkNode_sublist (h : Extends φ f g) (hf : f.Linked) (hg : g.Linked) {i : Nat}
    (hi : i < f.size) : (f.checkNode i).Sublist (g.checkNode (φ i)) := by
  obtain ⟨c, hc⟩ := exists_declaration hi
  rw [checkNode_of_declaration? hf hc,
    checkNode_of_declaration? hg ((h.declaration i hi).trans hc)]
  exact filterMap_sublist_filterMap (fun _ _ hr => h.check?_eq_some hf hg hr) c.methods

end Extends

namespace Embeds
variable {φ : Nat → Nat} {f g : Forest}

theorem nearestDeclaration?_eq (h : Embeds φ f g) (hf : f.Linked) (hg : g.Linked) {i : Nat}
    (hi : i < f.size) (s : String) :
    g.nearestDeclaration? (φ i) s = (f.nearestDeclaration? i s).map fun x => (φ x.1, x.2) := by
  rw [Forest.nearestDeclaration?_eq, h.ancestors_eq hf hg hi, h.findSome?_image hf]

theorem check?_eq (h : Embeds φ f g) (hf : f.Linked) (hg : g.Linked) {i : Nat} (hi : i < f.size)
    (c : ClassDecl) (m : Method) : g.check? (φ i) c m = f.check? i c m := by
  have hnear := h.nearestDeclaration?_eq hf hg hi m.name
  cases hn : f.nearestDeclaration? i m.name with
  | none =>
    rw [hn] at hnear
    rw [check?_of_none c hn, check?_of_none c hnear]
  | some x =>
    rw [hn] at hnear
    have hlt : x.1 < f.size :=
      hf.ancestor_lt (hf.nearestDeclaration?_eq_some_iff (o := x.2).mp hn).above
    exact check?_congr c hn hnear (h.name?_eq hlt)

theorem checkNode_eq (h : Embeds φ f g) (hf : f.Linked) (hg : g.Linked) {i : Nat}
    (hi : i < f.size) : g.checkNode (φ i) = f.checkNode i := by
  obtain ⟨c, hc⟩ := exists_declaration hi
  rw [checkNode_of_declaration? hf hc,
    checkNode_of_declaration? hg ((h.declaration i hi).trans hc)]
  exact List.filterMap_congr fun m _ => h.check?_eq hf hg hi c m

end Embeds

/-! ## The reports of all nodes -/

theorem analyze_eq_flatMap (f : Forest) : f.analyze = f.order.flatMap f.checkNode := by
  unfold analyze analyzeTree order
  rw [List.flatMap_assoc]

theorem WellFormed.analyze_perm {f : Forest} (h : f.WellFormed) :
    f.analyze.Perm ((List.range f.size).flatMap f.checkNode) := by
  rw [analyze_eq_flatMap]
  exact h.order_perm.flatMap_right _

/-! ## Further classes -/

/-- **Monotone reports.** Whatever classes come after `ds`, a nearest declaration stays the nearest,
a report about a method stays as it is, and the reports are a sub-multiset of those made then. -/
theorem analyze_monotone (ds es : List ClassDecl) :
    (∀ n s a o, (build ds).Nearest n s a o → (build (ds ++ es)).Nearest n s a o) ∧
      (∀ n k r, (build ds).report? (n, k) = some r → (build (ds ++ es)).report? (n, k) = some r) ∧
      (build ds).analyze.Subperm (build (ds ++ es)).analyze := by
  have h := extends_build ds es
  have hf := wellFormed_build ds
  have hg := wellFormed_build (ds ++ es)
  refine ⟨?_, fun n k r hr => h.report?_eq_some hf.toLinked hg.toLinked hr, ?_⟩
  · intro n s a o hn
    have hfound := hf.nearestDeclaration?_eq_some_iff.mpr hn
    exact hg.nearestDeclaration?_eq_some_iff.mp
      (h.nearestDeclaration?_eq_some hf.toLinked hg.toLinked hfound)
  · have hnodes : (List.range (build ds).size).Sublist (List.range (build (ds ++ es)).size) := by
      rw [List.range_sublist, size_build, size_build, List.length_append]
      omega
    have heach : ((List.range (build ds).size).flatMap (build ds).checkNode).Sublist
        ((List.range (build ds).size).flatMap (build (ds ++ es)).checkNode) :=
      List.Sublist.flatMap_right _ fun i hi =>
        h.checkNode_sublist hf.toLinked hg.toLinked (List.mem_range.mp hi)
    have hsub := heach.trans (hnodes.flatMap (build (ds ++ es)).checkNode)
    exact hf.analyze_perm.subperm.trans (hsub.subperm.trans hg.analyze_perm.symm.subperm)

/-! ## The same classes in another order -/

namespace Embeds
variable {φ : Nat → Nat} {f g : Forest}

theorem analyze_perm (h : Embeds φ f g) (hf : f.WellFormed) (hg : g.WellFormed)
    (hall : ((List.range f.size).map φ).Perm (List.range g.size)) : f.analyze.Perm g.analyze := by
  have heach : ((List.range f.size).map φ).flatMap g.checkNode =
      (List.range f.size).flatMap f.checkNode := by
    rw [List.flatMap_map]
    exact List.flatMap_congr fun i hi =>
      h.checkNode_eq hf.toLinked hg.toLinked (List.mem_range.mp hi)
  have hnodes := hall.flatMap_right g.checkNode
  rw [heach] at hnodes
  exact hf.analyze_perm.trans (hnodes.trans hg.analyze_perm.symm)

theorem stats_eq (h : Embeds φ f g) (hf : f.WellFormed) (hg : g.WellFormed)
    (hall : ((List.range f.size).map φ).Perm (List.range g.size)) : f.stats = g.stats := by
  rw [hf.stats_eq, hg.stats_eq, ← h.map_shape hf.toLinked hg.toLinked]
  exact tally_perm (hall.map _)

end Embeds

section
variable {ds ds' : List ClassDecl} (hu : UniqueNames ds) (hperm : ds.Perm ds')
include hu hperm

theorem relocate_perm :
    ((List.range ds.length).map (relocate ds ds')).Perm (List.range ds'.length) := by
  have hnd : ((List.range ds.length).map (relocate ds ds')).Nodup := by
    refine List.nodup_range.map_on fun i hi j hj hij => ?_
    rw [← relocate_relocate hperm hu (List.mem_range.mp hi), hij,
      relocate_relocate hperm hu (List.mem_range.mp hj)]
  have hsub : (List.range ds.length).map (relocate ds ds') ⊆ List.range ds'.length := by
    intro x hx
    obtain ⟨i, hi, rfl⟩ := List.mem_map.mp hx
    have hplace := getElem?_relocate hperm (List.getElem?_eq_getElem (List.mem_range.mp hi))
    exact List.mem_range.mpr (List.getElem?_eq_some_iff.mp hplace).1
  refine (List.subperm_of_subset hnd hsub).perm_of_length_le ?_
  simp [hperm.length_eq]

/-- Without cycles the parents are the declared ones in both forests, and what a class declares
does not depend on where it stands. -/
theorem embeds_relocate (hfree : ∀ i, ¬ OnCycle ds i) :
    Embeds (relocate ds ds') (build ds) (build ds') := by
  have hu' : UniqueNames ds' := (hperm.map _).nodup_iff.mp hu
  have hfree' : ∀ i, ¬ OnCycle ds' i := by
    intro i hi
    obtain ⟨j, hj⟩ := onCycle_of_perm hperm hi
    exact hfree j hj
  have hform := followsDeclared_build hu
  have hform' := followsDeclared_build hu'
  refine ⟨⟨?_, ?_⟩, ?_⟩
  · intro i hi
    rw [size_build] at hi
    have hx := List.getElem?_eq_getElem hi
    rw [declaration?, declaration?, declarations_build, declarations_build, hx]
    exact getElem?_relocate hperm hx
  · intro i p hp
    have hd := declares_relocate hperm ((hform i p).mp hp).1
    exact (hform' _ _).mpr ⟨hd, fun hc => hfree' _ hc.1⟩
  · intro i hi hnone
    rw [size_build] at hi
    cases hq : (build ds').parent? (relocate ds ds' i) with
    | none => rfl
    | some q =>
      have hd := declares_relocate hperm.symm ((hform' _ q).mp hq).1
      rw [relocate_relocate hperm hu hi] at hd
      rw [(hform i _).mpr ⟨hd, fun hc => hfree i hc.1⟩] at hnone
      cases hnone

end

/-- **Order of arrival.** Classes with unique names and without cycles, some of whose parents may be
missing, give the same reports up to their order, and the same numbers, in whatever order they
come. -/
theorem analyze_order_free (ds ds' : List ClassDecl) (hu : UniqueNames ds)
    (hfree : ∀ i, ¬ OnCycle ds i) (hperm : ds.Perm ds') :
    (build ds).analyze.Perm (build ds').analyze ∧ (build ds).stats = (build ds').stats := by
  have hf := wellFormed_build ds
  have hg := wellFormed_build ds'
  have h := embeds_relocate hu hperm hfree
  have hall : ((List.range (build ds).size).map (relocate ds ds')).Perm
      (List.range (build ds').size) := by
    rw [size_build, size_build]
    exact relocate_perm hu hperm
  exact ⟨h.analyze_perm hf hg hall, h.stats_eq hf hg hall⟩

/-- Two trees, in each of which the child drops its parent's default, and a class whose parent never
comes. -/
def twoTrees : List ClassDecl :=
  [{ name := "A"
     methods := [{ name := "f", parameters := [{ name := "x", hasDefault := true }] }] },
   { name := "B", parentName := some "A"
     methods := [{ name := "f", parameters := [{ name := "x" }] }] },
   { name := "P"
     methods := [{ name := "g", parameters := [{ name := "y", hasDefault := true }] }] },
   { name := "Q", parentName := some "P"
     methods := [{ name := "g", parameters := [{ name := "y" }] }] },
   { name := "D", parentName := some "Z" }]

theorem twoTrees_acyclic (i : Nat) : ¬ OnCycle twoTrees i := by
  have hbounded : ∀ i < twoTrees.length, ∀ j < twoTrees.length, Declares twoTrees i j → j < i := by
    decide
  exact not_onCycle_of_lt (fun i j hd => hbounded i hd.lt.1 j hd.lt.2 hd) i

/-- Children first, the trees change places, and with them the reports. -/
theorem twoTrees_order_free :
    UniqueNames twoTrees ∧ (∀ i, ¬ OnCycle twoTrees i) ∧
      (build twoTrees).analyze ≠ (build twoTrees.reverse).analyze ∧
      (build twoTrees).analyze.Perm (build twoTrees.reverse).analyze ∧
      (build twoTrees).stats = (build twoTrees.reverse).stats :=
  ⟨by decide, twoTrees_acyclic, by decide,
    analyze_order_free twoTrees twoTrees.reverse (by decide) twoTrees_acyclic
      (List.reverse_perm twoTrees).symm⟩

end Lineage.Forest
