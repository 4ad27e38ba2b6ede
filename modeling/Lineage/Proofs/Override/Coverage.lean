import Lineage.Proofs.Override.Comparison
import Lineage.Proofs.Override.Reports

/-!
# A silent analysis covers the whole chain

Each method is compared with its nearest declaration only. When no comparison fails, the farther
declarations are respected too, as far as the comparison allows: `Covered`.

Going up the chain, the method `m` of `n` agrees with the nearest declaration `o₁`, which by
induction is tolerated by every declaration above it. Toleration composes with agreement
(`Method.Tolerates.trans`), so `m` is tolerated by all of them.
-/
namespace Lineage.Forest

/-- Without reports there are no conflicts. -/
theorem not_conflict_of_silent {f : Forest} (h : f.WellFormed) (hs : f.analyze = []) {n k : Nat}
    {m o : Method} {a : Nat} : ¬ f.Conflict n k m a o := by
  intro hc
  have hsite : (n, k) ∈ f.sites := by
    rw [mem_sites h, hc.method]
    rfl
  have hnone : f.report? (n, k) = none := by
    rw [analyze_eq h.toLinked, List.filterMap_eq_nil_iff] at hs
    exact hs (n, k) hsite
  have hsome := h.report?_isSome_iff.mpr ⟨m, a, o, hc⟩
  rw [hnone] at hsome
  cases hsome

theorem compatible_of_silent {f : Forest} (h : f.WellFormed) (hs : f.analyze = []) {n k : Nat}
    {m o : Method} {a : Nat} (hm : f.methodAt? n k = some m)
    (hcon : m.name ≠ Method.constructorName) (hnear : f.Nearest n m.name a o) :
    o.compare m = .compatible := by
  by_cases hk : o.compare m = .compatible
  · exact hk
  · exact absurd ⟨hm, hcon, hnear, hk⟩ (not_conflict_of_silent h hs)

/-- The first method of a name is one of the methods of the class, and has that name. -/
theorem methodAt?_of_method? {f : Forest} {a : Nat} {s : String} {o : Method}
    (h : f.method? a s = some o) : o.name = s ∧ ∃ k, f.methodAt? a k = some o := by
  obtain ⟨c, hc, ho⟩ := Option.bind_eq_some_iff.mp h
  obtain ⟨k, hk⟩ := List.mem_iff_getElem?.mp (List.mem_of_find?_eq_some ho)
  refine ⟨by simpa using List.find?_some ho, k, ?_⟩
  rw [methodAt?, hc]
  exact hk

/-- Every declaration above a class tolerates the class's method of that name. -/
theorem tolerates_of_silent {f : Forest} (h : f.WellFormed) (hs : f.analyze = []) {n k : Nat}
    {m o : Method} {a : Nat} (hm : f.methodAt? n k = some m)
    (hcon : m.name ≠ Method.constructorName) (ha : f.ProperAncestor a n)
    (ho : f.method? a m.name = some o) : o.Tolerates m := by
  induction n using h.grounded.transGen.induction generalizing k m with
  | _ n ih =>
    obtain ⟨b, o₁, hnear⟩ := h.exists_nearest ha (by rw [ho]; rfl)
    have hcompat := compatible_of_silent h hs hm hcon hnear
    obtain ⟨hname, l, hl⟩ := methodAt?_of_method? hnear.declares
    rcases inSubtree_iff.mp (hnear.first a ha (by rw [ho]; rfl)) with rfl | hab
    · -- `a` is itself the nearest.
      have hdecl := hnear.declares
      rw [ho] at hdecl
      cases hdecl
      exact Method.tolerates_of_compatible hcompat
    · have hbn : Relation.TransGen (fun p c => f.Link c p) b n :=
        Relation.transGen_swap.mpr hnear.above
      have htol : o.Tolerates o₁ := ih b hbn hl (hname ▸ hcon) hab (by rw [hname]; exact ho)
      exact htol.trans hcompat

/-- Of a forest `f` of the classes `ds`: how every method stands to every declaration above it. -/
structure Covered (ds : List ClassDecl) (f : Forest) : Prop where
  /-- The method agrees with the declaration, or adds a parameter without default to it, and then
  that parameter has a scalar type. -/
  tolerated : ∀ n k m a o, f.methodAt? n k = some m → m.name ≠ Method.constructorName →
    f.ProperAncestor a n → f.method? a m.name = some o →
      (o.compare m = .compatible ∨ o.compare m = .extraParameterNoDefault) ∧
      (o.compare m = .extraParameterNoDefault →
        ∃ q t, m.parameters[o.parameters.length]? = some q ∧ q.type = some t ∧ t.isScalar = true ∧
          q.hasDefault = false)
  /-- Where no parameter has a scalar type, it agrees. -/
  compatible : (∀ d ∈ ds, ∀ m ∈ d.methods, ∀ q ∈ m.parameters, ∀ t, q.type = some t →
      t.isScalar = false) →
    ∀ n k m a o, f.methodAt? n k = some m → m.name ≠ Method.constructorName →
      f.ProperAncestor a n → f.method? a m.name = some o → o.compare m = .compatible

theorem mem_methods_of_methodAt? {ds : List ClassDecl} {n k : Nat} {m : Method}
    (h : (build ds).methodAt? n k = some m) : ∃ d ∈ ds, m ∈ d.methods := by
  rw [methodAt?, declaration?, declarations_build] at h
  obtain ⟨d, hd, hm⟩ := Option.bind_eq_some_iff.mp h
  exact ⟨d, List.mem_of_getElem? hd, List.mem_of_getElem? hm⟩

/-- **The nearest declaration stands for the chain.** -/
theorem silent_covered (ds : List ClassDecl) (hs : (build ds).analyze = []) :
    Covered ds (build ds) := by
  have h := wellFormed_build ds
  refine ⟨?_, ?_⟩
  · intro n k m a o hm hcon ha ho
    rcases (tolerates_of_silent h hs hm hcon ha ho).compare with hc | ⟨he, q, hq, hsc, hd⟩
    · refine ⟨Or.inl hc, fun he => ?_⟩
      rw [hc] at he
      cases he
    · obtain ⟨t, ht, htsc⟩ := Parameter.scalarTyped_iff.mp hsc
      exact ⟨Or.inr he, fun _ => ⟨q, t, hq, ht, htsc, hd⟩⟩
  · intro hscalar n k m a o hm hcon ha ho
    rcases (tolerates_of_silent h hs hm hcon ha ho).compare with hc | ⟨-, q, hq, hsc, -⟩
    · exact hc
    · obtain ⟨d, hd, hmem⟩ := mem_methods_of_methodAt? hm
      obtain ⟨t, ht, htsc⟩ := Parameter.scalarTyped_iff.mp hsc
      have hno := hscalar d hd m hmem q (List.mem_of_getElem? hq) t ht
      rw [htsc] at hno
      cases hno

/-- `f()`, below it `f(int $x = 1)`, below that `f(int $x)`. -/
def narrowing : List ClassDecl :=
  [{ name := "A", methods := [{ name := "f" }] },
   { name := "B", parentName := some "A"
     methods := [{ name := "f", parameters := [
       { name := "x", type := some (.scalar "int"), hasDefault := true }] }] },
   { name := "C", parentName := some "B"
     methods := [{ name := "f", parameters := [{ name := "x", type := some (.scalar "int") }] }] }]

/-- No report, and yet the last method adds a parameter without default to the first. -/
theorem narrowing_covered :
    (build narrowing).analyze = [] ∧ Covered narrowing (build narrowing) ∧
      (build narrowing).ProperAncestor 0 2 ∧
      ∃ m o, (build narrowing).methodAt? 2 0 = some m ∧
        (build narrowing).method? 0 m.name = some o ∧
        o.compare m = .extraParameterNoDefault := by
  refine ⟨by decide, silent_covered narrowing (by decide), ?_, ?_⟩
  · exact .tail (.single (by decide : (build narrowing).parent? 2 = some 1))
      (by decide : (build narrowing).parent? 1 = some 0)
  · exact ⟨_, _, rfl, rfl, by decide⟩

end Lineage.Forest
