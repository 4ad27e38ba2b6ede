import Lineage.Override.Analysis
import Lineage.Proofs.Forest.WellFormed
import Lineage.Proofs.Lists

/-!
# Which reports an analysis makes

The analysis compares a method with the first method of its name in the nearest ancestor that
declares one. Here the reports are described without the analysis: by the ancestor relation, by the
place of each method in its class, and by the whole-forest order.

**Conflicts.** `Nearest f n s a o`: of the classes above `n` that declare `s`, `a` is the one below
all others, and `o` is its first method of that name. `Conflict f n k m a o`: the `k`-th method `m`
of `n`, no constructor, differs from its nearest declaration.

**Results.**
* `Linked.nearestDeclaration?_eq_some_iff`: the search up the chain finds exactly the nearest one.
* `analyze_exact`: the reports stand in one-to-one correspondence with the conflicts, in forest
  order and then in declaration order, and each describes its conflict.
-/
namespace Lineage.Forest

/-- The `k`-th method of the class at `n`. -/
def methodAt? (f : Forest) (n k : Nat) : Option Method :=
  (f.declaration? n).bind fun c => c.methods[k]?

/-- The first method called `s` of the class at `n`. -/
def method? (f : Forest) (n : Nat) (s : String) : Option Method :=
  (f.declaration? n).bind fun c => c.method? s

/-! ## The nearest declaration -/

/-- `a` declares `s` above `n` and below every other class that does, first as `o`. -/
structure Nearest (f : Forest) (n : Nat) (s : String) (a : Nat) (o : Method) : Prop where
  above : f.ProperAncestor a n
  declares : f.method? a s = some o
  first : ∀ b, f.ProperAncestor b n → (f.method? b s).isSome → f.InSubtree b a

theorem nearestDeclaration?_eq (f : Forest) (n : Nat) (s : String) :
    f.nearestDeclaration? n s =
      (f.ancestors n).findSome? fun a => (f.method? a s).map fun o => (a, o) := by
  unfold nearestDeclaration? method?
  congr 1
  funext a
  rw [declaration?_eq, Option.bind_map]
  rfl

theorem nearestDeclaration?_of_none {f : Forest} {n : Nat} (hp : f.parent? n = none) (s : String) :
    f.nearestDeclaration? n s = none := by
  rw [nearestDeclaration?_eq, ancestors_of_none hp]
  rfl

/-- A parent that does not declare the name is passed over. -/
theorem nearest_iff_of_not_declares {f : Forest} {n p a : Nat} {s : String} {o : Method}
    (hp : f.parent? n = some p) (hm : f.method? p s = none) :
    f.Nearest n s a o ↔ f.Nearest p s a o := by
  have hup : ∀ {b}, (f.method? b s).isSome → (f.ProperAncestor b n ↔ f.ProperAncestor b p) := by
    intro b hb
    rw [properAncestor_iff_of_some hp]
    constructor
    · intro hyp
      rcases hyp with rfl | h
      · simp [hm] at hb
      · exact h
    · exact Or.inr
  constructor
  · intro hyp
    obtain ⟨habove, hdecl, hfirst⟩ := hyp
    exact ⟨(hup (by simp [hdecl])).mp habove, hdecl, fun b hb hs => hfirst b ((hup hs).mpr hb) hs⟩
  · intro hyp
    obtain ⟨habove, hdecl, hfirst⟩ := hyp
    exact ⟨(hup (by simp [hdecl])).mpr habove, hdecl, fun b hb hs => hfirst b ((hup hs).mp hb) hs⟩

namespace Linked
variable {f : Forest}

theorem nearestDeclaration?_of_some (h : f.Linked) {n p : Nat} (hp : f.parent? n = some p)
    (s : String) :
    f.nearestDeclaration? n s = match f.method? p s with
      | some o => some (p, o)
      | none => f.nearestDeclaration? p s := by
  rw [nearestDeclaration?_eq, nearestDeclaration?_eq, h.ancestors_of_some hp, List.findSome?_cons]
  cases f.method? p s <;> rfl

/-- A parent that declares the name is the nearest. -/
theorem nearest_iff_of_declares (h : f.Linked) {n p a : Nat} {s : String} {o o' : Method}
    (hp : f.parent? n = some p) (hm : f.method? p s = some o') :
    f.Nearest n s a o ↔ p = a ∧ o' = o := by
  constructor
  · intro hyp
    obtain ⟨habove, hdecl, hfirst⟩ := hyp
    have hpn : f.ProperAncestor p n := Relation.TransGen.single hp
    have hpa : f.InSubtree p a := hfirst p hpn (by simp [hm])
    have hap : f.InSubtree a p := inSubtree_iff.mpr ((properAncestor_iff_of_some hp).mp habove)
    cases h.inSubtree_antisymm hpa hap
    rw [hm] at hdecl
    exact ⟨rfl, Option.some.inj hdecl⟩
  · intro hyp
    obtain ⟨rfl, rfl⟩ := hyp
    refine ⟨Relation.TransGen.single hp, hm, fun b hb _ => ?_⟩
    exact inSubtree_iff.mpr ((properAncestor_iff_of_some hp).mp hb)

/-- The search up the chain finds the nearest declaration. -/
theorem nearestDeclaration?_eq_some_iff (h : f.Linked) {n a : Nat} {s : String} {o : Method} :
    f.nearestDeclaration? n s = some (a, o) ↔ f.Nearest n s a o := by
  induction n using h.grounded.induction with
  | _ n ih =>
    cases hp : f.parent? n with
    | none =>
      rw [nearestDeclaration?_of_none hp]
      constructor
      · intro hno
        cases hno
      · intro hyp
        obtain ⟨habove, -, -⟩ := hyp
        obtain ⟨p, hp', -⟩ := properAncestor_iff.mp habove
        rw [hp] at hp'
        cases hp'
    | some p =>
      rw [h.nearestDeclaration?_of_some hp]
      cases hm : f.method? p s with
      | some o' => simp [h.nearest_iff_of_declares hp hm]
      | none => rw [nearest_iff_of_not_declares hp hm, ← ih p hp]

/-- Where some ancestor declares the name, there is a nearest one. -/
theorem exists_nearest (h : f.Linked) {n b : Nat} {s : String} (hb : f.ProperAncestor b n)
    (hs : (f.method? b s).isSome) : ∃ a o, f.Nearest n s a o := by
  have hfound : (f.nearestDeclaration? n s).isSome := by
    rw [nearestDeclaration?_eq, List.findSome?_isSome_iff]
    exact ⟨b, h.mem_ancestors.mpr hb, by simpa using hs⟩
  obtain ⟨⟨a, o⟩, hao⟩ := Option.isSome_iff_exists.mp hfound
  exact ⟨a, o, h.nearestDeclaration?_eq_some_iff.mp hao⟩

end Linked

/-! ## Conflicts and their reports -/

/-- The `k`-th method `m` of the class at `n` is no constructor and differs from its nearest
declaration, the method `o` of the class at `a`. -/
structure Conflict (f : Forest) (n k : Nat) (m : Method) (a : Nat) (o : Method) : Prop where
  method : f.methodAt? n k = some m
  not_constructor : m.name ≠ Method.constructorName
  nearest : f.Nearest n m.name a o
  incompatible : o.compare m ≠ .compatible

/-- `r` tells that the method `m` of the class at `n` differs from the method `o` of the class at
`a`. -/
structure Describes (f : Forest) (n : Nat) (m : Method) (a : Nat) (o : Method) (r : Report) :
    Prop where
  ancestorClass : f.name? a = some r.ancestorClass
  ancestorMethod : r.ancestorMethod = o.name
  descendantClass : f.name? n = some r.descendantClass
  descendantMethod : r.descendantMethod = m.name
  kind : r.kind = o.compare m
  pairs : r.parameterPairs = o.pairParameters m
  /-- There is a location exactly when the class has one: its file, and the method's line or else
  its own. -/
  location : ∃ c, f.declaration? n = some c ∧ (r.location = none ↔ c.location = none) ∧
    ∀ l, c.location = some l → r.location = some ⟨l.file, m.line.getD l.line⟩

theorem check?_eq_some {f : Forest} {n : Nat} {c : ClassDecl} {m : Method} {r : Report}
    (h : f.check? n c m = some r) :
    m.name ≠ Method.constructorName ∧ ∃ a o, f.nearestDeclaration? n m.name = some (a, o) ∧
      o.compare m ≠ .compatible ∧
      r = { ancestorClass := (f.name? a).getD ""
            ancestorMethod := o.name
            descendantClass := c.name
            descendantMethod := m.name
            kind := o.compare m
            parameterPairs := o.pairParameters m
            location := overrideLocation c m } := by
  unfold check? at h
  split at h
  · cases h
  · rename_i hcon
    split at h
    · cases h
    · rename_i a o hnear
      dsimp only at h
      split at h
      · cases h
      · rename_i hkind
        refine ⟨by simpa [Method.isConstructor] using hcon, a, o, hnear, ?_,
          (Option.some.inj h).symm⟩
        simpa [Verdict.isCompatible] using hkind

theorem check?_isSome {f : Forest} {n : Nat} (c : ClassDecl) {m : Method} {a : Nat} {o : Method}
    (hcon : m.name ≠ Method.constructorName) (hnear : f.nearestDeclaration? n m.name = some (a, o))
    (hkind : o.compare m ≠ .compatible) : (f.check? n c m).isSome := by
  unfold check?
  simp [Method.isConstructor, hcon, hnear, Verdict.isCompatible, hkind]

/-- What the analysis says about the `k`-th method of the class at `n`. -/
def report? (f : Forest) (site : Nat × Nat) : Option Report :=
  (f.declaration? site.1).bind fun c => (c.methods[site.2]?).bind fun m => f.check? site.1 c m

namespace Linked
variable {f : Forest}

theorem conflict_of_report? (h : f.Linked) {n k : Nat} {r : Report}
    (hr : f.report? (n, k) = some r) :
    ∃ m a o, f.Conflict n k m a o ∧ f.Describes n m a o r := by
  obtain ⟨c, hc, hrest⟩ := Option.bind_eq_some_iff.mp hr
  obtain ⟨m, hm, hcheck⟩ := Option.bind_eq_some_iff.mp hrest
  obtain ⟨hcon, a, o, hnear, hkind, rfl⟩ := check?_eq_some hcheck
  have hnear := h.nearestDeclaration?_eq_some_iff.mp hnear
  have hat : f.methodAt? n k = some m := by
    rw [methodAt?, hc]
    exact hm
  refine ⟨m, a, o, ⟨hat, hcon, hnear, hkind⟩, ⟨?_, rfl, ?_, rfl, rfl, rfl, c, hc, ?_, ?_⟩⟩
  · obtain ⟨b, hb, -⟩ := Option.bind_eq_some_iff.mp hnear.declares
    rw [name?_eq, hb]
    rfl
  · rw [name?_eq, hc]
    rfl
  · simp [overrideLocation]
  · intro l hl
    simp [overrideLocation, hl]

theorem report?_isSome_iff (h : f.Linked) {n k : Nat} :
    (f.report? (n, k)).isSome ↔ ∃ m a o, f.Conflict n k m a o := by
  constructor
  · intro hsome
    obtain ⟨r, hr⟩ := Option.isSome_iff_exists.mp hsome
    obtain ⟨m, a, o, hconf, -⟩ := h.conflict_of_report? hr
    exact ⟨m, a, o, hconf⟩
  · intro hconf
    obtain ⟨m, a, o, hm, hcon, hnear, hkind⟩ := hconf
    obtain ⟨c, hc, hm⟩ := Option.bind_eq_some_iff.mp hm
    have hnear := h.nearestDeclaration?_eq_some_iff.mpr hnear
    have hcheck := check?_isSome c hcon hnear hkind
    simpa [report?, hc, hm] using hcheck

end Linked

/-! ## The whole analysis -/

/-- Every method of every class, as its node and its place in the class: in forest order, then in
declaration order. -/
def sites (f : Forest) : List (Nat × Nat) :=
  f.order.flatMap fun n =>
    (List.range (((f.declaration? n).map (·.methods.length)).getD 0)).map fun k => (n, k)

theorem filterMap_eq_range {α β : Type} (l : List α) (g : α → Option β) :
    l.filterMap g = (List.range l.length).filterMap fun k => (l[k]?).bind g := by
  induction l with
  | nil => rfl
  | cons a l ih =>
    rw [List.length_cons, List.range_succ_eq_map, List.filterMap_cons, List.filterMap_cons,
      List.filterMap_map, ih]
    rfl

theorem checkNode_eq {f : Forest} (h : f.Linked) (n : Nat) :
    f.checkNode n =
      ((List.range (((f.declaration? n).map (·.methods.length)).getD 0)).map fun k =>
        (n, k)).filterMap f.report? := by
  unfold checkNode
  rw [declaration?_eq, List.filterMap_map]
  cases hn : f.node? n with
  | none => rfl
  | some x =>
    have hd : f.declaration? n = some x.declaration := by rw [declaration?_eq, hn]; rfl
    simp only [Option.map_some, Option.getD_some, h.id_eq n x hn]
    rw [filterMap_eq_range]
    congr 1
    funext k
    simp [report?, hd]

theorem analyze_eq {f : Forest} (h : f.Linked) : f.analyze = f.sites.filterMap f.report? := by
  unfold analyze sites analyzeTree order
  rw [List.filterMap_flatMap, List.flatMap_assoc]
  congr 1
  funext r
  congr 1
  funext n
  exact checkNode_eq h n

theorem mem_sites {f : Forest} (h : f.WellFormed) {n k : Nat} :
    (n, k) ∈ f.sites ↔ (f.methodAt? n k).isSome := by
  unfold sites methodAt?
  rw [List.mem_flatMap]
  constructor
  · intro hmem
    obtain ⟨x, -, hk⟩ := hmem
    obtain ⟨k', hk', he⟩ := List.mem_map.mp hk
    cases he
    rw [List.mem_range] at hk'
    cases hd : f.declaration? n with
    | none => simp [hd] at hk'
    | some c => simpa [hd] using hk'
  · intro hsome
    cases hd : f.declaration? n with
    | none => simp [hd] at hsome
    | some c =>
      have hn : n < f.size := by
        rw [← length_declarations]
        exact (List.getElem?_eq_some_iff.mp hd).1
      exact ⟨n, h.mem_order.mpr hn, by simpa [hd] using hsome⟩

/-- One method before another: its class comes earlier in the forest, or it comes earlier in the
class. -/
def Precedes (f : Forest) (s t : Nat × Nat) : Prop :=
  f.order.idxOf s.1 < f.order.idxOf t.1 ∨ s.1 = t.1 ∧ s.2 < t.2

theorem pairwise_idxOf {l : List Nat} (h : l.Nodup) :
    l.Pairwise fun a b => l.idxOf a < l.idxOf b := by
  rw [List.pairwise_iff_getElem]
  intro i j hi hj hij
  rw [h.idxOf_getElem i hi, h.idxOf_getElem j hj]
  exact hij

theorem pairwise_sites {f : Forest} (h : f.WellFormed) : f.sites.Pairwise f.Precedes := by
  unfold sites
  rw [List.pairwise_flatMap]
  refine ⟨fun n _ => ?_, ?_⟩
  · rw [List.pairwise_map]
    exact List.pairwise_lt_range.imp fun hlt => Or.inr ⟨rfl, hlt⟩
  · refine (pairwise_idxOf h.nodup_order).imp ?_
    intro a b hab s hs t ht
    obtain ⟨k, -, rfl⟩ := List.mem_map.mp hs
    obtain ⟨l, -, rfl⟩ := List.mem_map.mp ht
    exact Or.inl hab

/-- **Soundness, completeness and order.** The conflicts of the forest of any classes can be listed,
by node and place in the class, so that they stand in forest order and then in declaration order,
and the reports of the analysis describe them one by one. -/
theorem analyze_exact (ds : List ClassDecl) :
    ∃ conflicts : List (Nat × Nat),
      (∀ n k, (n, k) ∈ conflicts ↔ ∃ m a o, (build ds).Conflict n k m a o) ∧
      conflicts.Pairwise (build ds).Precedes ∧
      List.Forall₂
        (fun s r => ∃ m a o, (build ds).Conflict s.1 s.2 m a o ∧ (build ds).Describes s.1 m a o r)
        conflicts (build ds).analyze := by
  have h := wellFormed_build ds
  refine ⟨(build ds).sites.filter fun s => ((build ds).report? s).isSome, ?_, ?_, ?_⟩
  · intro n k
    rw [List.mem_filter, h.report?_isSome_iff, mem_sites h]
    refine ⟨fun hs => hs.2, fun hc => ⟨?_, hc⟩⟩
    obtain ⟨m, a, o, hconf⟩ := hc
    rw [hconf.method]
    rfl
  · exact (pairwise_sites h).filter _
  · rw [analyze_eq h.toLinked]
    refine (forall₂_filterMap (build ds).report? _).imp ?_
    intro s r hr
    exact h.conflict_of_report? hr

end Lineage.Forest
