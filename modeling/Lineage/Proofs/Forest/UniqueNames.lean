import Mathlib.Data.Set.Card
import Mathlib.Data.Set.Finite.Lemmas
import Lineage.Proofs.Forest.WellFormed

/-!
# The forest of classes with unique names

When no name repeats, the forest has a closed form that does not mention insertion: every class
hangs below the class it names, and each cycle of declared parents is cut at one place, the member
that came last.

**Declared parents.** `Declares ds i j`: the `i`-th class names the `j`-th. With unique names a
class declares at most one parent, so what is reachable from a member of a cycle is the cycle itself
(`transGen_back`).

**One more class.** Let `v` be the place of the new class. Links among the old classes stay, so an
old class closes a cycle exactly if it did before (`closesCycle_concat`): a cycle through `v` is
closed by `v`. In the state in which the parent of `v` is searched for, the subtree of `v` is what
leads to `v` through declared parents (`inSubtree_prepare_iff`), so the declared parent of `v` is
found exactly if it does not lead back.

`build_resolved` states the closed form, the number of orphans and the independence of order.
-/
namespace Lineage

/-! ## Declared parents -/

/-- The class at `i` names the class at `j` as its parent. -/
def Declares (ds : List ClassDecl) (i j : Nat) : Prop :=
  ∃ x y, ds[i]? = some x ∧ ds[j]? = some y ∧ x.parentName = some y.name

instance (ds : List ClassDecl) (i j : Nat) : Decidable (Declares ds i j) :=
  decidable_of_iff
    (∃ x ∈ ds[i]?, ∃ y ∈ ds[j]?, x.parentName = some y.name) (by simp [Declares])

/-- `i` and `j` lead to each other through declared parents. -/
def SameCycle (ds : List ClassDecl) (i j : Nat) : Prop :=
  Relation.TransGen (Declares ds) i j ∧ Relation.TransGen (Declares ds) j i

/-- `i` lies on a cycle of declared parents. -/
def OnCycle (ds : List ClassDecl) (i : Nat) : Prop := Relation.TransGen (Declares ds) i i

/-- `i` is the member of a cycle that came last. -/
def ClosesCycle (ds : List ClassDecl) (i : Nat) : Prop :=
  OnCycle ds i ∧ ∀ j, SameCycle ds i j → j ≤ i

/-- The cycles of declared parents, each as the set of its members. -/
def cycles (ds : List ClassDecl) : Set (Set Nat) :=
  {C | ∃ i, OnCycle ds i ∧ C = {j | SameCycle ds i j}}

/-- The classes that name a parent which is not there. -/
def absentees (ds : List ClassDecl) : Set Nat :=
  {i | ∃ x s, ds[i]? = some x ∧ x.parentName = some s ∧ ∀ y ∈ ds, y.name ≠ s}

/-- No two classes share a name. -/
def UniqueNames (ds : List ClassDecl) : Prop := (ds.map (·.name)).Nodup

instance (ds : List ClassDecl) : Decidable (UniqueNames ds) :=
  inferInstanceAs (Decidable (List.Nodup _))

theorem UniqueNames.inj {ds : List ClassDecl} (hu : UniqueNames ds) {i j : Nat} {x y : ClassDecl}
    (hx : ds[i]? = some x) (hy : ds[j]? = some y) (hxy : x.name = y.name) : i = j := by
  have hi : i < (ds.map (·.name)).length := by
    rw [List.length_map]
    exact (List.getElem?_eq_some_iff.mp hx).1
  apply (List.getElem?_inj hi hu).mp
  rw [List.getElem?_map, List.getElem?_map, hx, hy]
  exact congrArg some hxy

theorem declares_unique {ds : List ClassDecl} (hu : UniqueNames ds) :
    Relator.RightUnique (Declares ds) := by
  intro i j k hyp hyp'
  obtain ⟨x, y, hx, hy, hxy⟩ := hyp
  obtain ⟨x', z, hx', hz, hxz⟩ := hyp'
  rw [hx] at hx'
  cases hx'
  rw [hxy] at hxz
  exact hu.inj hy hz (Option.some.inj hxz)

theorem Declares.lt {ds : List ClassDecl} {i j : Nat} (h : Declares ds i j) :
    i < ds.length ∧ j < ds.length := by
  obtain ⟨x, y, hx, hy, -⟩ := h
  exact ⟨(List.getElem?_eq_some_iff.mp hx).1, (List.getElem?_eq_some_iff.mp hy).1⟩

theorem transGen_declares_lt {ds : List ClassDecl} {i j : Nat}
    (h : Relation.TransGen (Declares ds) i j) : i < ds.length ∧ j < ds.length := by
  obtain ⟨k, hk, -⟩ := Relation.TransGen.head'_iff.mp h
  obtain ⟨l, -, hl⟩ := Relation.TransGen.tail'_iff.mp h
  exact ⟨hk.lt.1, hl.lt.2⟩

/-- Parents that come before their children make no cycle. -/
theorem not_onCycle_of_lt {ds : List ClassDecl} (h : ∀ i j, Declares ds i j → j < i) (i : Nat) :
    ¬ OnCycle ds i := by
  have hlt : ∀ j, Relation.TransGen (Declares ds) i j → j < i := by
    intro j hpath
    induction hpath with
    | single hd => exact h _ _ hd
    | tail _ hd ih => exact Nat.lt_trans (h _ _ hd) ih
  intro hcyc
  exact Nat.lt_irrefl i (hlt i hcyc)

/-- Where every point has at most one successor, all that is reachable from a cycle leads back. -/
theorem transGen_back {α : Type} {R : α → α → Prop} (hR : Relator.RightUnique R) {i j : α}
    (hi : Relation.TransGen R i i) (hij : Relation.ReflTransGen R i j) :
    Relation.TransGen R j i := by
  induction hij with
  | refl => exact hi
  | tail _ hkl ih =>
    obtain ⟨m, hkm, hmi⟩ := Relation.TransGen.head'_iff.mp ih
    cases hR hkl hkm
    exact Relation.TransGen.trans_right hmi hi

/-! ## One more class -/

section
variable {ds : List ClassDecl} {d : ClassDecl}

theorem declares_concat_old {i j : Nat} (hi : i < ds.length) (hj : j < ds.length) :
    Declares (ds ++ [d]) i j ↔ Declares ds i j := by
  unfold Declares
  rw [List.getElem?_append_left hi, List.getElem?_append_left hj]

theorem Declares.concat {i j : Nat} (h : Declares ds i j) : Declares (ds ++ [d]) i j :=
  (declares_concat_old h.lt.1 h.lt.2).mpr h

theorem lt_or_eq_of_concat {i j : Nat} (h : Declares (ds ++ [d]) i j) :
    (i < ds.length ∨ i = ds.length) ∧ (j < ds.length ∨ j = ds.length) := by
  have := h.lt
  rw [List.length_append, List.length_singleton] at this
  omega

theorem declares_concat_new {i : Nat} (hi : i < ds.length) :
    Declares (ds ++ [d]) i ds.length ↔ ∃ x, ds[i]? = some x ∧ x.parentName = some d.name := by
  unfold Declares
  rw [List.getElem?_append_left hi, List.getElem?_concat_length]
  constructor
  · intro hyp
    obtain ⟨x, y, hx, hy, hp⟩ := hyp
    cases hy
    exact ⟨x, hx, hp⟩
  · intro hyp
    obtain ⟨x, hx, hp⟩ := hyp
    exact ⟨x, d, hx, rfl, hp⟩

theorem transGen_concat {i j : Nat} (h : Relation.TransGen (Declares ds) i j) :
    Relation.TransGen (Declares (ds ++ [d])) i j :=
  Relation.TransGen.mono (fun _ _ hd => hd.concat) i j h

/-- A path that never reaches the new class is an old path. -/
theorem transGen_of_concat {i j : Nat} (h : Relation.TransGen (Declares (ds ++ [d])) i j)
    (hi : i < ds.length) (hv : ¬ Relation.TransGen (Declares (ds ++ [d])) i ds.length) :
    Relation.TransGen (Declares ds) i j := by
  induction h with
  | single hd =>
    rcases (lt_or_eq_of_concat hd).2 with hlt | rfl
    · exact .single ((declares_concat_old hi hlt).mp hd)
    · exact absurd (.single hd) hv
  | tail hpath hd ih =>
    have hlt := (transGen_declares_lt ih).2
    rcases (lt_or_eq_of_concat hd).2 with hlt' | rfl
    · exact ih.tail ((declares_concat_old hlt hlt').mp hd)
    · exact absurd (hpath.tail hd) hv

/-- The new class is the last member of any cycle that it is on. -/
theorem closesCycle_concat_new :
    ClosesCycle (ds ++ [d]) ds.length ↔ OnCycle (ds ++ [d]) ds.length := by
  refine ⟨fun h => h.1, fun h => ⟨h, ?_⟩⟩
  intro j hyp
  obtain ⟨-, hj⟩ := hyp
  have := (transGen_declares_lt hj).1
  rw [List.length_append, List.length_singleton] at this
  omega

section
variable (hu : UniqueNames (ds ++ [d]))
include hu

theorem uniqueNames_of_concat : UniqueNames ds := by
  unfold UniqueNames at hu ⊢
  rw [List.map_append] at hu
  exact (List.nodup_append.mp hu).1

/-- No old class has the new class's name. -/
theorem name_ne_of_concat {j : Nat} {y : ClassDecl} (hy : ds[j]? = some y) : y.name ≠ d.name := by
  intro hname
  have hj := (List.getElem?_eq_some_iff.mp hy).1
  have hy' : (ds ++ [d])[j]? = some y := by rwa [List.getElem?_append_left hj]
  have := hu.inj hy' List.getElem?_concat_length hname
  omega

/-- An old cycle stays closed: it cannot be left for the new class. -/
theorem transGen_of_onCycle {i j : Nat} (hi : OnCycle ds i)
    (h : Relation.TransGen (Declares (ds ++ [d])) i j) : Relation.TransGen (Declares ds) i j := by
  have hold := declares_unique (uniqueNames_of_concat hu)
  have hnew := declares_unique hu
  have step : ∀ {k l : Nat}, Relation.ReflTransGen (Declares ds) i k → Declares (ds ++ [d]) k l →
      Declares ds k l := by
    intro k l hk hd
    obtain ⟨m, hm, -⟩ := Relation.TransGen.head'_iff.mp (transGen_back hold hi hk)
    cases hnew hd hm.concat
    exact hm
  induction h with
  | single hd => exact .single (step .refl hd)
  | tail _ hd ih => exact ih.tail (step ih.to_reflTransGen hd)

/-- An old class on a path to the new one closes no cycle. -/
theorem not_closesCycle_of_path {i : Nat}
    (h : Relation.TransGen (Declares (ds ++ [d])) i ds.length) : ¬ ClosesCycle ds i := by
  intro hyp
  obtain ⟨hcyc, -⟩ := hyp
  have := (transGen_declares_lt (transGen_of_onCycle hu hcyc h)).2
  omega

theorem closesCycle_concat {i : Nat} (hi : i < ds.length) :
    ClosesCycle (ds ++ [d]) i ↔ ClosesCycle ds i := by
  constructor
  · intro hyp
    obtain ⟨hcyc, hlast⟩ := hyp
    have hv : ¬ Relation.TransGen (Declares (ds ++ [d])) i ds.length := by
      intro hv
      have hback := transGen_back (declares_unique hu) hcyc hv.to_reflTransGen
      have := hlast ds.length ⟨hv, hback⟩
      omega
    refine ⟨transGen_of_concat hcyc hi hv, ?_⟩
    intro j hyp
    obtain ⟨hij, hji⟩ := hyp
    exact hlast j ⟨transGen_concat hij, transGen_concat hji⟩
  · intro hyp
    obtain ⟨hcyc, hlast⟩ := hyp
    refine ⟨transGen_concat hcyc, ?_⟩
    intro j hyp
    obtain ⟨hij, -⟩ := hyp
    have hij' := transGen_of_onCycle hu hcyc hij
    have hji := transGen_back (declares_unique (uniqueNames_of_concat hu)) hcyc hij'.to_reflTransGen
    exact hlast j ⟨hij', hji⟩

end
end

/-! ## The closed form -/

namespace Forest

/-- The parents are the declared ones, except where a cycle is cut. -/
def FollowsDeclared (ds : List ClassDecl) (f : Forest) : Prop :=
  ∀ i j, f.parent? i = some j ↔ Declares ds i j ∧ ¬ ClosesCycle ds i

section
variable {ds : List ClassDecl} {d : ClassDecl} (hu : UniqueNames (ds ++ [d]))
  (ih : FollowsDeclared ds (build ds))
include hu ih

/-- A class that waits for the new one has no parent yet, and the other way round. -/
theorem mem_waiting_iff {i : Nat} :
    i ∈ (build ds).waiting d.name ↔ i < ds.length ∧ Declares (ds ++ [d]) i ds.length := by
  have hwf := wellFormed_build ds
  rw [mem_waiting, declaration?, declarations_build]
  constructor
  · intro hyp
    obtain ⟨hr, x, hx, hp⟩ := hyp
    have hi : i < ds.length := (List.getElem?_eq_some_iff.mp hx).1
    exact ⟨hi, (declares_concat_new hi).mpr ⟨x, hx, hp⟩⟩
  · intro hyp
    obtain ⟨hi, hd⟩ := hyp
    obtain ⟨x, hx, hp⟩ := (declares_concat_new hi).mp hd
    refine ⟨hwf.complete i (by rwa [size_build]) ?_, x, hx, hp⟩
    cases hpar : (build ds).parent? i with
    | none => rfl
    | some j =>
      obtain ⟨⟨x', y, hx', hy, hxy⟩, -⟩ := (ih i j).mp hpar
      rw [hx] at hx'
      cases hx'
      rw [hp] at hxy
      exact absurd (Option.some.inj hxy).symm (name_ne_of_concat hu hy)

/-- While the parent of the new class is searched for, its subtree is what leads to it. -/
theorem inSubtree_prepare_iff {j : Nat} :
    ((build ds).prepare d).InSubtree ds.length j ↔
      Relation.ReflTransGen (Declares (ds ++ [d])) j ds.length := by
  have hwf := wellFormed_build ds
  have hpar := hwf.parent?_prepare d
  rw [size_build] at hpar
  have hwait := fun i => mem_waiting_iff hu ih (i := i)
  constructor
  · refine Relation.ReflTransGen.mono ?_ j ds.length
    intro c p hlink
    rw [Link, hpar] at hlink
    split at hlink
    · rename_i hc
      cases hlink
      exact ((hwait c).mp hc).2
    · exact ((ih c p).mp hlink).1.concat
  · intro hpath
    induction hpath using Relation.ReflTransGen.head_induction_on with
    | refl => exact Relation.ReflTransGen.refl
    | @head c p hd hrest hsub =>
      rcases (lt_or_eq_of_concat hd).1 with hc | rfl
      · refine Relation.ReflTransGen.head ?_ hsub
        rw [Link, hpar]
        rcases (lt_or_eq_of_concat hd).2 with hp | rfl
        · have hd' := (declares_concat_old hc hp).mp hd
          have hnot := not_closesCycle_of_path hu (Relation.TransGen.head' hd hrest)
          have hlink := (ih c p).mpr ⟨hd', hnot⟩
          have hroot : c ∉ (build ds).waiting d.name := by
            intro hw
            have htop := hwf.root_top c (mem_waiting.mp hw).1
            rw [hlink] at htop
            cases htop
          rw [if_neg hroot, hlink]
        · rw [if_pos ((hwait c).mpr ⟨hc, hd⟩)]
      · exact Relation.ReflTransGen.refl

/-- The declared parent of the new class is found exactly if it does not lead back. -/
theorem newParent?_iff {j : Nat} :
    (build ds).newParent? d = some j ↔
      Declares (ds ++ [d]) ds.length j ∧ ¬ OnCycle (ds ++ [d]) ds.length := by
  have hwf := wellFormed_build ds
  have hsub := fun j => inSubtree_prepare_iff hu ih (j := j)
  have hname : ∀ j, ((build ds).prepare d).name? j = ((ds ++ [d])[j]?).map (·.name) := by
    intro j
    rw [name?_eq, declaration?, declarations_prepare, declarations_build]
  -- Being on a cycle is: the one declared parent leads back.
  have hcyc : ∀ {j}, Declares (ds ++ [d]) ds.length j →
      (OnCycle (ds ++ [d]) ds.length ↔
        Relation.ReflTransGen (Declares (ds ++ [d])) j ds.length) := by
    intro j hd
    unfold OnCycle
    rw [Relation.TransGen.head'_iff]
    constructor
    · intro hyp
      obtain ⟨k, hk, hback⟩ := hyp
      cases declares_unique hu hd hk
      exact hback
    · intro hback
      exact ⟨j, hd, hback⟩
  constructor
  · intro hp
    obtain ⟨-, hout, s, hs, hnm⟩ := hwf.newParent?_some hp
    rw [hname, Option.map_eq_some_iff] at hnm
    obtain ⟨y, hy, rfl⟩ := hnm
    have hd : Declares (ds ++ [d]) ds.length j := ⟨d, y, List.getElem?_concat_length, hy, hs⟩
    rw [size_build, hsub] at hout
    exact ⟨hd, fun hc => hout ((hcyc hd).mp hc)⟩
  · intro hyp
    obtain ⟨hd, hnot⟩ := hyp
    rw [hcyc hd, ← hsub] at hnot
    obtain ⟨x, y, hx, hy, hs⟩ := hd
    rw [List.getElem?_concat_length] at hx
    cases hx
    have hnm : ((build ds).prepare d).name? j = some y.name := by rw [hname, hy]; rfl
    have hlt : j < ((build ds).prepare d).size := by
      have := (List.getElem?_eq_some_iff.mp hy).1
      rwa [List.length_append, List.length_singleton, ← size_build ds, ← size_prepare _ d] at this
    rw [newParent?, hs]
    change ((build ds).prepare d).find? y.name = some j
    have hw := hwf.prepare d
    cases hfind : ((build ds).prepare d).find? y.name with
    | none =>
      have := hw.find?_none hfind hnm hlt
      rw [size_build] at this
      exact absurd this hnot
    | some k =>
      obtain ⟨-, -, hk⟩ := hw.find?_some hfind
      rw [hname, Option.map_eq_some_iff] at hk
      obtain ⟨z, hz, hzy⟩ := hk
      rw [hu.inj hz hy hzy]

theorem followsDeclared_concat : FollowsDeclared (ds ++ [d]) (build (ds ++ [d])) := by
  intro i j
  have hwf := wellFormed_build ds
  rw [build_concat, hwf.parent?_insert, size_build]
  have hwait := mem_waiting_iff hu ih (i := i)
  split
  · rename_i hi
    rw [hi, newParent?_iff hu ih, closesCycle_concat_new]
  · rename_i hne
    split
    · rename_i hw
      obtain ⟨hi, hd⟩ := hwait.mp hw
      have hnot : ¬ ClosesCycle (ds ++ [d]) i := by
        rw [closesCycle_concat hu hi]
        exact not_closesCycle_of_path hu (.single hd)
      constructor
      · intro hj
        cases hj
        exact ⟨hd, hnot⟩
      · intro hyp
        obtain ⟨hdj, -⟩ := hyp
        rw [declares_unique hu hd hdj]
    · rename_i hw
      rw [ih i j]
      constructor
      · intro hyp
        obtain ⟨hd, hnot⟩ := hyp
        rw [closesCycle_concat hu hd.lt.1]
        exact ⟨hd.concat, hnot⟩
      · intro hyp
        obtain ⟨hd, hnot⟩ := hyp
        obtain ⟨hi, hj⟩ := lt_or_eq_of_concat hd
        have hi : i < ds.length := by omega
        have hj : j < ds.length := by
          rcases hj with hj | rfl
          · exact hj
          · exact absurd (hwait.mpr ⟨hi, hd⟩) hw
        rw [closesCycle_concat hu hi] at hnot
        exact ⟨(declares_concat_old hi hj).mp hd, hnot⟩

end

theorem followsDeclared_build {ds : List ClassDecl} (hu : UniqueNames ds) :
    FollowsDeclared ds (build ds) := by
  induction ds using List.reverseRecOn with
  | nil =>
    intro i j
    constructor
    · intro h
      exact absurd (lt_of_parent? h) (by simp [build, size])
    · intro hyp
      obtain ⟨hd, -⟩ := hyp
      exact absurd hd.lt.1 (by simp)
  | append_singleton ds d ih => exact followsDeclared_concat hu (ih (uniqueNames_of_concat hu))

/-! ## Roots, orphans and order -/

section
variable {ds : List ClassDecl}

theorem mem_roots_iff (hu : UniqueNames ds) {i : Nat} (hi : i < ds.length) :
    i ∈ (build ds).roots ↔ ClosesCycle ds i ∨ ∀ j, ¬ Declares ds i j := by
  have hform := followsDeclared_build hu
  rw [(wellFormed_build ds).root_iff (by rwa [size_build])]
  constructor
  · intro hnone
    by_cases hc : ClosesCycle ds i
    · exact Or.inl hc
    · refine Or.inr fun j hd => ?_
      rw [(hform i j).mpr ⟨hd, hc⟩] at hnone
      cases hnone
  · intro h
    cases hp : (build ds).parent? i with
    | none => rfl
    | some j =>
      obtain ⟨hd, hnot⟩ := (hform i j).mp hp
      rcases h with hc | hno
      · exact absurd hc hnot
      · exact absurd hd (hno j)

/-- A root with a declared parent either misses it or closes a cycle. -/
theorem mem_orphans_iff (hu : UniqueNames ds) {i : Nat} :
    i ∈ (build ds).orphans ↔ i ∈ absentees ds ∨ ClosesCycle ds i := by
  have hnode : ∀ i, (((build ds).node? i).bind (·.declaration.parentName)) =
      (ds[i]?).bind (·.parentName) := by
    intro i
    have hdecl := declaration?_eq (build ds) i
    rw [declaration?, declarations_build] at hdecl
    rw [hdecl, Option.bind_map]
    rfl
  rw [orphans, List.mem_filter, hnode]
  constructor
  · intro hyp
    obtain ⟨hr, hsome⟩ := hyp
    obtain ⟨s, hs⟩ := Option.isSome_iff_exists.mp hsome
    obtain ⟨x, hx, hxs⟩ := Option.bind_eq_some_iff.mp hs
    have hi := (List.getElem?_eq_some_iff.mp hx).1
    rcases (mem_roots_iff hu hi).mp hr with hc | hno
    · exact Or.inr hc
    · refine Or.inl ⟨x, s, hx, hxs, fun y hy hys => ?_⟩
      obtain ⟨j, hj⟩ := List.mem_iff_getElem?.mp hy
      exact hno j ⟨x, y, hx, hj, hys ▸ hxs⟩
  · intro hyp
    rcases hyp with ⟨x, s, hx, hxs, habs⟩ | hc
    · have hi := (List.getElem?_eq_some_iff.mp hx).1
      refine ⟨(mem_roots_iff hu hi).mpr (Or.inr ?_), by simp [hx, hxs]⟩
      intro j hyp
      obtain ⟨x', y, hx', hy, hxy⟩ := hyp
      rw [hx] at hx'
      cases hx'
      rw [hxs] at hxy
      exact habs y (List.mem_of_getElem? hy) (Option.some.inj hxy).symm
    · have hi := (transGen_declares_lt hc.1).1
      obtain ⟨j, ⟨x, y, hx, -, hxy⟩, -⟩ := Relation.TransGen.head'_iff.mp hc.1
      exact ⟨(mem_roots_iff hu hi).mpr (Or.inl hc), by simp [hx, hxy]⟩

end
end Forest

/-- Every cycle has exactly one member that closes it. -/
theorem ncard_cycles (ds : List ClassDecl) : (cycles ds).ncard = {i | ClosesCycle ds i}.ncard := by
  have hfin : ∀ i, {j | SameCycle ds i j}.Finite := by
    intro i
    refine (Set.finite_lt_nat ds.length).subset ?_
    intro j hyp
    obtain ⟨hij, -⟩ := hyp
    exact (transGen_declares_lt hij).2
  have himage : cycles ds = (fun i => {j | SameCycle ds i j}) '' {i | ClosesCycle ds i} := by
    ext C
    constructor
    · intro hyp
      obtain ⟨i, hi, rfl⟩ := hyp
      obtain ⟨m, hm, hmax⟩ := Set.exists_max_image _ id (hfin i) ⟨i, hi, hi⟩
      have hmi : {j | SameCycle ds m j} = {j | SameCycle ds i j} := by
        ext j
        exact ⟨fun h => ⟨hm.1.trans h.1, h.2.trans hm.2⟩, fun h => ⟨hm.2.trans h.1, h.2.trans hm.1⟩⟩
      refine ⟨m, ⟨hm.2.trans hm.1, fun j hj => ?_⟩, hmi⟩
      exact hmax j (hmi ▸ hj)
    · intro hyp
      obtain ⟨i, hi, rfl⟩ := hyp
      exact ⟨i, hi.1, rfl⟩
  rw [himage, Set.InjOn.ncard_image]
  intro a ha b hb hab
  have hmem : ∀ j, SameCycle ds a j ↔ SameCycle ds b j := fun j => Set.ext_iff.mp hab j
  have hba : b ≤ a := ha.2 b ((hmem b).mpr ⟨hb.1, hb.1⟩)
  have hab : a ≤ b := hb.2 a ((hmem a).mp ⟨ha.1, ha.1⟩)
  omega

namespace Forest

theorem length_orphans {ds : List ClassDecl} (hu : UniqueNames ds) :
    (build ds).orphans.length = (absentees ds).ncard + (cycles ds).ncard := by
  have hnd : (build ds).orphans.Nodup := (wellFormed_build ds).roots_nodup.filter _
  have hset : ((build ds).orphans.toFinset : Set Nat) = absentees ds ∪ {i | ClosesCycle ds i} := by
    ext i
    simp [mem_orphans_iff hu]
  have hfin := (build ds).orphans.toFinset.finite_toSet
  rw [hset] at hfin
  have hdisj : Disjoint (absentees ds) {i | ClosesCycle ds i} := by
    rw [Set.disjoint_left]
    intro i hyp hyp'
    obtain ⟨x, s, hx, hxs, habs⟩ := hyp
    obtain ⟨hcyc, -⟩ := hyp'
    obtain ⟨j, ⟨x', y, hx', hy, hxy⟩, -⟩ := Relation.TransGen.head'_iff.mp hcyc
    rw [hx] at hx'
    cases hx'
    rw [hxs] at hxy
    exact habs y (List.mem_of_getElem? hy) (Option.some.inj hxy).symm
  rw [ncard_cycles, ← Set.ncard_union_eq hdisj (hfin.subset Set.subset_union_left)
    (hfin.subset Set.subset_union_right), ← hset, Set.ncard_coe_finset,
    List.toFinset_card_of_nodup hnd]

/-- Some node called `c` has a parent called `p`. -/
def ParentByName (f : Forest) (c p : String) : Prop :=
  ∃ i j, f.parent? i = some j ∧ f.name? i = some c ∧ f.name? j = some p

theorem name?_build (ds : List ClassDecl) (i : Nat) :
    (build ds).name? i = (ds[i]?).map (·.name) := by
  rw [name?_eq, declaration?, declarations_build]

theorem parentByName_iff {ds : List ClassDecl} (hu : UniqueNames ds) (hfree : ∀ i, ¬ OnCycle ds i)
    (c p : String) :
    ParentByName (build ds) c p ↔
      ∃ x ∈ ds, ∃ y ∈ ds, x.parentName = some y.name ∧ x.name = c ∧ y.name = p := by
  have hform := followsDeclared_build hu
  unfold ParentByName
  simp only [name?_build, Option.map_eq_some_iff]
  constructor
  · intro hyp
    obtain ⟨i, j, hij, ⟨x, hx, hxc⟩, ⟨y, hy, hyp⟩⟩ := hyp
    obtain ⟨⟨x', y', hx', hy', hxy⟩, -⟩ := (hform i j).mp hij
    rw [hx] at hx'
    rw [hy] at hy'
    cases hx'
    cases hy'
    exact ⟨x, List.mem_of_getElem? hx, y, List.mem_of_getElem? hy, hxy, hxc, hyp⟩
  · intro hyp
    obtain ⟨x, hx, y, hy, hxy, hxc, hyp⟩ := hyp
    obtain ⟨i, hi⟩ := List.mem_iff_getElem?.mp hx
    obtain ⟨j, hj⟩ := List.mem_iff_getElem?.mp hy
    have hij := (hform i j).mpr ⟨⟨x, y, hi, hj, hxy⟩, fun hc => hfree i hc.1⟩
    exact ⟨i, j, hij, ⟨x, hi, hxc⟩, ⟨y, hj, hyp⟩⟩

end Forest

/-- The place in `ds'` of the class that stands at `i` in `ds`. -/
def relocate (ds ds' : List ClassDecl) (i : Nat) : Nat := ((ds[i]?).map ds'.idxOf).getD 0

section
variable {ds ds' : List ClassDecl} (hperm : ds.Perm ds')
include hperm

theorem getElem?_relocate {i : Nat} {x : ClassDecl} (hx : ds[i]? = some x) :
    ds'[relocate ds ds' i]? = some x := by
  have hmem : x ∈ ds' := hperm.mem_iff.mp (List.mem_of_getElem? hx)
  have hlt := List.idxOf_lt_length_of_mem hmem
  simp only [relocate, hx, Option.map_some, Option.getD_some]
  rw [List.getElem?_eq_getElem hlt, List.getElem_idxOf]

theorem declares_relocate {i j : Nat} (h : Declares ds i j) :
    Declares ds' (relocate ds ds' i) (relocate ds ds' j) := by
  obtain ⟨x, y, hx, hy, hxy⟩ := h
  exact ⟨x, y, getElem?_relocate hperm hx, getElem?_relocate hperm hy, hxy⟩

/-- Rearranging the classes makes no new cycle. -/
theorem onCycle_of_perm {i : Nat} (h : OnCycle ds' i) : ∃ j, OnCycle ds j := by
  refine ⟨relocate ds' ds i, Relation.TransGen.lift (relocate ds' ds) ?_ i i h⟩
  intro a b hd
  exact declares_relocate hperm.symm hd

/-- With unique names a class has one place, so that moving it there and back moves it nowhere. -/
theorem relocate_relocate (hu : UniqueNames ds) {i : Nat} (hi : i < ds.length) :
    relocate ds' ds (relocate ds ds' i) = i := by
  have hx := List.getElem?_eq_getElem hi
  exact hu.inj (getElem?_relocate hperm.symm (getElem?_relocate hperm hx)) hx rfl

end

namespace Forest

/-- The forest `f` is the closed form of the classes `ds`. -/
structure Resolved (ds : List ClassDecl) (f : Forest) : Prop where
  /-- Every class hangs below the class that it names, unless it closes a cycle. -/
  parent_iff : ∀ i j, f.parent? i = some j ↔ Declares ds i j ∧ ¬ ClosesCycle ds i
  /-- A root closes a cycle, or names no parent, or one that is not there. -/
  root_iff : ∀ i < ds.length, i ∈ f.roots ↔ ClosesCycle ds i ∨ ∀ j, ¬ Declares ds i j
  orphans : f.stats.orphans = (absentees ds).ncard + (cycles ds).ncard
  /-- Without cycles, the order of arrival leaves no trace in who is whose parent. -/
  order_free : (∀ i, ¬ OnCycle ds i) → ∀ ds', ds.Perm ds' →
    ∀ c p, ParentByName f c p ↔ ParentByName (build ds') c p

/-- **Closed form.** Classes with unique names, in any order and with any declared parents. -/
theorem build_resolved (ds : List ClassDecl) (hu : UniqueNames ds) : Resolved ds (build ds) := by
  refine ⟨followsDeclared_build hu, fun i hi => mem_roots_iff hu hi, length_orphans hu, ?_⟩
  intro hfree ds' hperm c p
  have hu' : UniqueNames ds' := (hperm.map _).nodup_iff.mp hu
  have hfree' : ∀ i, ¬ OnCycle ds' i := by
    intro i hi
    obtain ⟨j, hj⟩ := onCycle_of_perm hperm hi
    exact hfree j hj
  rw [parentByName_iff hu hfree, parentByName_iff hu' hfree']
  simp only [hperm.mem_iff]

/-- Two classes that name each other, one that names itself, one whose parent never comes, and a
child of the first. -/
def tangle : List ClassDecl :=
  [{ name := "A", parentName := some "B" }, { name := "B", parentName := some "A" },
    { name := "C", parentName := some "C" }, { name := "D", parentName := some "Z" },
    { name := "E", parentName := some "A" }]

/-- A chain of three, parents first. -/
def ladder : List ClassDecl :=
  [{ name := "A" },
   { name := "B", parentName := some "A" },
   { name := "C", parentName := some "B" }]

theorem ladder_acyclic (i : Nat) : ¬ OnCycle ladder i := by
  have hbounded : ∀ i < ladder.length, ∀ j < ladder.length, Declares ladder i j → j < i := by decide
  exact not_onCycle_of_lt (fun i j hd => hbounded i hd.lt.1 j hd.lt.2 hd) i

theorem tangle_and_ladder_resolved :
    (UniqueNames tangle ∧ Resolved tangle (build tangle) ∧ (build tangle).stats.orphans = 3) ∧
      UniqueNames ladder ∧ (∀ i, ¬ OnCycle ladder i) ∧
      ∀ c p, ParentByName (build ladder) c p ↔ ParentByName (build ladder.reverse) c p :=
  ⟨⟨by decide, build_resolved tangle (by decide), by decide⟩, by decide, ladder_acyclic,
    (build_resolved ladder (by decide)).order_free ladder_acyclic _ (List.reverse_perm ladder).symm⟩

end Forest

end Lineage
