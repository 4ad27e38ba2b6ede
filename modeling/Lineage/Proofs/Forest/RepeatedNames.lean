import Lineage.Proofs.Forest.Embedding

/-!
# Which namesake becomes the parent

Names may repeat, so the name that a class declares may be carried by many nodes, before it and after
it. One moment decides: the forest `f` just before the class is inserted.

**Earlier namesakes.** The search goes through `f` in its own order and leaves out the trees that the
new node has just taken over (`WellFormed.order_prepare`). So it lands on the first node of the
wanted name outside those trees (`WellFormed.newParent?_eq_some_iff`), and that link stays.

**Later namesakes.** Without such a node the class becomes a root that waits, and nothing but a class
of the wanted name ever takes it over. The first one that comes does (`parent?_build_of_waiting`).

`build_parent_choice` puts the two together.
-/
namespace Lineage.Forest

/-! ## What the search sees -/

/-- `n` is called `p` and lies in no tree whose root waits for a class called `s`. -/
def Eligible (f : Forest) (s p : String) (n : Nat) : Prop :=
  f.name? n = some p ∧ ∀ r ∈ f.roots, f.parentName? r = some s → ¬ f.InSubtree r n

/-- `n` is the first eligible node in forest order. -/
def FirstEligible (f : Forest) (s p : String) (n : Nat) : Prop :=
  f.Eligible s p n ∧
    ∃ before after, f.order = before ++ n :: after ∧ ∀ m ∈ before, ¬ f.Eligible s p m

/-- A traversal is the same in a forest that has the same child lists. -/
theorem Walk.congr {f g : Forest} (hsize : f.size ≤ g.size)
    (hchildren : ∀ i < f.size, g.children i = f.children i) {stack out : List Nat}
    (w : Walk f stack out) : Walk g stack out := by
  induction w with
  | done => exact .done
  | @visit id n stack out hn _ ih =>
    have hid : id < f.size := (f.node?_isSome_iff id).mp (by rw [hn]; rfl)
    obtain ⟨n', hn'⟩ := exists_node (Nat.lt_of_lt_of_le hid hsize)
    have hsame : n'.children = n.children := by
      rw [← children_of_node? hn', ← children_of_node? hn, hchildren id hid]
    refine .visit hn' ?_
    rwa [hsame]

namespace WellFormed
variable {f : Forest}

theorem preorder_prepare (h : f.WellFormed) (d : ClassDecl) {r : Nat} (hr : r < f.size) :
    (f.prepare d).preorder r = f.preorder r := by
  have hchildren : ∀ i < f.size, (f.prepare d).children i = f.children i := by
    intro i hi
    rw [h.children_prepare, if_neg (Nat.ne_of_lt hi)]
  have hlt : r < (f.prepare d).size := by
    rw [size_prepare]
    omega
  have hwalk := (h.walk_preorder hr).congr (g := f.prepare d) (by simp) hchildren
  exact ((h.prepare d).walk_preorder hlt).unique hwalk

theorem roots_prepare (h : f.WellFormed) (d : ClassDecl) :
    (f.prepare d).roots = f.roots.filter fun r => !f.waitsFor d.name r := by
  rw [Forest.prepare, adopt_eq, roots_attachAll]
  refine List.filter_congr fun r hmem => ?_
  congr 1
  rw [Bool.eq_iff_iff, waitsFor_iff, waitsFor_iff,
    declaration?_append (declarations_push f d) (h.root_lt r hmem)]

/-- The tree with the root `r` is searched as a whole unless the new node has taken it over. -/
theorem waitsFor_of_inSubtree (h : f.WellFormed) {s : String} {r n : Nat} (hr : r ∈ f.roots)
    (hn : f.InSubtree r n) :
    f.waitsFor s r = true ↔ ∃ r' ∈ f.roots, f.parentName? r' = some s ∧ f.InSubtree r' n := by
  rw [waitsFor_eq, beq_iff_eq]
  constructor
  · intro hw
    exact ⟨r, hr, hw, hn⟩
  · intro hyp
    obtain ⟨r', hr', hs, hn'⟩ := hyp
    have heq : r' = r := by
      rcases hn'.total hn with hrr | hrr
      · exact hrr.eq_of_top (h.root_top r hr)
      · exact (hrr.eq_of_top (h.root_top r' hr')).symm
    exact heq ▸ hs

open Classical in
/-- The search for a parent goes through the forest in its order, without the trees that the new
node has taken over. -/
theorem order_prepare (h : f.WellFormed) (d : ClassDecl) :
    (f.prepare d).order = f.order.filter fun n =>
      decide (∀ r ∈ f.roots, f.parentName? r = some d.name → ¬ f.InSubtree r n) := by
  have htree : ∀ r ∈ f.roots,
      ((f.preorder r).filter fun n =>
        decide (∀ r ∈ f.roots, f.parentName? r = some d.name → ¬ f.InSubtree r n)) =
        if !f.waitsFor d.name r then f.preorder r else [] := by
    intro r hr
    have hmem : ∀ n ∈ f.preorder r, f.InSubtree r n := fun n hn =>
      (h.mem_preorder (h.root_lt r hr)).mp hn
    cases hw : f.waitsFor d.name r with
    | false =>
      refine List.filter_eq_self.mpr fun n hn => decide_eq_true ?_
      intro r' hr' hs hn'
      have := (h.waitsFor_of_inSubtree hr (hmem n hn)).mpr ⟨r', hr', hs, hn'⟩
      rw [hw] at this
      cases this
    | true =>
      refine List.filter_eq_nil_iff.mpr fun n hn => ?_
      obtain ⟨r', hr', hs, hn'⟩ := (h.waitsFor_of_inSubtree hr (hmem n hn)).mp hw
      simp only [decide_eq_true_eq]
      exact fun hall => hall r' hr' hs hn'
  calc (f.prepare d).order
      = (f.roots.filter fun r => !f.waitsFor d.name r).flatMap f.preorder := by
        rw [order, h.roots_prepare]
        refine List.flatMap_congr fun r hr => h.preorder_prepare d ?_
        exact h.root_lt r (List.mem_filter.mp hr).1
    _ = f.roots.flatMap fun r => if !f.waitsFor d.name r then f.preorder r else [] :=
        (flatMap_ite_nil _ f.preorder f.roots).symm
    _ = _ := by
        rw [order, List.filter_flatMap]
        exact (List.flatMap_congr htree).symm

open Classical in
theorem newParent?_eq_find? (h : f.WellFormed) {d : ClassDecl} {p : String}
    (hp : d.parentName = some p) :
    f.newParent? d = f.order.find? fun n => decide (f.Eligible d.name p n) := by
  rw [newParent?, hp, Option.bind_some, (h.prepare d).find?_eq, h.order_prepare, List.find?_filter]
  refine List.find?_congr fun n hn => ?_
  have hne : n ≠ f.size := Nat.ne_of_lt (h.lt_of_mem_order hn)
  rw [name?_concat (declarations_prepare f d), if_neg hne, Bool.eq_iff_iff]
  simp only [decide_eq_true_eq, beq_iff_eq]
  exact And.comm

/-- The search lands on the first eligible node. -/
theorem newParent?_eq_some_iff (h : f.WellFormed) {d : ClassDecl} {p : String}
    (hp : d.parentName = some p) {n : Nat} :
    f.newParent? d = some n ↔ f.FirstEligible d.name p n := by
  rw [h.newParent?_eq_find? hp, List.find?_eq_some_iff_append, FirstEligible]
  simp only [decide_eq_true_eq, Bool.not_eq_true', decide_eq_false_iff_not]

theorem newParent?_eq_none_iff (h : f.WellFormed) {d : ClassDecl} {p : String}
    (hp : d.parentName = some p) :
    f.newParent? d = none ↔ ∀ n, ¬ f.Eligible d.name p n := by
  rw [h.newParent?_eq_find? hp, List.find?_eq_none]
  simp only [decide_eq_true_eq]
  refine ⟨fun hnone n hn => hnone n ?_ hn, fun hnone n _ => hnone n⟩
  exact h.mem_order.mpr (lt_of_name? hn.1)

end WellFormed

/-! ## Waiting -/

/-- `j` is the first place from `m` on where a class called `p` stands. -/
structure FirstFrom (ds : List ClassDecl) (m : Nat) (p : String) (j : Nat) : Prop where
  le : m ≤ j
  named : ds[j]?.map (·.name) = some p
  first : ∀ k, m ≤ k → k < j → ds[k]?.map (·.name) ≠ some p

theorem FirstFrom.of_succ {ds : List ClassDecl} {m j : Nat} {p : String}
    (h : FirstFrom ds (m + 1) p j) (hm : ds[m]?.map (·.name) ≠ some p) : FirstFrom ds m p j := by
  refine ⟨Nat.le_of_succ_le h.le, h.named, fun k hk hkj => ?_⟩
  rcases Nat.eq_or_lt_of_le hk with rfl | hlt
  · exact hm
  · exact h.first k hlt hkj

/-- What another class does to a root that waits for `p`. -/
theorem WellFormed.insert_of_waiting {f : Forest} (h : f.WellFormed) (d : ClassDecl) {i : Nat}
    {p : String} (hi : i ∈ f.waiting p) :
    (d.name = p ∧ (f.insert d).parent? i = some f.size) ∨
      (d.name ≠ p ∧ i ∈ (f.insert d).waiting p) := by
  obtain ⟨hroot, hs⟩ := mem_waiting_iff_parentName?.mp hi
  have hlt := h.root_lt i hroot
  have hpar : (f.insert d).parent? i = if i ∈ f.waiting d.name then some f.size else none := by
    rw [h.parent?_insert, if_neg (Nat.ne_of_lt hlt), h.root_top i hroot]
  by_cases hname : d.name = p
  · rw [if_pos (hname ▸ hi)] at hpar
    exact Or.inl ⟨hname, hpar⟩
  · have hother : i ∉ f.waiting d.name := by
      intro hw
      exact hname (Option.some.inj ((mem_waiting_iff_parentName?.mp hw).2.symm.trans hs))
    rw [if_neg hother] at hpar
    refine Or.inr ⟨hname, mem_waiting_iff_parentName?.mpr ⟨?_, ?_⟩⟩
    · exact (h.insert d).complete i (by rw [size_insert]; omega) hpar
    · rw [parentName?_concat (declarations_insert f d), if_neg (Nat.ne_of_lt hlt), hs]

/-- A root that waits for `p` keeps waiting until the first class of that name comes, and then hangs
below it for good. -/
theorem parent?_build_of_waiting (ds es : List ClassDecl) {i : Nat} {p : String}
    (hi : i ∈ (build ds).waiting p) :
    (∃ j, FirstFrom (ds ++ es) ds.length p j ∧ (build (ds ++ es)).parent? i = some j) ∨
      ((∀ j, ds.length ≤ j → (ds ++ es)[j]?.map (·.name) ≠ some p) ∧
        i ∈ (build (ds ++ es)).roots) := by
  induction es generalizing ds with
  | nil =>
    rw [List.append_nil]
    refine Or.inr ⟨fun j hj => ?_, (mem_waiting.mp hi).1⟩
    rw [List.getElem?_eq_none hj]
    simp
  | cons d es ih =>
    have hsplit : ds ++ d :: es = ds ++ [d] ++ es := by simp
    have hhere : (ds ++ d :: es)[ds.length]?.map (·.name) = some d.name := by simp
    have hstep := (wellFormed_build ds).insert_of_waiting d hi
    rw [← build_concat, size_build] at hstep
    rcases hstep with ⟨hname, hpar⟩ | ⟨hname, hwait⟩
    · refine Or.inl ⟨ds.length, ⟨Nat.le_refl _, hname ▸ hhere, fun k hk hlt => by omega⟩, ?_⟩
      rw [hsplit]
      exact (extends_build (ds ++ [d]) es).parent i ds.length hpar
    · have hskip : (ds ++ d :: es)[ds.length]?.map (·.name) ≠ some p := by
        rw [hhere]
        exact fun hd => hname (Option.some.inj hd)
      have hrest := ih (ds ++ [d]) hwait
      rw [← hsplit, List.length_append, List.length_singleton] at hrest
      rcases hrest with ⟨j, hj, hpar⟩ | ⟨habsent, hroot⟩
      · exact Or.inl ⟨j, hj.of_succ hskip, hpar⟩
      · refine Or.inr ⟨fun j hj => ?_, hroot⟩
        rcases Nat.eq_or_lt_of_le hj with rfl | hlt
        · exact hskip
        · exact habsent j hlt

/-! ## The choice -/

/-- The link that a class gets when it comes. -/
theorem parent?_build_concat (pre : List ClassDecl) (d : ClassDecl) :
    (build (pre ++ [d])).parent? pre.length = (build pre).newParent? d := by
  rw [build_concat, (wellFormed_build pre).parent?_insert, size_build, if_pos rfl]

/-- Without an eligible node, a class waits from its own insertion on. -/
theorem mem_waiting_build_concat {pre : List ClassDecl} {d : ClassDecl} {p : String}
    (hp : d.parentName = some p) (hnone : ∀ n, ¬ (build pre).Eligible d.name p n) :
    pre.length ∈ (build (pre ++ [d])).waiting p := by
  have htop := (parent?_build_concat pre d).trans
    (((wellFormed_build pre).newParent?_eq_none_iff hp).mpr hnone)
  refine mem_waiting_iff_parentName?.mpr ⟨?_, ?_⟩
  · exact (wellFormed_build (pre ++ [d])).complete _ (by simp) htop
  · rw [build_concat, parentName?_concat (declarations_insert _ d), size_build, if_pos rfl, hp]

/-- **Which parent wins.** The class at `i` declares the parent name `p`, and `f` is the forest just
before it comes. An eligible node of `f` wins, the first one in forest order; else the first class
behind `i` that is called `p`; and without either, `i` is a root to the end. -/
theorem build_parent_choice (ds : List ClassDecl) (i : Nat) (d : ClassDecl) (p : String)
    (hi : ds[i]? = some d) (hp : d.parentName = some p) :
    ((∃ n, (build (ds.take i)).Eligible d.name p n) →
        ∃ n, (build (ds.take i)).FirstEligible d.name p n ∧ (build ds).parent? i = some n) ∧
      ((∀ n, ¬ (build (ds.take i)).Eligible d.name p n) →
        (∃ j, i < j ∧ ds[j]?.map (·.name) = some p) →
        ∃ j, FirstFrom ds (i + 1) p j ∧ (build ds).parent? i = some j) ∧
      ((∀ n, ¬ (build (ds.take i)).Eligible d.name p n) →
        (∀ j, i < j → ds[j]?.map (·.name) ≠ some p) →
        i ∈ (build ds).roots ∧ (build ds).parent? i = none) := by
  obtain ⟨hlt, hget⟩ := List.getElem?_eq_some_iff.mp hi
  have hlen : (ds.take i).length = i := List.length_take_of_le (Nat.le_of_lt hlt)
  have hsplit : ds.take i ++ [d] ++ ds.drop (i + 1) = ds := by
    rw [List.append_assoc, List.singleton_append, ← hget, List.getElem_cons_drop,
      List.take_append_drop]
  generalize ds.take i = pre at hlen hsplit ⊢
  generalize ds.drop (i + 1) = post at hsplit
  have hwaits := fun hnone =>
    parent?_build_of_waiting (pre ++ [d]) post (mem_waiting_build_concat hp hnone)
  rw [hsplit, hlen, List.length_append, List.length_singleton, hlen] at hwaits
  refine ⟨?_, ?_, ?_⟩
  · intro hsome
    have hfound : (build pre).newParent? d ≠ none := by
      rw [Ne, (wellFormed_build pre).newParent?_eq_none_iff hp]
      exact fun hnone => hsome.elim hnone
    obtain ⟨n, hn⟩ := Option.ne_none_iff_exists'.mp hfound
    have hlink := (extends_build (pre ++ [d]) post).parent _ n ((parent?_build_concat pre d).trans hn)
    rw [hsplit, hlen] at hlink
    exact ⟨n, ((wellFormed_build pre).newParent?_eq_some_iff hp).mp hn, hlink⟩
  · intro hnone hex
    obtain ⟨j, hj, hname⟩ := hex
    rcases hwaits hnone with hfirst | ⟨habsent, -⟩
    · exact hfirst
    · exact absurd hname (habsent j hj)
  · intro hnone habsent
    rcases hwaits hnone with ⟨j, hj, -⟩ | ⟨-, hroot⟩
    · exact absurd hj.named (habsent j hj.le)
    · exact ⟨hroot, (wellFormed_build ds).root_top i hroot⟩

/-- A class `S` between two classes `P`, the first of which hangs below a root that waits for `S`;
and a class `Y` ahead of two classes `Z`. -/
def namesakes : List ClassDecl :=
  [{ name := "X", parentName := some "S" }, { name := "P", parentName := some "X" },
    { name := "P" }, { name := "Y", parentName := some "Z" },
    { name := "S", parentName := some "P" }, { name := "Z" }, { name := "Z" }]

theorem namesakes_parents :
    (∃ n, (build (namesakes.take 4)).FirstEligible "S" "P" n ∧
        (build namesakes).parent? 4 = some n) ∧
      (∃ j, FirstFrom namesakes 4 "Z" j ∧ (build namesakes).parent? 3 = some j) ∧
      (build namesakes).parent? 4 = some 2 ∧ (build namesakes).parent? 3 = some 5 := by
  refine ⟨?_, ?_, by decide, by decide⟩
  · refine (build_parent_choice namesakes 4 _ "P" rfl rfl).1 ⟨2, by decide, fun r _ hs hsub => ?_⟩
    have hr : r = 2 := hsub.eq_of_top (by decide)
    rw [hr] at hs
    revert hs
    decide
  · refine (build_parent_choice namesakes 3 _ "Z" rfl rfl).2.1 (fun n hn => ?_) ⟨5, by decide, rfl⟩
    have hlt : n < 3 := lt_of_name? hn.1
    have hno : ∀ m < 3, (build (namesakes.take 3)).name? m ≠ some "Z" := by decide
    exact hno n hlt hn.1

end Lineage.Forest
