import Lineage.Proofs.Forest.WellFormed

/-!
# Why a class is left as a root

Adoption looks at the roots only, and the search for a parent looks only at what hangs below them.
Nothing is missed all the same, whatever names repeat: after every insertion a node hangs below a
node of the name that it declares, and whatever carries the name that a root declares hangs below
that root.

**Invariant.** `Settled`. Links are never taken back (`WellFormed.parent?_insert_of_some`), so a
subtree only grows; and a class of the name that a root waits for takes that root over at once. What
is left to see is the new node when it becomes a root: then the search has found nothing, and it
has seen everything outside the new node's subtree.

**Result.** `build_accounted`: an orphan waits for a name that has not come, or would close a cycle
wherever it were attached.
-/
namespace Lineage.Forest

/-! ## Declared names -/

/-- The name that the class at `id` declares as its parent's. -/
def parentName? (f : Forest) (id : Nat) : Option String :=
  (f.declaration? id).bind (·.parentName)

theorem lt_of_declaration? {f : Forest} {i : Nat} {d : ClassDecl} (h : f.declaration? i = some d) :
    i < f.size := by
  rw [← length_declarations]
  exact (List.getElem?_eq_some_iff.mp h).1

theorem lt_of_name? {f : Forest} {i : Nat} {s : String} (h : f.name? i = some s) : i < f.size := by
  rw [name?_eq, Option.map_eq_some_iff] at h
  obtain ⟨d, hd, -⟩ := h
  exact lt_of_declaration? hd

theorem mem_waiting_iff_parentName? {f : Forest} {s : String} {r : Nat} :
    r ∈ f.waiting s ↔ r ∈ f.roots ∧ f.parentName? r = some s := by
  rw [mem_waiting, parentName?, Option.bind_eq_some_iff]

theorem waitsFor_eq (f : Forest) (s : String) (r : Nat) :
    f.waitsFor s r = (f.parentName? r == some s) := by
  rw [Bool.eq_iff_iff, waitsFor_iff, beq_iff_eq, parentName?, Option.bind_eq_some_iff]

theorem orphans_eq (f : Forest) :
    f.orphans = f.roots.filter fun r => (f.parentName? r).isSome := by
  unfold orphans parentName?
  congr 1
  funext r
  rw [declaration?_eq, Option.bind_map]
  rfl

theorem declaration?_concat {f g : Forest} {d : ClassDecl}
    (h : g.declarations = f.declarations ++ [d]) (i : Nat) :
    g.declaration? i = if i = f.size then some d else f.declaration? i := by
  rw [declaration?, h, List.getElem?_append, List.getElem?_singleton, length_declarations]
  rcases Nat.lt_trichotomy i f.size with hlt | rfl | hgt
  · rw [if_pos hlt, if_neg (by omega)]
    rfl
  · simp
  · have hnone : f.declaration? i = none := by
      rw [declaration?, List.getElem?_eq_none_iff, length_declarations]
      omega
    rw [if_neg (by omega), if_neg (by omega), if_neg (by omega), hnone]

theorem name?_concat {f g : Forest} {d : ClassDecl} (h : g.declarations = f.declarations ++ [d])
    (i : Nat) : g.name? i = if i = f.size then some d.name else f.name? i := by
  rw [name?_eq, name?_eq, declaration?_concat h]
  split <;> rfl

theorem parentName?_concat {f g : Forest} {d : ClassDecl}
    (h : g.declarations = f.declarations ++ [d]) (i : Nat) :
    g.parentName? i = if i = f.size then d.parentName else f.parentName? i := by
  rw [parentName?, parentName?, declaration?_concat h]
  split <;> rfl

/-! ## Links are kept -/

/-- A forest with more links has larger subtrees. -/
theorem InSubtree.mono {f g : Forest} (hlink : ∀ c p, f.parent? c = some p → g.parent? c = some p)
    {a n : Nat} (h : f.InSubtree a n) : g.InSubtree a n :=
  Relation.ReflTransGen.mono hlink n a h

namespace WellFormed
variable {f : Forest}

/-- The insertion changes one link of the state in which the parent was searched for. -/
theorem parent?_insert_eq (h : f.WellFormed) (d : ClassDecl) (i : Nat) :
    (f.insert d).parent? i =
      if i = f.size then f.newParent? d else (f.prepare d).parent? i := by
  rw [h.parent?_insert, h.parent?_prepare]

theorem parent?_insert_of_prepare (h : f.WellFormed) (d : ClassDecl) {c p : Nat}
    (hp : (f.prepare d).parent? c = some p) : (f.insert d).parent? c = some p := by
  have hne : c ≠ f.size := by
    intro hc
    rw [hc, (h.prepare d).top] at hp
    cases hp
  rw [h.parent?_insert_eq, if_neg hne, hp]

theorem parent?_insert_of_some (h : f.WellFormed) (d : ClassDecl) {c p : Nat}
    (hp : f.parent? c = some p) : (f.insert d).parent? c = some p := by
  have hroot : c ∉ f.waiting d.name := by
    intro hw
    rw [h.root_top c (mem_waiting.mp hw).1] at hp
    cases hp
  apply h.parent?_insert_of_prepare
  rw [h.parent?_prepare, if_neg hroot, hp]

/-- The roots after an insertion are old roots that did not wait for the new class, and the new
node if no parent was found for it. -/
theorem root_cases_insert (h : f.WellFormed) {d : ClassDecl} {r : Nat}
    (hr : r ∈ (f.insert d).roots) :
    (r = f.size ∧ f.newParent? d = none) ∨
      (r ≠ f.size ∧ r ∈ f.roots ∧ f.parentName? r ≠ some d.name) := by
  have hlt := (h.insert d).root_lt r hr
  have htop := (h.insert d).root_top r hr
  rw [size_insert] at hlt
  rw [h.parent?_insert] at htop
  by_cases hv : r = f.size
  · rw [if_pos hv] at htop
    exact Or.inl ⟨hv, htop⟩
  · rw [if_neg hv] at htop
    split at htop
    · cases htop
    · rename_i hkept
      have hroot : r ∈ f.roots := h.complete r (by omega) htop
      refine Or.inr ⟨hv, hroot, fun hs => hkept ?_⟩
      exact mem_waiting_iff_parentName?.mpr ⟨hroot, hs⟩

end WellFormed

/-! ## The invariant -/

/-- Every node hangs where its declared name sends it, or cannot hang there. -/
structure Settled (f : Forest) : Prop where
  /-- A parent carries the name that its child declares. -/
  named : ∀ c p, f.parent? c = some p → ∃ s, f.parentName? c = some s ∧ f.name? p = some s
  /-- What carries the name that a root declares hangs below that root. -/
  below : ∀ r ∈ f.roots, ∀ s, f.parentName? r = some s → ∀ n, f.name? n = some s → f.InSubtree r n

namespace Settled
variable {f : Forest}

theorem named_insert (hs : f.Settled) (h : f.WellFormed) (d : ClassDecl) {c p : Nat}
    (hp : (f.insert d).parent? c = some p) :
    ∃ s, (f.insert d).parentName? c = some s ∧ (f.insert d).name? p = some s := by
  have hdecl := declarations_insert f d
  rw [parentName?_concat hdecl]
  rw [h.parent?_insert] at hp
  split at hp
  · rename_i hc
    obtain ⟨-, -, s, hd, hname⟩ := h.newParent?_some hp
    rw [name?_concat (declarations_prepare f d), ← name?_concat hdecl] at hname
    exact ⟨s, by rw [if_pos hc, hd], hname⟩
  · rename_i hc
    rw [if_neg hc]
    split at hp
    · rename_i hw
      cases hp
      exact ⟨d.name, (mem_waiting_iff_parentName?.mp hw).2, by rw [name?_concat hdecl, if_pos rfl]⟩
    · obtain ⟨s, hcs, hps⟩ := hs.named c p hp
      have hne : p ≠ f.size := Nat.ne_of_lt (h.parent_lt hp)
      exact ⟨s, hcs, by rw [name?_concat hdecl, if_neg hne, hps]⟩

theorem below_insert (hs : f.Settled) (h : f.WellFormed) (d : ClassDecl) {r : Nat} {s : String}
    (hr : r ∈ (f.insert d).roots) (hrs : (f.insert d).parentName? r = some s) {n : Nat}
    (hn : (f.insert d).name? n = some s) : (f.insert d).InSubtree r n := by
  have hdecl := declarations_insert f d
  rw [parentName?_concat hdecl] at hrs
  rcases h.root_cases_insert hr with ⟨rfl, hnone⟩ | ⟨hne, hroot, hother⟩
  · -- The search found nothing, so all that carries the name hangs below the new node.
    rw [if_pos rfl] at hrs
    rw [newParent?, hrs] at hnone
    have hlt : n < (f.insert d).size := lt_of_name? hn
    rw [size_insert, ← size_prepare f d] at hlt
    rw [name?_concat hdecl, ← name?_concat (declarations_prepare f d)] at hn
    have hsub := (h.prepare d).find?_none hnone hn hlt
    exact hsub.mono fun c p => h.parent?_insert_of_prepare d
  · rw [if_neg hne] at hrs
    have hnew : n ≠ f.size := by
      intro hv
      rw [name?_concat hdecl, if_pos hv] at hn
      exact hother (hrs.trans hn.symm)
    rw [name?_concat hdecl, if_neg hnew] at hn
    exact (hs.below r hroot s hrs n hn).mono fun c p => h.parent?_insert_of_some d

theorem insert (hs : f.Settled) (h : f.WellFormed) (d : ClassDecl) : (f.insert d).Settled :=
  ⟨fun _ _ hp => hs.named_insert h d hp, fun _ hr _ hrs _ hn => hs.below_insert h d hr hrs hn⟩

end Settled

theorem settled_build (ds : List ClassDecl) : (build ds).Settled := by
  induction ds using List.reverseRecOn with
  | nil =>
    refine ⟨?_, ?_⟩
    · intro c p hp
      exact absurd (lt_of_parent? hp) (by simp [build, size])
    · intro r hr
      cases hr
  | append_singleton ds d ih =>
    rw [build_concat]
    exact ih.insert (wellFormed_build ds) d

/-! ## Orphans -/

/-- A node attached below its own subtree is its own ancestor. -/
theorem attach_closes_cycle {f : Forest} {p r : Nat} (hr : r < f.size) (htop : f.parent? r = none)
    (hsub : f.InSubtree r p) : (f.attach p r).ProperAncestor r r := by
  have hpar := parent?_attach hr p
  refine properAncestor_iff.mpr ⟨p, by rw [hpar, if_pos rfl], hsub.mono ?_⟩
  intro c q hq
  have hne : c ≠ r := by
    intro hc
    rw [hc, htop] at hq
    cases hq
  rw [hpar, if_neg hne, hq]

/-- Of a forest `f` of the classes `ds`: why each node hangs where it does. -/
structure Accounted (ds : List ClassDecl) (f : Forest) : Prop where
  /-- A node that is no root has a parent, which carries the name that the node declares. -/
  parent_named : ∀ c < f.size, c ∉ f.roots →
    ∃ p s, f.parent? c = some p ∧ f.parentName? c = some s ∧ f.name? p = some s
  /-- Every node of the name that a root declares lies in the root's own subtree. -/
  below_root : ∀ r ∈ f.roots, ∀ s, f.parentName? r = some s → ∀ n, f.name? n = some s →
    f.InSubtree r n
  /-- The name that an orphan declares has not come, or to attach the orphan to any of the nodes
  that carry it would close a cycle. -/
  orphan_reason : ∀ r ∈ f.orphans, ∃ s, f.parentName? r = some s ∧
    ((∀ d ∈ ds, d.name ≠ s) ∨
      (∃ p, f.name? p = some s) ∧ ∀ p, f.name? p = some s → (f.attach p r).ProperAncestor r r)

/-- **No missed parent.** After the first `k` insertions of any list of classes, whatever names
repeat. -/
theorem build_accounted (ds : List ClassDecl) (k : Nat) :
    Accounted (ds.take k) (build (ds.take k)) := by
  generalize ds.take k = pre
  have h := wellFormed_build pre
  have hs := settled_build pre
  refine ⟨?_, hs.below, ?_⟩
  · intro c hc hroot
    cases hp : (build pre).parent? c with
    | none => exact absurd (h.complete c hc hp) hroot
    | some p =>
      obtain ⟨s, hcs, hps⟩ := hs.named c p hp
      exact ⟨p, s, rfl, hcs, hps⟩
  · intro r hr
    rw [orphans_eq] at hr
    obtain ⟨hroot, hsome⟩ := List.mem_filter.mp hr
    obtain ⟨s, hrs⟩ := Option.isSome_iff_exists.mp hsome
    refine ⟨s, hrs, ?_⟩
    by_cases harrived : ∃ p, (build pre).name? p = some s
    · refine Or.inr ⟨harrived, fun p hp => ?_⟩
      have hsub := hs.below r hroot s hrs p hp
      exact attach_closes_cycle (h.root_lt r hroot) (h.root_top r hroot) hsub
    · refine Or.inl fun d hd hname => harrived ?_
      obtain ⟨p, hp⟩ := List.mem_iff_getElem?.mp hd
      refine ⟨p, ?_⟩
      rw [name?_eq, declaration?, declarations_build, hp, ← hname]
      rfl

-- Of two classes that name each other, the second to come takes over the first and is left a root,
-- although the name that it declares is there.
example :
    (build [{ name := "A", parentName := some "B" },
      { name := "B", parentName := some "A" }]).orphans = [1] := by
  decide

end Lineage.Forest
