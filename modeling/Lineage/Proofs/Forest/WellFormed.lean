import Mathlib.Data.List.Induction
import Mathlib.Data.List.Nodup
import Lineage.Proofs.Forest.Walks

/-!
# Every insertion leaves a well-formed forest

Classes come with any names and any parents: repeated, missing, their own, or each other's. After
every insertion the forest is well formed all the same.

**Invariant.** `WellFormed`: the links agree (`Linked`) and the roots are the nodes without parent,
each listed once.

**One insertion.** `prepare` is the state in which the parent is searched for. There the new node
has taken over the roots that waited for it but is no root itself, so the invariant fails; what
holds is `Awaiting`. The search sees exactly the nodes outside the new node's subtree
(`Awaiting.mem_order`), so whatever it finds may become the parent (`Awaiting.find?_some`).

**Results.**
* `parent?_insert`: the parents after an insertion, from those before it.
* `WellFormed.insert`, `WellFormed.build`: the invariant along a run.
* `build_faithful`: all of it said about the forest of any list of classes, at any moment.
-/
namespace Lineage.Forest

/-! ## Whole-forest order -/

/-- The roots are distinct nodes without parent. -/
structure Rooted (f : Forest) : Prop extends f.Linked where
  roots_nodup : f.roots.Nodup
  root_lt : ∀ r ∈ f.roots, r < f.size
  root_top : ∀ r ∈ f.roots, f.parent? r = none

namespace Rooted
variable {f : Forest}

theorem roots_disjoint (h : f.Rooted) :
    f.roots.Pairwise fun a b => ∀ x, f.InSubtree a x → ¬ f.InSubtree b x := by
  refine List.Pairwise.imp_of_mem ?_ h.roots_nodup
  intro a b ha hb hne x hax hbx
  rcases hax.total hbx with hab | hab
  · exact hne (hab.eq_of_top (h.root_top b hb))
  · exact hne (hab.eq_of_top (h.root_top a ha)).symm

theorem mem_order (h : f.Rooted) {x : Nat} : x ∈ f.order ↔ ∃ r ∈ f.roots, f.InSubtree r x := by
  unfold order
  rw [List.mem_flatMap]
  constructor
  · intro hyp
    obtain ⟨r, hr, hx⟩ := hyp
    exact ⟨r, hr, (h.mem_preorder (h.root_lt r hr)).mp hx⟩
  · intro hyp
    obtain ⟨r, hr, hx⟩ := hyp
    exact ⟨r, hr, (h.mem_preorder (h.root_lt r hr)).mpr hx⟩

theorem nodup_order (h : f.Rooted) : f.order.Nodup := by
  unfold order
  rw [List.nodup_flatMap]
  refine ⟨fun r hr => h.nodup_preorder (h.root_lt r hr), ?_⟩
  refine List.Pairwise.imp_of_mem ?_ h.roots_disjoint
  intro a b ha hb hdisj x hxa hxb
  exact hdisj x ((h.mem_preorder (h.root_lt a ha)).mp hxa)
    ((h.mem_preorder (h.root_lt b hb)).mp hxb)

theorem lt_of_mem_order (h : f.Rooted) {x : Nat} (hx : x ∈ f.order) : x < f.size := by
  obtain ⟨r, hr, hsub⟩ := h.mem_order.mp hx
  exact hsub.lt (h.root_lt r hr)

end Rooted

/-! ## The invariant -/

/-- A finished forest: the roots are exactly the nodes without parent. -/
structure WellFormed (f : Forest) : Prop extends f.Rooted where
  complete : ∀ r < f.size, f.parent? r = none → r ∈ f.roots

/-- A forest whose node `v` has no parent yet and is no root either. -/
structure Awaiting (f : Forest) (v : Nat) : Prop extends f.Rooted where
  lt : v < f.size
  top : f.parent? v = none
  not_root : v ∉ f.roots
  complete : ∀ r < f.size, f.parent? r = none → r ≠ v → r ∈ f.roots

namespace WellFormed
variable {f : Forest}

theorem root_iff (h : f.WellFormed) {r : Nat} (hr : r < f.size) :
    r ∈ f.roots ↔ f.parent? r = none :=
  ⟨h.root_top r, h.complete r hr⟩

theorem mem_order (h : f.WellFormed) {x : Nat} : x ∈ f.order ↔ x < f.size := by
  refine ⟨h.lt_of_mem_order, fun hx => ?_⟩
  obtain ⟨t, ht, htop, hsub⟩ := h.exists_top hx
  exact h.toRooted.mem_order.mpr ⟨t, h.complete t ht htop, hsub⟩

theorem order_perm (h : f.WellFormed) : f.order.Perm (List.range f.size) := by
  rw [List.perm_ext_iff_of_nodup h.nodup_order List.nodup_range]
  intro x
  rw [h.mem_order, List.mem_range]

/-- A name is found exactly when some class carries it. -/
theorem find?_isSome_iff (h : f.WellFormed) (s : String) :
    (f.find? s).isSome ↔ ∃ d ∈ f.declarations, d.name = s := by
  rw [h.find?_eq, List.find?_isSome]
  constructor
  · intro hyp
    obtain ⟨x, -, hx⟩ := hyp
    rw [beq_iff_eq, name?_eq, Option.map_eq_some_iff] at hx
    obtain ⟨d, hd, hs⟩ := hx
    exact ⟨d, List.mem_of_getElem? hd, hs⟩
  · intro hyp
    obtain ⟨d, hd, rfl⟩ := hyp
    obtain ⟨x, hx⟩ := List.mem_iff_getElem?.mp hd
    have hlt : x < f.size := by
      rw [← length_declarations]
      exact (List.getElem?_eq_some_iff.mp hx).1
    refine ⟨x, h.mem_order.mpr hlt, ?_⟩
    rw [beq_iff_eq, name?_eq, declaration?, hx]
    rfl

end WellFormed

namespace Awaiting
variable {f : Forest} {v : Nat}

/-- The traversal from the roots meets exactly what is not below the awaiting node. -/
theorem mem_order (h : f.Awaiting v) {x : Nat} :
    x ∈ f.order ↔ x < f.size ∧ ¬ f.InSubtree v x := by
  constructor
  · intro hx
    obtain ⟨r, hr, hrx⟩ := h.toRooted.mem_order.mp hx
    refine ⟨h.lt_of_mem_order hx, fun hvx => ?_⟩
    have hrv : r = v := by
      rcases hrx.total hvx with hrv | hvr
      · exact hrv.eq_of_top h.top
      · exact (hvr.eq_of_top (h.root_top r hr)).symm
    exact h.not_root (hrv ▸ hr)
  · intro hyp
    obtain ⟨hx, hout⟩ := hyp
    obtain ⟨t, ht, htop, hsub⟩ := h.exists_top hx
    have htv : t ≠ v := fun e => hout (e ▸ hsub)
    exact h.toRooted.mem_order.mpr ⟨t, h.complete t ht htop htv, hsub⟩

theorem find?_some (h : f.Awaiting v) {s : String} {p : Nat} (hf : f.find? s = some p) :
    p < f.size ∧ ¬ f.InSubtree v p ∧ f.name? p = some s := by
  rw [h.find?_eq] at hf
  have hmem := h.mem_order.mp (List.mem_of_find?_eq_some hf)
  have hname := List.find?_some hf
  exact ⟨hmem.1, hmem.2, by simpa using hname⟩

theorem find?_none (h : f.Awaiting v) {s : String} (hf : f.find? s = none) {x : Nat}
    (hx : f.name? x = some s) (hlt : x < f.size) : f.InSubtree v x := by
  by_contra hout
  rw [h.find?_eq] at hf
  have := List.find?_eq_none.mp hf x (h.mem_order.mpr ⟨hlt, hout⟩)
  simp [hx] at this

theorem attach (h : f.Awaiting v) {p : Nat} (hp : p < f.size) (hout : ¬ f.InSubtree v p) :
    (f.attach p v).WellFormed := by
  have hpar := parent?_attach h.lt p
  refine ⟨⟨h.toLinked.attach hp h.lt h.top hout, h.roots_nodup, ?_, ?_⟩, ?_⟩
  · intro r hr
    rw [size_attach]
    exact h.root_lt r hr
  · intro r hr
    have hne : r ≠ v := fun e => h.not_root (e ▸ hr)
    rw [hpar, if_neg hne]
    exact h.root_top r hr
  · intro r hr hnone
    rw [size_attach] at hr
    rw [hpar] at hnone
    split at hnone
    · cases hnone
    · rename_i hne
      exact h.complete r hr hnone hne

theorem addRoot (h : f.Awaiting v) : (f.addRoot v).WellFormed := by
  have hlinked : (f.addRoot v).Linked := h.toLinked.congr h.id_eq (fun _ => rfl) (fun _ => rfl)
  refine ⟨⟨hlinked, ?_, ?_, ?_⟩, ?_⟩
  · rw [roots_addRoot, ← List.concat_eq_append]
    exact List.Nodup.concat h.not_root h.roots_nodup
  · intro r hr
    rw [roots_addRoot, List.mem_append, List.mem_singleton] at hr
    rcases hr with hr | rfl
    · exact h.root_lt r hr
    · exact h.lt
  · intro r hr
    rw [roots_addRoot, List.mem_append, List.mem_singleton] at hr
    rcases hr with hr | rfl
    · exact h.root_top r hr
    · exact h.top
  · intro r hr hnone
    rw [roots_addRoot, List.mem_append, List.mem_singleton]
    by_cases hrv : r = v
    · exact Or.inr hrv
    · exact Or.inl (h.complete r hr hnone hrv)

end Awaiting

/-! ## One insertion -/

/-- The forest in which the parent of `d` is searched for: `d` has a node, which has taken over the
roots that waited for it. -/
def prepare (f : Forest) (d : ClassDecl) : Forest := (f.push d).adopt d.name f.size

/-- The node that `d` is attached under. -/
def newParent? (f : Forest) (d : ClassDecl) : Option Nat := d.parentName.bind (f.prepare d).find?

theorem insert_eq (f : Forest) (d : ClassDecl) :
    f.insert d = match f.newParent? d with
      | some p => (f.prepare d).attach p f.size
      | none => (f.prepare d).addRoot f.size := by
  unfold insert newParent?
  cases d.parentName with
  | none => rfl
  | some s => rfl

@[simp] theorem size_prepare (f : Forest) (d : ClassDecl) : (f.prepare d).size = f.size + 1 := by
  rw [prepare, size_adopt, size_push]

@[simp] theorem declarations_prepare (f : Forest) (d : ClassDecl) :
    (f.prepare d).declarations = f.declarations ++ [d] := by
  rw [prepare, declarations_adopt, declarations_push]

@[simp] theorem declarations_insert (f : Forest) (d : ClassDecl) :
    (f.insert d).declarations = f.declarations ++ [d] := by
  rw [insert_eq]
  split
  · rw [declarations_attach, declarations_prepare]
  · rw [declarations_addRoot, declarations_prepare]

@[simp] theorem size_insert (f : Forest) (d : ClassDecl) : (f.insert d).size = f.size + 1 := by
  rw [← length_declarations, declarations_insert, List.length_append, length_declarations]
  rfl

theorem parent?_size (f : Forest) : f.parent? f.size = none := by
  cases h : f.parent? f.size with
  | none => rfl
  | some p => exact absurd (lt_of_parent? h) (Nat.lt_irrefl _)

theorem declaration?_append {f g : Forest} {ds : List ClassDecl}
    (h : g.declarations = f.declarations ++ ds) {i : Nat} (hi : i < f.size) :
    g.declaration? i = f.declaration? i := by
  rw [declaration?, h, List.getElem?_append_left (by rwa [length_declarations])]
  rfl

/-- The new class has no say in which roots wait. -/
theorem waiting_push {f : Forest} (hr : ∀ r ∈ f.roots, r < f.size) (d : ClassDecl) (s : String) :
    (f.push d).waiting s = f.waiting s := by
  unfold waiting
  rw [roots_push]
  refine List.filter_congr fun r hmem => ?_
  rw [Bool.eq_iff_iff, waitsFor_iff, waitsFor_iff,
    declaration?_append (declarations_push f d) (hr r hmem)]

namespace WellFormed
variable {f : Forest}

theorem parent?_prepare (h : f.WellFormed) (d : ClassDecl) (i : Nat) :
    (f.prepare d).parent? i = if i ∈ f.waiting d.name then some f.size else f.parent? i := by
  have hr : ∀ r ∈ (f.push d).roots, r < (f.push d).size := by
    intro r hr
    have := h.root_lt r hr
    rw [size_push]
    omega
  rw [prepare, parent?_adopt hr, waiting_push h.root_lt, parent?_push]

theorem mem_roots_prepare (h : f.WellFormed) (d : ClassDecl) {r : Nat} :
    r ∈ (f.prepare d).roots ↔ r ∈ f.roots ∧ r ∉ f.waiting d.name := by
  rw [prepare, mem_roots_adopt, waiting_push h.root_lt, roots_push]

theorem prepare (h : f.WellFormed) (d : ClassDecl) : (f.prepare d).Awaiting f.size := by
  have hpar := h.parent?_prepare d
  have hv : f.size ∉ f.roots := fun hv => Nat.lt_irrefl _ (h.root_lt _ hv)
  have hvw : f.size ∉ f.waiting d.name := fun hw => hv (mem_waiting.mp hw).1
  have hlinked : (f.prepare d).Linked := by
    refine (h.toLinked.push d).adopt ?_ ?_ ?_ h.roots_nodup
    · rw [size_push]
      omega
    · rw [parent?_push, parent?_size]
    · intro r hr
      have hlt := h.root_lt r hr
      rw [size_push, parent?_push]
      exact ⟨by omega, h.root_top r hr, by omega⟩
  refine ⟨⟨hlinked, ?_, ?_, ?_⟩, ?_, ?_, ?_, ?_⟩
  · exact h.roots_nodup.sublist (roots_adopt_sublist (f.push d) d.name f.size)
  · intro r hr
    have := h.root_lt r ((h.mem_roots_prepare d).mp hr).1
    rw [size_prepare]
    omega
  · intro r hr
    obtain ⟨hroot, hkept⟩ := (h.mem_roots_prepare d).mp hr
    rw [hpar, if_neg hkept]
    exact h.root_top r hroot
  · rw [size_prepare]
    omega
  · rw [hpar, if_neg hvw, parent?_size]
  · intro hr
    exact hv ((h.mem_roots_prepare d).mp hr).1
  · intro r hr hnone hne
    rw [size_prepare] at hr
    rw [hpar] at hnone
    split at hnone
    · cases hnone
    · rename_i hkept
      exact (h.mem_roots_prepare d).mpr ⟨h.complete r (by omega) hnone, hkept⟩

/-- What the search for a parent may return. -/
theorem newParent?_some (h : f.WellFormed) {d : ClassDecl} {p : Nat}
    (hp : f.newParent? d = some p) :
    p < f.size + 1 ∧ ¬ (f.prepare d).InSubtree f.size p ∧
      ∃ s, d.parentName = some s ∧ (f.prepare d).name? p = some s := by
  obtain ⟨s, hs, hfind⟩ := Option.bind_eq_some_iff.mp hp
  obtain ⟨hlt, hout, hname⟩ := (h.prepare d).find?_some hfind
  rw [size_prepare] at hlt
  exact ⟨hlt, hout, s, hs, hname⟩

/-- The parents after an insertion: the new node's is the one found, the waiting roots have the new
node, all others keep theirs. -/
theorem parent?_insert (h : f.WellFormed) (d : ClassDecl) (i : Nat) :
    (f.insert d).parent? i =
      if i = f.size then f.newParent? d
      else if i ∈ f.waiting d.name then some f.size else f.parent? i := by
  have hpar := h.parent?_prepare d
  have hlt : f.size < (f.prepare d).size := (h.prepare d).lt
  rw [insert_eq]
  cases hp : f.newParent? d with
  | some p =>
    simp only
    rw [parent?_attach hlt, hpar]
  | none =>
    simp only
    rw [parent?_addRoot]
    split
    · rename_i hi
      rw [hi]
      exact (h.prepare d).top
    · rw [hpar]

theorem insert (h : f.WellFormed) (d : ClassDecl) : (f.insert d).WellFormed := by
  rw [insert_eq]
  split
  · rename_i p hp
    obtain ⟨hlt, hout, -⟩ := h.newParent?_some hp
    exact (h.prepare d).attach (by rwa [size_prepare]) hout
  · exact (h.prepare d).addRoot

end WellFormed

/-! ## Whole runs -/

theorem wellFormed_empty : ({} : Forest).WellFormed := by
  refine ⟨⟨Linked.empty, List.nodup_nil, ?_, ?_⟩, ?_⟩
  · intro r hr
    cases hr
  · intro r hr
    cases hr
  · intro r hr
    simp [size] at hr

theorem build_concat (ds : List ClassDecl) (d : ClassDecl) :
    build (ds ++ [d]) = (build ds).insert d := by
  simp [build]

theorem wellFormed_build (ds : List ClassDecl) : (build ds).WellFormed := by
  induction ds using List.reverseRecOn with
  | nil => exact wellFormed_empty
  | append_singleton ds d ih =>
    rw [build_concat]
    exact ih.insert d

@[simp] theorem declarations_build (ds : List ClassDecl) : (build ds).declarations = ds := by
  induction ds using List.reverseRecOn with
  | nil => rfl
  | append_singleton ds d ih => rw [build_concat, declarations_insert, ih]

@[simp] theorem size_build (ds : List ClassDecl) : (build ds).size = ds.length := by
  rw [← length_declarations, declarations_build]

/-- What a forest of the classes `ds` is promised to be. -/
structure Faithful (ds : List ClassDecl) (f : Forest) : Prop where
  /-- One node per class, in insertion order, its id the place of the class. -/
  nodes : f.nodes.toList.map (·.declaration) = ds
  ids : f.nodes.toList.map (·.id) = List.range ds.length
  /-- Every id that is kept anywhere is a node's. -/
  root_valid : ∀ r ∈ f.roots, (f.node? r).isSome
  parent_valid : ∀ c p, f.parent? c = some p → (f.node? p).isSome
  child_valid : ∀ p, ∀ c ∈ f.children p, (f.node? c).isSome
  root_iff : ∀ r < f.size, r ∈ f.roots ↔ f.parent? r = none
  child_iff : ∀ p c, c ∈ f.children p ↔ f.parent? c = some p
  roots_nodup : f.roots.Nodup
  children_nodup : ∀ p, (f.children p).Nodup
  acyclic : ∀ n, ¬ f.ProperAncestor n n
  /-- The traversal of every tree ends without leaving the arena; `order` strings these together. -/
  walk : ∀ r ∈ f.roots, Walk f [r] (f.preorder r)
  order_perm : f.order.Perm (List.range f.size)
  find_iff : ∀ s, (f.find? s).isSome ↔ ∃ d ∈ ds, d.name = s

/-- **Every moment of a run.** After the first `k` insertions of any list of classes, the forest is
faithful to them. -/
theorem build_faithful (ds : List ClassDecl) (k : Nat) :
    Faithful (ds.take k) (build (ds.take k)) := by
  generalize ds.take k = pre
  have h := wellFormed_build pre
  refine ⟨declarations_build pre, ?_, ?_, ?_, ?_, fun r hr => h.root_iff hr, h.child_iff, h.roots_nodup,
    h.nodup, h.acyclic, fun r hr => h.walk_preorder (h.root_lt r hr), h.order_perm, ?_⟩
  · rw [h.map_id_eq, size_build]
  · intro r hr
    exact (node?_isSome_iff _ r).mpr (h.root_lt r hr)
  · intro c p hp
    exact (node?_isSome_iff _ p).mpr (h.parent_lt hp)
  · intro p c hc
    exact (node?_isSome_iff _ c).mpr (h.child_lt hc)
  · intro s
    rw [h.find?_isSome_iff, declarations_build]

end Lineage.Forest
