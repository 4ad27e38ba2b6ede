import Mathlib.Data.List.Find
import Mathlib.Data.List.Perm.Basic
import Mathlib.Data.List.Sort
import Lineage.Proofs.Forest.Arrangement
import Lineage.Proofs.Forest.Orphans

/-!
# One forest inside another

Two runs that share classes are compared through a map `φ` from the ids of one forest to the ids of
the other.

**Extension (`Extends`).** Classes and links are kept; a root may have gained a parent. Then the
ancestors of a node are the first of its image's ancestors (`Extends.ancestors_prefix`).

**Embedding (`Embeds`).** A node without parent has none in the other forest either. Then ancestors
and depths are the same, and so is what a node adds to the numbers of its forest: these are a tally
over the nodes, in any order (`WellFormed.stats_eq`, `Embeds.map_shape`).

**Copy (`Copies`).** The images make up a part of the other forest that no link leaves, and `φ`
ascends. Child lists and root lists ascend too, so nothing but the links decides in which order the
part is traversed: `Copies.order_filter`, and what is found in it: `Copies.find?_eq`.
-/
namespace Lineage.Forest

/-! ## Extensions -/

/-- `φ` takes each node of `f` to a node of `g` with the same class, and links to links. -/
structure Extends (φ : Nat → Nat) (f g : Forest) : Prop where
  declaration : ∀ i < f.size, g.declaration? (φ i) = f.declaration? i
  parent : ∀ i p, f.parent? i = some p → g.parent? (φ i) = some (φ p)

theorem exists_declaration {f : Forest} {i : Nat} (hi : i < f.size) :
    ∃ d, f.declaration? i = some d := by
  rw [← length_declarations] at hi
  exact ⟨_, List.getElem?_eq_getElem hi⟩

namespace Extends
variable {φ : Nat → Nat} {f g : Forest}

theorem lt (h : Extends φ f g) {i : Nat} (hi : i < f.size) : φ i < g.size := by
  obtain ⟨d, hd⟩ := exists_declaration hi
  exact lt_of_declaration? ((h.declaration i hi).trans hd)

theorem name?_eq (h : Extends φ f g) {i : Nat} (hi : i < f.size) : g.name? (φ i) = f.name? i := by
  rw [Forest.name?_eq, Forest.name?_eq, h.declaration i hi]

theorem parentName?_eq (h : Extends φ f g) {i : Nat} (hi : i < f.size) :
    g.parentName? (φ i) = f.parentName? i := by
  rw [parentName?, parentName?, h.declaration i hi]

/-- A chain of ancestors can only go on at its far end. -/
theorem ancestors_prefix (h : Extends φ f g) (hf : f.Linked) (hg : g.Linked) (i : Nat) :
    (f.ancestors i).map φ <+: g.ancestors (φ i) := by
  induction i using hf.grounded.induction with
  | _ i ih =>
    cases hp : f.parent? i with
    | none =>
      rw [ancestors_of_none hp]
      exact List.nil_prefix
    | some p =>
      rw [hf.ancestors_of_some hp, hg.ancestors_of_some (h.parent i p hp), List.map_cons,
        List.prefix_cons_inj]
      exact ih p hp

end Extends

/-- Further classes keep the links among those that were there. -/
theorem extends_insert {f : Forest} (h : f.WellFormed) (d : ClassDecl) :
    Extends id f (f.insert d) :=
  ⟨fun _ hi => declaration?_append (declarations_insert f d) hi,
    fun _ _ hp => h.parent?_insert_of_some d hp⟩

theorem extends_build (ds es : List ClassDecl) : Extends id (build ds) (build (ds ++ es)) := by
  induction es using List.reverseRecOn with
  | nil =>
    rw [List.append_nil]
    exact ⟨fun _ _ => rfl, fun _ _ hp => hp⟩
  | append_singleton es d ih =>
    rw [← List.append_assoc, build_concat]
    have hstep := extends_insert (wellFormed_build (ds ++ es)) d
    refine ⟨?_, fun i p hp => hstep.parent i p (ih.parent i p hp)⟩
    intro i hi
    exact (hstep.declaration i (ih.lt hi)).trans (ih.declaration i hi)

/-! ## Embeddings -/

/-- An extension in which no node gains a parent. -/
structure Embeds (φ : Nat → Nat) (f g : Forest) : Prop extends Extends φ f g where
  top : ∀ i < f.size, f.parent? i = none → g.parent? (φ i) = none

namespace Embeds
variable {φ : Nat → Nat} {f g : Forest}

theorem of_parent? (hdecl : ∀ i < f.size, g.declaration? (φ i) = f.declaration? i)
    (hpar : ∀ i < f.size, g.parent? (φ i) = (f.parent? i).map φ) : Embeds φ f g := by
  refine ⟨⟨hdecl, ?_⟩, ?_⟩
  · intro i p hp
    rw [hpar i (lt_of_parent? hp), hp]
    rfl
  · intro i hi hp
    rw [hpar i hi, hp]
    rfl

theorem parent?_eq (h : Embeds φ f g) {i : Nat} (hi : i < f.size) :
    g.parent? (φ i) = (f.parent? i).map φ := by
  cases hp : f.parent? i with
  | none => exact h.top i hi hp
  | some p => exact h.parent i p hp

theorem ancestors_eq (h : Embeds φ f g) (hf : f.Linked) (hg : g.Linked) {i : Nat}
    (hi : i < f.size) : g.ancestors (φ i) = (f.ancestors i).map φ := by
  induction i using hf.grounded.induction with
  | _ i ih =>
    cases hp : f.parent? i with
    | none =>
      rw [ancestors_of_none hp, ancestors_of_none (h.top i hi hp)]
      rfl
    | some p =>
      rw [hf.ancestors_of_some hp, hg.ancestors_of_some (h.parent i p hp), List.map_cons,
        ih p hp (hf.parent_lt hp)]

theorem depth_eq (h : Embeds φ f g) (hf : f.Linked) (hg : g.Linked) {i : Nat} (hi : i < f.size) :
    g.depth (φ i) = f.depth i := by
  rw [depth, h.ancestors_eq hf hg hi, List.length_map]
  rfl

end Embeds

/-! ## The numbers of a forest -/

/-- What the numbers of a forest take from one node. -/
structure Shape where
  top : Bool
  orphan : Bool
  depth : Nat

def shape (f : Forest) (i : Nat) : Shape where
  top := (f.parent? i).isNone
  orphan := (f.parent? i).isNone && (f.parentName? i).isSome
  depth := f.depth i

/-- The numbers of a forest whose nodes have these shapes. -/
def tally (shapes : List Shape) : Stats where
  classes := shapes.length
  roots := shapes.countP (·.top)
  orphans := shapes.countP (·.orphan)
  maxDepth := (shapes.map (·.depth)).foldl max 0

theorem tally_perm {l₁ l₂ : List Shape} (h : l₁.Perm l₂) : tally l₁ = tally l₂ := by
  unfold tally
  rw [h.length_eq, h.countP_eq, h.countP_eq, (h.map _).foldl_eq]

/-- The numbers of two forests side by side. -/
def Stats.sum (s t : Stats) : Stats where
  classes := s.classes + t.classes
  roots := s.roots + t.roots
  orphans := s.orphans + t.orphans
  maxDepth := max s.maxDepth t.maxDepth

theorem tally_append (l₁ l₂ : List Shape) : tally (l₁ ++ l₂) = (tally l₁).sum (tally l₂) := by
  have hmax : ∀ (m : Nat) (l : List Nat), l.foldl max m = max m (l.foldl max 0) := by
    intro m l
    have hassoc : l.foldl max (max m 0) = max m (l.foldl max 0) := List.foldl_assoc
    rwa [Nat.max_zero] at hassoc
  unfold tally Stats.sum
  simp only [List.length_append, List.countP_append, List.map_append, List.foldl_append]
  rw [hmax]

namespace WellFormed
variable {f : Forest}

theorem roots_perm (h : f.WellFormed) :
    f.roots.Perm ((List.range f.size).filter fun i => (f.parent? i).isNone) := by
  rw [List.perm_ext_iff_of_nodup h.roots_nodup (List.nodup_range.filter _)]
  intro r
  rw [List.mem_filter, List.mem_range, Option.isNone_iff_eq_none]
  constructor
  · intro hr
    exact ⟨h.root_lt r hr, h.root_top r hr⟩
  · intro hyp
    obtain ⟨hr, htop⟩ := hyp
    exact h.complete r hr htop

/-- The numbers of a forest are a tally over its nodes, which may be taken in any order. -/
theorem stats_eq (h : f.WellFormed) : f.stats = tally ((List.range f.size).map f.shape) := by
  have hroots : f.roots.length =
      (List.range f.size).countP fun i => (f.parent? i).isNone := by
    rw [h.roots_perm.length_eq, List.countP_eq_length_filter]
  have horphans : f.orphans.length =
      (List.range f.size).countP fun i => (f.parent? i).isNone && (f.parentName? i).isSome := by
    rw [orphans_eq, (h.roots_perm.filter _).length_eq, List.filter_filter,
      List.countP_eq_length_filter]
    simp only [Bool.and_comm]
  have hdepth : (f.nodes.toList.map fun n => f.depth n.id).foldl max 0 =
      ((List.range f.size).map f.depth).foldl max 0 := h.maxDepth_eq_foldl
  unfold stats tally
  rw [hroots, horphans, hdepth, List.length_map, List.length_range, List.countP_map,
    List.countP_map, List.map_map]
  rfl

end WellFormed

theorem Embeds.map_shape {φ : Nat → Nat} {f g : Forest} (h : Embeds φ f g) (hf : f.Linked)
    (hg : g.Linked) :
    ((List.range f.size).map φ).map g.shape = (List.range f.size).map f.shape := by
  rw [List.map_map]
  refine List.map_congr_left fun i hi => ?_
  have hlt : i < f.size := List.mem_range.mp hi
  simp only [Function.comp_apply, shape, h.parent?_eq hlt, h.parentName?_eq hlt,
    h.depth_eq hf hg hlt, Option.isNone_map]

/-! ## Copies -/

/-- The nodes of `g` in `part` are a copy of `f`: linked alike, to each other only, and in the same
order of arrival. -/
structure Copies (φ : Nat → Nat) (part : Nat → Bool) (f g : Forest) : Prop extends
    Embeds φ f g where
  mono : ∀ i j, i < j → j < f.size → φ i < φ j
  part_iff : ∀ x < g.size, part x = true ↔ ∃ i < f.size, φ i = x
  closed : ∀ c p, g.parent? c = some p → part c = part p
  root_iff : ∀ i < f.size, φ i ∈ g.roots ↔ i ∈ f.roots

namespace Copies
variable {φ : Nat → Nat} {part : Nat → Bool} {f g : Forest}

theorem part_image (h : Copies φ part f g) {i : Nat} (hi : i < f.size) : part (φ i) = true :=
  (h.part_iff (φ i) (h.lt hi)).mpr ⟨i, hi, rfl⟩

theorem inj (h : Copies φ part f g) {i j : Nat} (hi : i < f.size) (hj : j < f.size)
    (hij : φ i = φ j) : i = j := by
  rcases Nat.lt_trichotomy i j with hlt | heq | hgt
  · have := h.mono i j hlt hj
    omega
  · exact heq
  · have := h.mono j i hgt hi
    omega

theorem mem_waiting_iff (h : Copies φ part f g) {i : Nat} (hi : i < f.size) (s : String) :
    φ i ∈ g.waiting s ↔ i ∈ f.waiting s := by
  rw [mem_waiting_iff_parentName?, mem_waiting_iff_parentName?, h.root_iff i hi,
    h.parentName?_eq hi]

/-- An ascending list of nodes of `f` has an ascending image. -/
theorem pairwise_map (h : Copies φ part f g) {l : List Nat} (hl : l.Pairwise (· < ·))
    (hlt : ∀ x ∈ l, x < f.size) : (l.map φ).Pairwise (· < ·) := by
  rw [List.pairwise_map]
  exact hl.imp_of_mem fun {a b} _ hb hab => h.mono a b hab (hlt b hb)

theorem part_of_inSubtree (h : Copies φ part f g) {a n : Nat} (hn : g.InSubtree a n) :
    part n = part a := by
  induction hn with
  | refl => rfl
  | tail _ hlink ih => exact ih.trans (h.closed _ _ hlink)

theorem children_eq (h : Copies φ part f g) (hf : f.Linked) (hg : g.Linked) (af : f.Ascending)
    (ag : g.Ascending) {i : Nat} (hi : i < f.size) :
    g.children (φ i) = (f.children i).map φ := by
  refine (ag.children (φ i)).eq_of_mem_iff
    (h.pairwise_map (af.children i) fun x hx => hf.child_lt hx) fun x => ?_
  rw [hg.child_iff, List.mem_map]
  constructor
  · intro hx
    have hpart : part x = true := (h.closed x (φ i) hx).trans (h.part_image hi)
    obtain ⟨j, hj, rfl⟩ := (h.part_iff x (lt_of_parent? hx)).mp hpart
    rw [h.parent?_eq hj, Option.map_eq_some_iff] at hx
    obtain ⟨k, hk, hki⟩ := hx
    rw [h.inj (hf.parent_lt hk) hi hki] at hk
    exact ⟨j, (hf.child_iff i j).mpr hk, rfl⟩
  · intro hx
    obtain ⟨j, hj, rfl⟩ := hx
    exact h.parent j i ((hf.child_iff i j).mp hj)

theorem walk_map (h : Copies φ part f g) (hf : f.Linked) (hg : g.Linked) (af : f.Ascending)
    (ag : g.Ascending) {stack out : List Nat} (w : Walk f stack out) :
    Walk g (stack.map φ) (out.map φ) := by
  induction w with
  | done => exact .done
  | @visit id n stack out hn _ ih =>
    have hid : id < f.size := (f.node?_isSome_iff id).mp (by rw [hn]; rfl)
    obtain ⟨n', hn'⟩ := exists_node (h.lt hid)
    have hchildren := h.children_eq hf hg af ag hid
    rw [children_of_node? hn, children_of_node? hn'] at hchildren
    refine .visit hn' ?_
    rwa [hchildren, ← List.map_append]

theorem preorder_eq (h : Copies φ part f g) (hf : f.Linked) (hg : g.Linked) (af : f.Ascending)
    (ag : g.Ascending) {r : Nat} (hr : r < f.size) : g.preorder (φ r) = (f.preorder r).map φ :=
  (hg.walk_preorder (h.lt hr)).unique (h.walk_map hf hg af ag (hf.walk_preorder hr))

theorem roots_filter (h : Copies φ part f g) (hf : f.Rooted) (hg : g.Rooted) (af : f.Ascending)
    (ag : g.Ascending) : g.roots.filter part = f.roots.map φ := by
  refine (ag.roots.filter part).eq_of_mem_iff (h.pairwise_map af.roots hf.root_lt) fun x => ?_
  rw [List.mem_filter, List.mem_map]
  constructor
  · intro hyp
    obtain ⟨hx, hpart⟩ := hyp
    obtain ⟨i, hi, rfl⟩ := (h.part_iff x (hg.root_lt x hx)).mp hpart
    exact ⟨i, (h.root_iff i hi).mp hx, rfl⟩
  · intro hyp
    obtain ⟨i, hi, rfl⟩ := hyp
    have hlt := hf.root_lt i hi
    exact ⟨(h.root_iff i hlt).mpr hi, h.part_image hlt⟩

/-- A tree lies in the part as a whole or not at all. -/
theorem preorder_filter (h : Copies φ part f g) (hg : g.Linked) {r : Nat} (hr : r < g.size) :
    (g.preorder r).filter part = if part r then g.preorder r else [] := by
  have hpart : ∀ x ∈ g.preorder r, part x = part r := fun x hx =>
    h.part_of_inSubtree ((hg.mem_preorder hr).mp hx)
  split
  · rename_i hin
    exact List.filter_eq_self.mpr fun x hx => (hpart x hx).trans hin
  · rename_i hout
    exact List.filter_eq_nil_iff.mpr fun x hx => by rwa [hpart x hx]

end Copies

theorem flatMap_ite_nil {α β : Type} (p : α → Bool) (h : α → List β) (l : List α) :
    (l.flatMap fun a => if p a then h a else []) = (l.filter p).flatMap h := by
  induction l with
  | nil => rfl
  | cons a l ih => cases ha : p a <;> simp [ha, ih]

namespace Copies
variable {φ : Nat → Nat} {part : Nat → Bool} {f g : Forest}

/-- The part is traversed as `f` is, whatever else is traversed in between. -/
theorem order_filter (h : Copies φ part f g) (hf : f.Rooted) (hg : g.Rooted) (af : f.Ascending)
    (ag : g.Ascending) : g.order.filter part = f.order.map φ := by
  calc g.order.filter part
      = g.roots.flatMap fun r => if part r then g.preorder r else [] := by
        rw [order, List.filter_flatMap]
        exact List.flatMap_congr fun r hr => h.preorder_filter hg.toLinked (hg.root_lt r hr)
    _ = (g.roots.filter part).flatMap g.preorder := flatMap_ite_nil part g.preorder g.roots
    _ = f.roots.flatMap fun r => (f.preorder r).map φ := by
        rw [h.roots_filter hf hg af ag, List.flatMap_map]
        exact List.flatMap_congr fun r hr =>
          h.preorder_eq hf.toLinked hg.toLinked af ag (hf.root_lt r hr)
    _ = f.order.map φ := by rw [order, List.map_flatMap]

/-- A name that only the part carries is found where `f` finds it. -/
theorem find?_eq (h : Copies φ part f g) (hf : f.Rooted) (hg : g.Rooted) (af : f.Ascending)
    (ag : g.Ascending) {s : String} (hs : ∀ x, g.name? x = some s → part x = true) :
    g.find? s = (f.find? s).map φ := by
  calc g.find? s
      = (g.order.filter part).find? fun x => g.name? x == some s := by
        rw [hg.find?_eq, List.find?_filter]
        refine List.find?_congr fun x _ => ?_
        by_cases hx : g.name? x = some s
        · simp [hx, hs x hx]
        · simp [hx]
    _ = (f.order.find? fun i => g.name? (φ i) == some s).map φ := by
        rw [h.order_filter hf hg af ag, List.find?_map]
        rfl
    _ = (f.find? s).map φ := by
        rw [hf.find?_eq, List.find?_congr]
        intro i hi
        rw [h.name?_eq (hf.lt_of_mem_order hi)]

end Copies

end Lineage.Forest
