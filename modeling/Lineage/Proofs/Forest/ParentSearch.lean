import Lineage.Proofs.Forest.Arrangement
import Lineage.Proofs.Forest.Orphans
import Lineage.Proofs.Forest.Subtrees

/-!
# The search for a parent in a half-built forest

When the parent of a new class is searched for, the forest is not well formed. The new node has taken
over the roots that waited for it, but is no root itself and nobody's child, so a whole tree hangs
below no root. What holds in this state is `Awaiting`, and the search relies on nothing else.

**As it runs (`Search`).** The search keeps a stack of pending ids, goes on until the first hit, and
counts no steps. It ends because the traversal that it breaks off ends (`Walk.search`), and `find?`
is its only answer (`Rooted.search_iff`).

**Where it may land.** It visits the nodes outside the new node's subtree. These are the nodes that
the new node can be attached to without a cycle, all of them and no others
(`Awaiting.mem_order_iff_acyclic`).

`parent_search_safe` has this for every insertion of every run.
-/
namespace Lineage.Forest

/-! ## A search as it runs -/

/-- The search for `s` among the pending ids `stack` comes to its end, reads only nodes, and answers
`found`. At the start the roots are pending, and each tree is searched before the next root. -/
inductive Search (f : Forest) (s : String) : List Nat → Option Nat → Prop where
  | missing : Search f s [] none
  | here {id : Nat} {n : Node} {stack : List Nat} (hn : f.node? id = some n)
      (hs : n.declaration.name = s) : Search f s (id :: stack) (some id)
  | further {id : Nat} {n : Node} {stack : List Nat} {found : Option Nat}
      (hn : f.node? id = some n) (hs : n.declaration.name ≠ s)
      (rest : Search f s (n.children ++ stack) found) : Search f s (id :: stack) found

theorem Search.unique {f : Forest} {s : String} {stack : List Nat} {found found' : Option Nat}
    (h : Search f s stack found) (h' : Search f s stack found') : found = found' := by
  induction h with
  | missing =>
    cases h'
    rfl
  | here hn hs =>
    cases h' with
    | here => rfl
    | further hn' hs' => simp_all
  | further hn hs _ ih =>
    cases h' with
    | here hn' hs' => simp_all
    | further hn' _ rest' =>
      rw [hn] at hn'
      cases hn'
      exact ih rest'

/-- A traversal that ends can be searched. -/
theorem Walk.search {f : Forest} {stack out : List Nat} (w : Walk f stack out) (s : String) :
    Search f s stack (out.find? fun id => f.name? id == some s) := by
  induction w with
  | done => exact .missing
  | @visit id n stack out hn _ ih =>
    have hname : f.name? id = some n.declaration.name := by simp [name?, hn]
    by_cases hs : n.declaration.name = s
    · rw [List.find?_cons_of_pos (by simp [hname, hs])]
      exact .here hn hs
    · rw [List.find?_cons_of_neg (by simp [hname, hs])]
      exact .further hn hs ih

namespace Rooted
variable {f : Forest}

theorem walk_order (h : f.Rooted) : Walk f f.roots f.order :=
  Walk.flatMap fun r hr => h.walk_preorder (h.root_lt r hr)

/-- The search from the roots ends, and its answer is `find?`. -/
theorem search_iff (h : f.Rooted) (s : String) (found : Option Nat) :
    Search f s f.roots found ↔ found = f.find? s := by
  have hsearch : Search f s f.roots (f.find? s) := by
    rw [h.find?_eq]
    exact h.walk_order.search s
  constructor
  · intro hfound
    exact hfound.unique hsearch
  · rintro rfl
    exact hsearch

end Rooted

/-! ## Where the new node may hang -/

namespace Awaiting
variable {f : Forest} {v : Nat}

/-- The search sees every node that the awaiting node can be attached to, and no other. -/
theorem mem_order_iff_acyclic (h : f.Awaiting v) {p : Nat} (hp : p < f.size) :
    p ∈ f.order ↔ ∀ n, ¬ (f.attach p v).ProperAncestor n n := by
  rw [h.mem_order]
  constructor
  · intro hmem
    exact (h.attach hp hmem.2).acyclic
  · intro hacyclic
    refine ⟨hp, fun hsub => ?_⟩
    exact hacyclic v (attach_closes_cycle h.lt h.top hsub)

/-- Neither the awaiting node nor a child of it can be found. -/
theorem find?_ne (h : f.Awaiting v) {s : String} {p : Nat} (hp : f.find? s = some p) :
    p ≠ v ∧ p ∉ f.children v := by
  obtain ⟨-, hout, -⟩ := h.find?_some hp
  constructor
  · rintro rfl
    exact hout .refl
  · intro hc
    exact hout (.single ((h.child_iff v p).mp hc))

end Awaiting

/-- How the search for the parent of `d` goes in `g`, the forest `f` in which a node for `d` has taken
over the roots that waited for it. The new node is `f.size`. -/
structure SearchSafe (f : Forest) (d : ClassDecl) (g : Forest) : Prop where
  /-- The insertion searches `g`, and hangs the new node where it lands. -/
  step : f.insert d = match d.parentName.bind g.find? with
    | some p => g.attach p f.size
    | none => g.addRoot f.size
  /-- The new node is no root and has no parent; its children are the roots that waited. -/
  loose : f.size ∉ g.roots ∧ g.parent? f.size = none
  adopted : g.children f.size = f.roots.filter (f.waitsFor d.name)
  /-- The traversal of the whole forest ends; the search that breaks it off ends with `find?`. -/
  walk : Walk g g.roots g.order
  search : ∀ s found, Search g s g.roots found ↔ found = g.find? s
  /-- Exactly the nodes outside the new node's subtree are visited, each once. -/
  visited : ∀ x, x ∈ g.order ↔ x < g.size ∧ ¬ g.InSubtree f.size x
  once : g.order.Nodup
  /-- What is found has the name, is not the new node and was not taken over by it, and attaching
  the new node there closes no cycle. -/
  found : ∀ s p, g.find? s = some p → g.name? p = some s ∧ p ≠ f.size ∧ p ∉ g.children f.size ∧
    ∀ n, ¬ (g.attach p f.size).ProperAncestor n n
  /-- No node is left out without need: attaching the new node to any other would close one. -/
  hangs : ∀ p < g.size, p ∈ g.order ↔ ∀ n, ¬ (g.attach p f.size).ProperAncestor n n

/-- **Safe search.** In every forest that insertions lead to and for every class that comes next. -/
theorem parent_search_safe (ds : List ClassDecl) (d : ClassDecl) :
    SearchSafe (build ds) d (((build ds).push d).adopt d.name (build ds).size) := by
  have h := wellFormed_build ds
  -- The half-built forest is not well formed; this is what holds of it.
  have hg := h.prepare d
  refine ⟨insert_eq _ d, ⟨hg.not_root, hg.top⟩, ?_, hg.walk_order, hg.search_iff,
    fun x => hg.mem_order, hg.nodup_order, ?_, fun p hp => hg.mem_order_iff_acyclic hp⟩
  · exact (h.children_prepare d _).trans (if_pos rfl)
  · intro s p hp
    obtain ⟨hlt, hout, hname⟩ := hg.find?_some hp
    obtain ⟨hne, hchild⟩ := hg.find?_ne hp
    have hmem := hg.mem_order.mpr ⟨hlt, hout⟩
    exact ⟨hname, hne, hchild, (hg.mem_order_iff_acyclic hlt).mp hmem⟩

/-- `A` waits for `B`, which is to go below `A`: the only node of that name is already below `B`. -/
example :
    let f := build [{ name := "A", parentName := some "B" }, { name := "C" }]
    let g := (f.push { name := "B", parentName := some "A" }).adopt "B" 2
    g.name? 0 = some "A" ∧ g.children 2 = [0] ∧ g.order = [1] ∧ g.find? "A" = none := by
  decide

end Lineage.Forest
