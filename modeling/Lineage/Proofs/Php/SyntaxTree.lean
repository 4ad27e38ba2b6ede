import Lineage.Php.SyntaxTree

/-!
# Places in a syntax tree

A node is found by the child numbers on the way down to it (`at?`). `nodes` lists all nodes of a
tree, a node first and then what is below its children, one child after the other. Both have the
same nodes (`mem_nodes_iff_at?`), and document order is lexicographic order of the paths.

**Order in the source (`Orderly`).** What a parser owes for every node: the children lie inside it,
one behind the other, and its row counts the line breaks before it. Then document order is order in
the source: of two nodes, the one with the later path starts no earlier (`start_le_of_lex`) and on
no earlier line (`line_le_of_lex`).
-/
namespace Lineage.Php.SyntaxTree
variable {t n a b : SyntaxTree} {source : List UInt8} {p q : List Nat}

/-- A property of all trees, if a node has it whenever its children do. -/
@[elab_as_elim]
theorem induction {P : SyntaxTree → Prop}
    (node : ∀ k r m s cs, (∀ c ∈ cs, P c) → P (.node k r m s cs)) : ∀ t, P t
  | .node k r m s cs => node k r m s cs fun c _ => induction node c

/-- The node at the end of a path of child numbers. -/
def at? : SyntaxTree → List Nat → Option SyntaxTree
  | t, [] => some t
  | t, i :: p => t.children[i]?.bind fun c => c.at? p

theorem at?_cons {i : Nat} {c : SyntaxTree} (h : t.children[i]? = some c) (p : List Nat) :
    t.at? (i :: p) = c.at? p := by
  rw [at?, h, Option.bind_some]

mutual

/-- All nodes of a tree, in document order. -/
def nodes : SyntaxTree → List SyntaxTree
  | node k r m s cs => node k r m s cs :: nodesOfAll cs

def nodesOfAll : List SyntaxTree → List SyntaxTree
  | [] => []
  | t :: ts => nodes t ++ nodesOfAll ts

end

theorem nodesOfAll_eq (ts : List SyntaxTree) : nodesOfAll ts = ts.flatMap nodes := by
  induction ts with
  | nil => rfl
  | cons t ts ih => rw [nodesOfAll, ih, List.flatMap_cons]

theorem nodes_eq (t : SyntaxTree) : t.nodes = t :: t.children.flatMap nodes := by
  cases t with
  | node k r m s cs => rw [nodes, nodesOfAll_eq, children]

theorem mem_nodes_iff : n ∈ t.nodes ↔ n = t ∨ ∃ c ∈ t.children, n ∈ c.nodes := by
  rw [nodes_eq, List.mem_cons, List.mem_flatMap]

theorem self_mem_nodes (t : SyntaxTree) : t ∈ t.nodes := mem_nodes_iff.mpr (Or.inl rfl)

theorem nodes_subset_of_mem {c : SyntaxTree} (h : c ∈ t.children) : c.nodes ⊆ t.nodes :=
  fun _ hn => mem_nodes_iff.mpr (Or.inr ⟨c, h, hn⟩)

theorem nodes_subset (h : n ∈ t.nodes) : n.nodes ⊆ t.nodes := by
  induction t using induction with
  | node k r m s cs ih =>
    rcases mem_nodes_iff.mp h with rfl | ⟨c, hc, hn⟩
    · exact fun _ hx => hx
    · exact fun _ hx => nodes_subset_of_mem hc (ih c hc hn hx)

theorem mem_nodes_iff_at? : n ∈ t.nodes ↔ ∃ p, t.at? p = some n := by
  induction t using induction with
  | node k r m s cs ih =>
    rw [mem_nodes_iff]
    constructor
    · rintro (rfl | ⟨c, hc, hn⟩)
      · exact ⟨[], rfl⟩
      · obtain ⟨p, hp⟩ := (ih c hc).mp hn
        obtain ⟨i, hi⟩ := List.mem_iff_getElem?.mp hc
        exact ⟨i :: p, by rw [at?_cons hi, hp]⟩
    · rintro ⟨p, hp⟩
      cases p with
      | nil => exact Or.inl (Option.some.inj hp).symm
      | cons i p =>
        obtain ⟨c, hi, hc⟩ := Option.bind_eq_some_iff.mp hp
        have hmem := List.mem_of_getElem? hi
        exact Or.inr ⟨c, hmem, (ih c hmem).mpr ⟨p, hc⟩⟩

/-! ## Order in the source -/

/-- The row of a place in the source, counted from zero. -/
def rowAt (source : List UInt8) (place : Nat) : Nat := (source.take place).count 10

theorem rowAt_mono (source : List UInt8) {i j : Nat} (h : i ≤ j) :
    rowAt source i ≤ rowAt source j :=
  (List.take_prefix_take_left h).sublist.count_le 10

/-- The children lie inside the node, one behind the other, and the node is in the row where it
starts. -/
structure Orderly (source : List UInt8) (t : SyntaxTree) : Prop where
  row : t.span.row = rowAt source t.span.start
  forward : t.span.start ≤ t.span.stop
  inside : ∀ c ∈ t.children, t.span.start ≤ c.span.start ∧ c.span.stop ≤ t.span.stop
  ordered : t.children.Pairwise fun a b => a.span.stop ≤ b.span.start

instance (source : List UInt8) (t : SyntaxTree) : Decidable (t.Orderly source) :=
  decidable_of_iff
    (t.span.row = rowAt source t.span.start ∧ t.span.start ≤ t.span.stop ∧
      (∀ c ∈ t.children, t.span.start ≤ c.span.start ∧ c.span.stop ≤ t.span.stop) ∧
      t.children.Pairwise fun a b => a.span.stop ≤ b.span.start)
    ⟨fun h => ⟨h.1, h.2.1, h.2.2.1, h.2.2.2⟩, fun h => ⟨h.1, h.2, h.3, h.4⟩⟩

theorem Orderly.line_le (ha : a.Orderly source) (hb : b.Orderly source)
    (h : a.span.start ≤ b.span.start) : a.line ≤ b.line := by
  have := rowAt_mono source h
  rw [line, line, ha.row, hb.row]
  omega

/-- All that is in a tree lies inside its root. -/
theorem inside_of_mem_nodes (h : ∀ x ∈ t.nodes, x.Orderly source) (hn : n ∈ t.nodes) :
    t.span.start ≤ n.span.start ∧ n.span.stop ≤ t.span.stop := by
  induction t using induction with
  | node k r m s cs ih =>
    have hself := h _ (self_mem_nodes _)
    rcases mem_nodes_iff.mp hn with rfl | ⟨c, hc, hnc⟩
    · exact ⟨Nat.le_refl _, Nat.le_refl _⟩
    · have hin := ih c hc (fun x hx => h x (nodes_subset_of_mem hc hx)) hnc
      have hchild := hself.inside c hc
      omega

/-- Document order is order in the source. -/
theorem start_le_of_lex (h : ∀ x ∈ t.nodes, x.Orderly source) (ha : t.at? p = some a)
    (hb : t.at? q = some b) (hlex : List.Lex (· < ·) p q) : a.span.start ≤ b.span.start := by
  induction hlex generalizing t with
  | nil =>
    -- The earlier node is an ancestor of the later one.
    cases ha
    exact (inside_of_mem_nodes h (mem_nodes_iff_at?.mpr ⟨_, hb⟩)).1
  | cons _ ih =>
    obtain ⟨c, hi, hac⟩ := Option.bind_eq_some_iff.mp ha
    obtain ⟨c', hi', hbc⟩ := Option.bind_eq_some_iff.mp hb
    rw [hi] at hi'
    cases hi'
    exact ih (fun x hx => h x (nodes_subset_of_mem (List.mem_of_getElem? hi) hx)) hac hbc
  | rel hij =>
    -- The two nodes are below different children.
    obtain ⟨c, hi, hac⟩ := Option.bind_eq_some_iff.mp ha
    obtain ⟨d, hj, hbd⟩ := Option.bind_eq_some_iff.mp hb
    have hc := nodes_subset_of_mem (List.mem_of_getElem? hi)
    have hd := nodes_subset_of_mem (List.mem_of_getElem? hj)
    have hmema : a ∈ c.nodes := mem_nodes_iff_at?.mpr ⟨_, hac⟩
    have hmemb : b ∈ d.nodes := mem_nodes_iff_at?.mpr ⟨_, hbd⟩
    have hina := inside_of_mem_nodes (fun x hx => h x (hc hx)) hmema
    have hinb := inside_of_mem_nodes (fun x hx => h x (hd hx)) hmemb
    have hforward := (h a (hc hmema)).forward
    have hapart : c.span.stop ≤ d.span.start := by
      obtain ⟨hlt, rfl⟩ := List.getElem?_eq_some_iff.mp hi
      obtain ⟨hlt', rfl⟩ := List.getElem?_eq_some_iff.mp hj
      exact List.pairwise_iff_getElem.mp (h t (self_mem_nodes t)).ordered _ _ hlt hlt' hij
    omega

theorem line_le_of_lex (h : ∀ x ∈ t.nodes, x.Orderly source) (ha : t.at? p = some a)
    (hb : t.at? q = some b) (hlex : List.Lex (· < ·) p q) : a.line ≤ b.line :=
  (h a (mem_nodes_iff_at?.mpr ⟨p, ha⟩)).line_le (h b (mem_nodes_iff_at?.mpr ⟨q, hb⟩))
    (start_le_of_lex h ha hb hlex)

end Lineage.Php.SyntaxTree
