import Lineage.Php.Extraction
import Lineage.Proofs.Php.SyntaxTree

/-!
# Where a source is at fault

A source with a fault yields no classes but the line of its first fault. The search for it goes down
only where a flag says that there is something to find.

**Flags (`Flags`).** A flag that is set at a node exactly if the node is an error or missing, or the
flag is set at a child. `hasError` is such a flag, and there is no other (`flags_iff`). It is set
where a fault lies in the tree below, and only there (`hasError_iff`).

**First fault.** What the search skips holds no fault, so it finds what a search through all nodes in
document order would find (`firstErrorLine?_eq`). `faults_located` puts this together: a flag that is
set is never a false alarm, so no tree with a fault is reported at a line made up for it.
-/
namespace Lineage.Php.SyntaxTree
variable {t n : SyntaxTree}

/-! ## Flags -/

/-- Is the node itself an error, or missing? -/
def isFaulty (t : SyntaxTree) : Bool := t.isError || t.isMissing

/-- At every node of `t`, the flag is set exactly if the node is at fault or the flag is set at one
of its children. -/
def Flags (t : SyntaxTree) (flag : SyntaxTree → Bool) : Prop :=
  ∀ n ∈ t.nodes, flag n = true ↔ n.isFaulty = true ∨ ∃ c ∈ n.children, flag c = true

theorem anyError_eq (ts : List SyntaxTree) : anyError ts = ts.any hasError := by
  induction ts with
  | nil => rfl
  | cons t ts ih => rw [anyError, ih, List.any_cons]

theorem hasError_iff_children (t : SyntaxTree) :
    t.hasError = true ↔ t.isFaulty = true ∨ ∃ c ∈ t.children, c.hasError = true := by
  cases t with
  | node k r m s cs =>
    rw [hasError, anyError_eq, Bool.or_eq_true, List.any_eq_true]
    rfl

/-- The flag of the root says whether there is a fault anywhere in the tree. -/
theorem hasError_iff : t.hasError = true ↔ ∃ n ∈ t.nodes, n.isFaulty = true := by
  induction t using induction with
  | node k r m s cs ih =>
    rw [hasError_iff_children]
    constructor
    · rintro (hfault | ⟨c, hc, hflag⟩)
      · exact ⟨_, self_mem_nodes _, hfault⟩
      · obtain ⟨n, hn, hfault⟩ := (ih c hc).mp hflag
        exact ⟨n, nodes_subset_of_mem hc hn, hfault⟩
    · rintro ⟨n, hn, hfault⟩
      rcases mem_nodes_iff.mp hn with rfl | ⟨c, hc, hnc⟩
      · exact Or.inl hfault
      · exact Or.inr ⟨c, hc, (ih c hc).mpr ⟨n, hnc, hfault⟩⟩

/-- The rule of flags has one solution. -/
theorem flags_iff {flag : SyntaxTree → Bool} :
    t.Flags flag ↔ ∀ n ∈ t.nodes, flag n = n.hasError := by
  have hchild : ∀ n ∈ t.nodes, ∀ c ∈ n.children, c ∈ t.nodes := fun n hn c hc =>
    nodes_subset hn (nodes_subset_of_mem hc (self_mem_nodes c))
  constructor
  · intro h n hn
    -- From the leaves up: a node's flag is settled by those of its children.
    induction n using induction with
    | node k r m s cs ih =>
      rw [Bool.eq_iff_iff, h _ hn, hasError_iff_children]
      refine or_congr_right (exists_congr fun c => and_congr_right fun hc => ?_)
      rw [ih c hc (hchild _ hn c hc)]
  · intro h n hn
    rw [h n hn, hasError_iff_children]
    refine or_congr_right (exists_congr fun c => and_congr_right fun hc => ?_)
    rw [h c (hchild n hn c hc)]

/-! ## The first fault -/

/-- What is skipped holds nothing to find. -/
theorem find?_nodes_of_clean (h : t.hasError = false) : t.nodes.find? isFaulty = none := by
  rw [List.find?_eq_none]
  intro n hn hfault
  rw [hasError_iff.mpr ⟨n, hn, hfault⟩] at h
  cases h

theorem firstErrorLineIn?_eq {ts : List SyntaxTree}
    (h : ∀ t ∈ ts, t.firstErrorLine? = (t.nodes.find? isFaulty).map line) :
    firstErrorLineIn? ts = ((nodesOfAll ts).find? isFaulty).map line := by
  induction ts with
  | nil => rfl
  | cons t ts ih =>
    have hrest := ih fun x hx => h x (List.mem_cons_of_mem t hx)
    rw [firstErrorLineIn?, nodesOfAll, List.find?_append, hrest]
    cases hflag : t.hasError with
    | false =>
      -- The child is skipped, and the full search comes out of it with nothing.
      simp [find?_nodes_of_clean hflag]
    | true => simp [h t (by simp), Option.map_or]

/-- The search that skips finds what the search through all nodes finds. -/
theorem firstErrorLine?_eq (t : SyntaxTree) :
    t.firstErrorLine? = (t.nodes.find? isFaulty).map line := by
  induction t using induction with
  | node k r m s cs ih =>
    show (if (node k r m s cs).isFaulty then some (node k r m s cs).line else firstErrorLineIn? cs) =
      ((node k r m s cs :: nodesOfAll cs).find? isFaulty).map line
    by_cases hfault : (node k r m s cs).isFaulty = true
    · rw [if_pos hfault, List.find?_cons_of_pos hfault, Option.map_some]
    · rw [if_neg hfault, List.find?_cons_of_neg hfault, firstErrorLineIn?_eq ih]

/-- `n` is the first node of `t` in document order that is at fault. -/
def FirstFault (t n : SyntaxTree) : Prop :=
  n.isFaulty = true ∧
    ∃ before after, t.nodes = before ++ n :: after ∧ ∀ m ∈ before, m.isFaulty = false

theorem find?_nodes_eq_some_iff : t.nodes.find? isFaulty = some n ↔ t.FirstFault n := by
  simp [FirstFault, List.find?_eq_some_iff_append]

/-- **Faults are located.** `hasError` is the one flag that obeys the rule. The search it guides
agrees with the search through all nodes. Where the flag of the root is set, there is a first fault,
and its line is found and reported. -/
theorem faults_located (t : SyntaxTree) :
    (∀ flag, t.Flags flag ↔ ∀ n ∈ t.nodes, flag n = n.hasError) ∧
    t.firstErrorLine? = (t.nodes.find? isFaulty).map line ∧
    (t.hasError = true → ∃ n, t.FirstFault n ∧ t.firstErrorLine? = some n.line ∧
      ∀ source file, t.extract source file =
        .error (.unparsable file ("syntax error near line " ++ toString n.line))) := by
  refine ⟨fun _ => flags_iff, firstErrorLine?_eq t, fun hflag => ?_⟩
  obtain ⟨n, hn⟩ := Option.isSome_iff_exists.mp (List.find?_isSome.mpr (hasError_iff.mp hflag))
  have hline : t.firstErrorLine? = some n.line := by rw [firstErrorLine?_eq, hn, Option.map_some]
  refine ⟨n, find?_nodes_eq_some_iff.mp hn, hline, fun source file => ?_⟩
  rw [extract, if_pos hflag, hline, Option.getD_some]

/-- A statement without a fault, a block that misses a token, and an error farther down. -/
def brokenBlock : SyntaxTree :=
  .node .program none false ⟨0, 40, 0⟩
    [.node .statement none false ⟨0, 9, 0⟩ [.node .name none false ⟨0, 8, 0⟩ []],
     .node .block none false ⟨10, 30, 1⟩ [.node .token none false ⟨10, 11, 1⟩ [],
       .node .token none true ⟨30, 30, 3⟩ []],
     .node .error none false ⟨31, 40, 4⟩ []]

theorem brokenBlock_located :
    brokenBlock.hasError = true ∧ ∃ n, brokenBlock.FirstFault n ∧
      brokenBlock.firstErrorLine? = some n.line ∧ n.line = 4 ∧
      ∀ source file, brokenBlock.extract source file =
        .error (.unparsable file ("syntax error near line " ++ toString n.line)) := by
  have hflag : brokenBlock.hasError = true := by decide
  obtain ⟨-, -, hlocated⟩ := faults_located brokenBlock
  obtain ⟨n, hfirst, hline, hextract⟩ := hlocated hflag
  have hfour : brokenBlock.firstErrorLine? = some 4 := by decide
  exact ⟨hflag, n, hfirst, hline, Option.some.inj (hline.symm.trans hfour), hextract⟩

end Lineage.Php.SyntaxTree
