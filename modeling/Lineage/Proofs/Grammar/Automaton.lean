import Mathlib.Data.List.Induction
import Lineage.Proofs.Grammar.Reading

/-!
# The states of a grammar

The automata of all rules share one array of states, in which a rule's states stand in the order of
its steps. Here the array is read back: a state is the start of a rule or one of its steps, it is
final where the rule can end, and it moves as the fragment of the rule says.

**Numbers (`exists_listing`).** `numbering` lists the values without repeats, so two values never
share a number, and values without repeats keep their places.

**Layout (`plain_of_start`, `state_of_step`).** The state with a given number, in terms of the
fragment that it belongs to. The tables that are worked out afterwards change nothing else of it
(`state_ofProductions`).

**Places (`Stands`).** `Stands i s ps`: the part of rule `i` can be read up to state `s`, as `ps`. A
move goes from place to place (`Stands.token`, `Stands.part`), a first move from the start of a rule
(`exists_start_of_byFirst`), and in a final state the pieces are a reading of the rule
(`Stands.reads`).
-/
namespace Lineage.Grammar
variable {τ π κ ρ α : Type}

namespace Automaton

/-! ## Numbers -/

section Numbering
variable [BEq α] [Hashable α]

theorem numbering_concat (xs : List α) (x : α) :
    numbering (xs ++ [x]) =
      if (numbering xs).contains x then numbering xs
      else (numbering xs).insert x (numbering xs).size := by
  simp [numbering]

/-- The values in the order of their numbers. -/
theorem exists_listing [LawfulBEq α] (xs : List α) : ∃ known : List α,
    (∀ (x : α) (k : Nat), (numbering xs)[x]? = some k ↔ known[k]? = some x) ∧
    (∀ x, x ∈ known ↔ x ∈ xs) ∧ (xs.Nodup → known = xs) := by
  -- The next number is the number of the values so far.
  suffices h : ∃ known : List α, (numbering xs).size = known.length ∧
      (∀ (x : α) (k : Nat), (numbering xs)[x]? = some k ↔ known[k]? = some x) ∧
      (∀ x, x ∈ known ↔ x ∈ xs) ∧ (xs.Nodup → known = xs) from
    let ⟨known, _, h⟩ := h
    ⟨known, h⟩
  induction xs using List.reverseRecOn with
  | nil => exact ⟨[], by simp [numbering]⟩
  | append_singleton xs x ih =>
    obtain ⟨known, hsize, hget, hmem, hnodup⟩ := ih
    have hcontains : (numbering xs).contains x = true ↔ x ∈ xs := by
      rw [← hmem, List.mem_iff_getElem?, Std.HashMap.contains_eq_isSome_getElem?,
        Option.isSome_iff_exists]
      exact exists_congr (hget x)
    rw [numbering_concat]
    split
    · rename_i hx
      have hx := hcontains.mp hx
      refine ⟨known, hsize, hget, fun y => ?_, fun hnd => ?_⟩
      · rw [hmem, List.mem_append, List.mem_singleton]
        exact ⟨Or.inl, fun h => h.elim id fun h => h ▸ hx⟩
      · exact absurd hx (by have := List.nodup_append.mp hnd; grind)
    · rename_i hx
      have hx : x ∉ known := by rwa [hmem, ← hcontains]
      refine ⟨known ++ [x], ?_, fun y k => ?_, fun y => ?_, fun hnd => ?_⟩
      · rw [Std.HashMap.size_insert, if_neg (by grind), hsize, List.length_append,
          List.length_singleton]
      · rw [Std.HashMap.getElem?_insert, hsize]
        grind
      · simp [hmem]
      · rw [hnodup (List.nodup_append.mp hnd).1]

theorem numbering_getElem? [LawfulBEq α] {xs : List α} {x : α} (h : x ∈ xs) :
    (numbering xs)[x]? = some ((numbering xs).getD x 0) := by
  obtain ⟨known, hget, hmem, -⟩ := exists_listing xs
  obtain ⟨k, hk⟩ := List.mem_iff_getElem?.mp ((hmem x).mpr h)
  rw [Std.HashMap.getD_eq_getD_getElem?, (hget x k).mpr hk, Option.getD_some]

/-- Values with the same number are the same. -/
theorem numbering_inj [LawfulBEq α] {xs : List α} {x y : α} {k : Nat}
    (hx : (numbering xs)[x]? = some k) (hy : (numbering xs)[y]? = some k) : x = y := by
  obtain ⟨known, hget, -, -⟩ := exists_listing xs
  exact Option.some.inj (((hget x k).mp hx).symm.trans ((hget y k).mp hy))

/-- Without repeats, the number of a value is its place. -/
theorem getElem?_of_numbering [LawfulBEq α] {xs : List α} {x : α} {k : Nat} (hnodup : xs.Nodup)
    (h : (numbering xs)[x]? = some k) : xs[k]? = some x := by
  obtain ⟨known, hget, -, hknown⟩ := exists_listing xs
  rw [← hknown hnodup]
  exact (hget x k).mp h

end Numbering

theorem mem_getD_modify {β : Type} {table : Array (List β)} {x y : Nat} {b c : β}
    (h : b ∈ (table.modify x fun known => known ++ [c]).getD y []) :
    b ∈ table.getD y [] ∨ (x = y ∧ b = c) := by
  simp only [Array.getD_eq_getD_getElem?, Array.getElem?_modify] at h ⊢
  generalize table[y]? = row at h ⊢
  by_cases hxy : x = y <;> cases row <;> simp_all

/-- What the moves of one start state add to a table. -/
theorem mem_foldl_modify {owner y p s : Nat} {moves : List (Nat × Nat)}
    {table : Array (List (Nat × Nat))}
    (h : (p, s) ∈ (moves.foldl (fun table (x, s) =>
      table.modify x fun known => known ++ [(owner, s)]) table).getD y []) :
    (p, s) ∈ table.getD y [] ∨ (p = owner ∧ (y, s) ∈ moves) := by
  induction moves generalizing table with
  | nil => exact Or.inl h
  | cons m moves ih =>
    rcases ih h with hp | ⟨hp, hs⟩
    · rcases mem_getD_modify hp with hp | ⟨hy, hp⟩
      · exact Or.inl hp
      · obtain ⟨rfl, rfl⟩ := Prod.mk.inj hp
        exact Or.inr ⟨rfl, hy ▸ List.mem_cons_self⟩
    · exact Or.inr ⟨hp, List.mem_cons_of_mem m hs⟩

/-- The table of first moves holds moves of the start states alone. -/
theorem mem_byFirst {size y p s : Nat} {starts : List (Nat × List (Nat × Nat))}
    (h : (p, s) ∈ (byFirst size starts).getD y []) :
    ∃ moves, (p, moves) ∈ starts ∧ (y, s) ∈ moves := by
  rw [byFirst] at h
  have hempty : (p, s) ∉ (Array.replicate size ([] : List (Nat × Nat))).getD y [] := by
    simp only [Array.getD_eq_getD_getElem?, Array.getElem?_replicate]
    split <;> simp
  generalize Array.replicate size ([] : List (Nat × Nat)) = table at h hempty
  refine Or.resolve_left ?_ hempty
  clear hempty
  induction starts generalizing table with
  | nil => exact Or.inl h
  | cons start starts ih =>
    rcases ih _ h with h | ⟨moves, hmem, hs⟩
    · rcases mem_foldl_modify h with hp | ⟨hp, hs⟩
      · exact Or.inl hp
      · exact Or.inr ⟨start.2, hp ▸ List.mem_cons_self, hs⟩
    · exact Or.inr ⟨moves, List.mem_cons_of_mem start hmem, hs⟩

/-! ## The layout of the states -/

/-- The steps behind step `n`. -/
def followers (x : Fragment τ π ρ) (n : Nat) : List Nat :=
  ((x.follow.filter fun (a, _) => a == n).map Prod.snd).eraseDups

theorem mem_followers {x : Fragment τ π ρ} {n s : Nat} : s ∈ followers x n ↔ (n, s) ∈ x.follow := by
  simp [followers, List.mem_eraseDups]

theorem getElem?_fragments {rules : List (Production τ π κ ρ)} {m n i : Nat} {x : Fragment τ π ρ}
    (h : (fragments m rules)[i]? = some (n, x)) :
    ∃ r, rules[i]? = some r ∧ x = r.form.fragment (n + 1) none := by
  induction rules generalizing m i with
  | nil => simp [fragments] at h
  | cons r rules ih =>
    rw [fragments] at h
    cases i with
    | zero =>
      obtain ⟨rfl, rfl⟩ := by simpa using h
      exact ⟨r, rfl, rfl⟩
    | succ i => exact ih (by simpa using h)

theorem within_of_mem {rules : List (Production τ π κ ρ)} {i n : Nat}
    {x : Fragment τ π ρ} (h : (fragments 0 rules)[i]? = some (n, x)) : x.Within (n + 1) := by
  obtain ⟨r, -, rfl⟩ := getElem?_fragments h
  exact Form.within_fragment (n + 1) none r.form

/-- The tokens that the rules read, in order. -/
def tokensRead (rules : List (Production τ π κ ρ)) : List τ :=
  ((fragments 0 rules).flatMap fun (_, x) => x.steps).filterMap fun s => s.reads.getLeft?

theorem mem_tokensRead {rules : List (Production τ π κ ρ)} {i n j : Nat} {x : Fragment τ π ρ}
    {u : τ} {role : Option ρ} (hx : (fragments 0 rules)[i]? = some (n, x))
    (hst : x.steps[j]? = some ⟨.inl u, role⟩) : u ∈ tokensRead rules := by
  refine List.mem_filterMap.mpr ⟨⟨.inl u, role⟩, List.mem_flatMap.mpr ⟨(n, x), ?_, ?_⟩, rfl⟩
  · exact List.mem_of_getElem? hx
  · exact List.mem_of_getElem? hst

section Layout
variable [BEq τ] [Hashable τ] [BEq π] [Hashable π]
variable {tokenIndex : Std.HashMap τ Nat} {partIndex : Std.HashMap π Nat}

/-- The moves to the steps `targets`: those that read a token, and those that read a part. -/
def moves (tokenIndex : Std.HashMap τ Nat) (partIndex : Std.HashMap π Nat) (start : Nat)
    (x : Fragment τ π ρ) (targets : List Nat) : List (Nat × Nat) × List (Nat × Nat) :=
  targets.foldr (fun s (ts, ps) =>
    match x.steps.toArray[s - start - 1]? with
    | some ⟨.inl t, _⟩ => ((tokenIndex.getD t 0, s) :: ts, ps)
    | some ⟨.inr p, _⟩ => (ts, (partIndex.getD p 0, s) :: ps)
    | none => (ts, ps)) ([], [])

/-- A state of the fragment `x` from which reading goes on to the steps `targets`. -/
def stateTo (tokenIndex : Std.HashMap τ Nat) (partIndex : Std.HashMap π Nat) (owner start : Nat)
    (x : Fragment τ π ρ) (isFinal : Bool) (role : Option ρ) (targets : List Nat) : State ρ :=
  { owner, isFinal, role
    onToken := (moves tokenIndex partIndex start x targets).1
    onPart := (moves tokenIndex partIndex start x targets).2 }

theorem statesOf_eq (owner start : Nat) (x : Fragment τ π ρ) :
    statesOf tokenIndex partIndex owner start x =
      stateTo tokenIndex partIndex owner start x x.nullable none x.first ::
        x.steps.mapIdx fun i step => stateTo tokenIndex partIndex owner start x
          (x.last.contains (start + 1 + i)) step.role (followers x (start + 1 + i)) := rfl

theorem length_statesOf (owner start : Nat) (x : Fragment τ π ρ) :
    (statesOf tokenIndex partIndex owner start x).length = x.steps.length + 1 := by
  simp [statesOf_eq]

/-- A move goes to one of the targets, past the token or the part that the target reads. -/
theorem of_mem_moves {start s : Nat} {x : Fragment τ π ρ} {targets : List Nat} :
    (∀ y, (y, s) ∈ (moves tokenIndex partIndex start x targets).1 → s ∈ targets ∧
      ∃ t role, x.steps[s - start - 1]? = some ⟨.inl t, role⟩ ∧ tokenIndex.getD t 0 = y) ∧
    ∀ y, (y, s) ∈ (moves tokenIndex partIndex start x targets).2 → s ∈ targets ∧
      ∃ p role, x.steps[s - start - 1]? = some ⟨.inr p, role⟩ ∧ partIndex.getD p 0 = y := by
  induction targets with
  | nil => simp [moves]
  | cons u targets ih =>
    have hfst := fun y h => And.imp_left (List.mem_cons_of_mem u) (ih.1 y h)
    have hsnd := fun y h => And.imp_left (List.mem_cons_of_mem u) (ih.2 y h)
    rw [moves, List.foldr_cons, ← moves]
    simp only [List.getElem?_toArray]
    split
    · rename_i t role hstep
      refine ⟨fun y h => ?_, hsnd⟩
      rcases List.mem_cons.mp h with h | h
      · cases h
        exact ⟨List.mem_cons_self, t, role, hstep, rfl⟩
      · exact hfst y h
    · rename_i p role hstep
      refine ⟨hfst, fun y h => ?_⟩
      rcases List.mem_cons.mp h with h | h
      · cases h
        exact ⟨List.mem_cons_self, p, role, hstep, rfl⟩
      · exact hsnd y h
    · exact ⟨hfst, hsnd⟩

/-- The states of the rules one after the other, before the tables are worked out. -/
def layout (tokenIndex : Std.HashMap τ Nat) (partIndex : Std.HashMap π Nat) (owner n : Nat)
    (rules : List (Production τ π κ ρ)) : List (State ρ) :=
  (((fragments n rules).zipIdx owner).map fun ((start, x), owner) =>
    statesOf tokenIndex partIndex owner start x).flatten

/-- A rule's states stand from its start number on. -/
theorem getElem?_layout (tokenIndex : Std.HashMap τ Nat) (partIndex : Std.HashMap π Nat)
    (owner : Nat) {rules : List (Production τ π κ ρ)} {m n i : Nat} {x : Fragment τ π ρ}
    (h : (fragments m rules)[i]? = some (n, x)) : m ≤ n ∧
    ∀ j ≤ x.steps.length, (layout tokenIndex partIndex owner m rules)[n - m + j]? =
      (statesOf tokenIndex partIndex (owner + i) n x)[j]? := by
  induction rules generalizing owner m i with
  | nil => simp [fragments] at h
  | cons r rules ih =>
    have hsplit : layout tokenIndex partIndex owner m (r :: rules) =
        statesOf tokenIndex partIndex owner m (r.form.fragment (m + 1) none) ++
        layout tokenIndex partIndex (owner + 1)
          (m + 1 + (r.form.fragment (m + 1) none).steps.length) rules := rfl
    rw [fragments] at h
    cases i with
    | zero =>
      obtain ⟨rfl, rfl⟩ := by simpa using h
      refine ⟨Nat.le_refl _, fun j hj => ?_⟩
      rw [hsplit, List.getElem?_append_left (by rw [length_statesOf]; omega)]
      simp
    | succ i =>
      obtain ⟨hle, hget⟩ := ih (owner + 1) (by simpa using h)
      refine ⟨by omega, fun j hj => ?_⟩
      rw [hsplit, List.getElem?_append_right (by rw [length_statesOf]; omega), length_statesOf,
        show owner + (i + 1) = owner + 1 + i by omega, ← hget j hj]
      congr 1
      omega

/-! ## The automaton of a list of rules -/

variable {rules : List (Production τ π κ ρ)}

theorem tokenIndex_ofProductions :
    (ofProductions rules).tokenIndex = numbering (tokensRead rules) := rfl

theorem kinds_ofProductions {i : Nat} {r : Production τ π κ ρ} (h : rules[i]? = some r) :
    (ofProductions rules).kinds[i]?.join = r.kind := by
  have hkinds : (ofProductions rules).kinds = (rules.map (·.kind)).toArray := rfl
  simp [hkinds, h]

/-- The states before the tables are worked out. -/
def plain (rules : List (Production τ π κ ρ)) : List (State ρ) :=
  layout (numbering (tokensRead rules)) (numbering (rules.map (·.part))) 0 0 rules

/-- The tables change nothing else of a state. -/
theorem state_ofProductions {s : Nat} {st : State ρ} (h : (plain rules)[s]? = some st) :
    ∃ predicts opens, (ofProductions rules).state s = { st with predicts, opens } := by
  obtain ⟨complete, hcomplete, hstates⟩ : ∃ complete : State ρ → State ρ,
      (∀ st, ∃ predicts opens, complete st = { st with predicts, opens }) ∧
      (ofProductions rules).states = (plain rules).toArray.map complete :=
    ⟨_, fun _ => ⟨_, _, rfl⟩, rfl⟩
  obtain ⟨predicts, opens, heq⟩ := hcomplete st
  refine ⟨predicts, opens, ?_⟩
  rw [state, hstates, ← heq]
  simp [h]

theorem getElem?_plain {i n j : Nat} {x : Fragment τ π ρ}
    (h : (fragments 0 rules)[i]? = some (n, x)) (hj : j ≤ x.steps.length) :
    (plain rules)[n + j]? = (statesOf (numbering (tokensRead rules))
      (numbering (rules.map (·.part))) i n x)[j]? := by
  have hget := (getElem?_layout (numbering (tokensRead rules)) (numbering (rules.map (·.part))) 0
    h).2 j hj
  rwa [Nat.sub_zero, Nat.zero_add] at hget

theorem plain_of_start {i n : Nat} {x : Fragment τ π ρ}
    (h : (fragments 0 rules)[i]? = some (n, x)) :
    (plain rules)[n]? = some (stateTo (numbering (tokensRead rules))
      (numbering (rules.map (·.part))) i n x x.nullable none x.first) := by
  simpa [statesOf_eq] using getElem?_plain h (Nat.zero_le _)

theorem state_of_step {i n j : Nat} {x : Fragment τ π ρ} {st : Step τ π ρ}
    (h : (fragments 0 rules)[i]? = some (n, x)) (hst : x.steps[j]? = some st) : ∃ predicts opens,
    (ofProductions rules).state (n + 1 + j) =
      { stateTo (numbering (tokensRead rules)) (numbering (rules.map (·.part))) i n x
          (x.last.contains (n + 1 + j)) st.role (followers x (n + 1 + j)) with
        predicts, opens } := by
  refine state_ofProductions ?_
  obtain ⟨hj, -⟩ := List.getElem?_eq_some_iff.mp hst
  have hget := getElem?_plain h (Nat.succ_le_of_lt hj)
  rw [Nat.succ_eq_add_one, ← Nat.add_assoc, Nat.add_right_comm] at hget
  simpa [statesOf_eq, hst] using hget

end Layout

/-! ## Places -/

section Places
variable [BEq τ] [Hashable τ] [BEq π] [Hashable π]
variable {rules : List (Production τ π κ ρ)} {a : Assembly κ ρ α} {shifted : τ → List α → Prop}
variable {i s t y : Nat} {ps qs : List α}

/-- Reading the part of rule `i` can stand at state `s` once `ps` are read. -/
def Stands (rules : List (Production τ π κ ρ)) (a : Assembly κ ρ α) (shifted : τ → List α → Prop)
    (i s : Nat) (ps : List α) : Prop :=
  ∃ n x, (fragments 0 rules)[i]? = some (n, x) ∧
    ((s = n ∧ ps = []) ∨ x.Upto (StepReads rules a shifted) (n + 1) s ps)

/-- What a place says about its state: when it is final, and where it goes. -/
theorem Stands.state (h : Stands rules a shifted i s ps) :
    ∃ n x isFinal role targets predicts opens, (fragments 0 rules)[i]? = some (n, x) ∧
      (ofProductions rules).state s =
        { stateTo (numbering (tokensRead rules)) (numbering (rules.map (·.part))) i n x
            isFinal role targets with predicts, opens } ∧
      (isFinal = true → x.Accepts (StepReads rules a shifted) (n + 1) ps) ∧
      ∀ t ∈ targets, ∀ st, x.steps[t - n - 1]? = some st →
        (∀ qs, StepReads rules a shifted st qs → Stands rules a shifted i t (ps ++ qs)) ∧
        ((ofProductions rules).state t).role = st.role := by
  obtain ⟨n, x, hx, hs⟩ := h
  have hwithin := within_of_mem hx
  -- A target is a step, so its state has the role of the step.
  have hrole : ∀ {t st}, n + 1 ≤ t → x.steps[t - n - 1]? = some st →
      t = n + 1 + (t - n - 1) ∧ ((ofProductions rules).state t).role = st.role := by
    intro t st ht hst
    have ht : t = n + 1 + (t - n - 1) := by omega
    obtain ⟨predicts, opens, heq⟩ := state_of_step hx hst
    rw [← ht] at heq
    exact ⟨ht, by rw [heq, stateTo]⟩
  rcases hs with ⟨rfl, rfl⟩ | hrun
  · obtain ⟨predicts, opens, heq⟩ := state_ofProductions (plain_of_start hx)
    refine ⟨s, x, _, _, _, predicts, opens, hx, heq, fun hnull => Or.inl ⟨hnull, rfl⟩, ?_⟩
    intro t ht st hst
    obtain ⟨hn, hr⟩ := hrole (hwithin.first t ht).1 hst
    refine ⟨fun qs hqs => ⟨s, x, hx, Or.inr ?_⟩, hr⟩
    rw [hn] at ht ⊢
    exact .first ht hst hqs
  · obtain ⟨j, st, rfl, hst⟩ : ∃ j st, s = n + 1 + j ∧ x.steps[j]? = some st := by
      cases hrun with
      | first _ hst _ | next _ _ hst _ => exact ⟨_, _, rfl, hst⟩
    obtain ⟨predicts, opens, heq⟩ := state_of_step hx hst
    refine ⟨n, x, _, _, _, predicts, opens, hx, heq, fun hlast => Or.inr ⟨_, ?_, hrun⟩, ?_⟩
    · simpa using hlast
    · intro t ht st hst
      have hfollow := mem_followers.mp ht
      obtain ⟨hn, hr⟩ := hrole (hwithin.follow _ t hfollow).2.1 hst
      refine ⟨fun qs hqs => ⟨n, x, hx, Or.inr ?_⟩, hr⟩
      rw [hn] at hfollow ⊢
      exact .next hrun hfollow hst hqs

/-- In a final state the part has been read. -/
theorem Stands.reads (h : Stands rules a shifted i s ps)
    (hfinal : ((ofProductions rules).state s).isFinal = true) :
    ∃ r, rules[((ofProductions rules).state s).owner]? = some r ∧
      Reads rules a shifted none r.form ps := by
  obtain ⟨n, x, isFinal, role, targets, predicts, opens, hx, heq, hacc, -⟩ := h.state
  obtain ⟨r, hr, rfl⟩ := getElem?_fragments hx
  rw [heq, stateTo] at hfinal ⊢
  exact ⟨r, hr, Form.reads_of_accepts (n + 1) none r.form (hacc hfinal)⟩

/-- A place moves past a token. -/
theorem Stands.token [LawfulBEq τ] {u : τ} (h : Stands rules a shifted i s ps)
    (hmove : (y, t) ∈ ((ofProductions rules).state s).onToken)
    (hu : (ofProductions rules).tokenIndex[u]? = some y) (hq : shifted u qs) :
    Stands rules a shifted i t (ps ++ a.inRole ((ofProductions rules).state t).role qs) := by
  obtain ⟨n, x, isFinal, role, targets, predicts, opens, hx, heq, -, hgo⟩ := h.state
  rw [heq, stateTo] at hmove
  obtain ⟨ht, v, role', hst, hv⟩ := of_mem_moves.1 y hmove
  obtain ⟨hstand, hrole⟩ := hgo t ht _ hst
  have hnumber := numbering_getElem? (mem_tokensRead hx hst)
  rw [hv] at hnumber
  obtain rfl : v = u := numbering_inj hnumber (by rwa [tokenIndex_ofProductions] at hu)
  rw [hrole]
  exact hstand _ (.token hq)

/-- Every part has a rule, and only one. -/
structure OneRuleEach (rules : List (Production τ π κ ρ)) : Prop where
  nodup : (rules.map (·.part)).Nodup
  all : ∀ p, p ∈ rules.map (·.part)

/-- A place moves past a part. -/
theorem Stands.part [LawfulBEq π] {r : Production τ π κ ρ} (hrules : OneRuleEach rules)
    (h : Stands rules a shifted i s ps) (hmove : (y, t) ∈ ((ofProductions rules).state s).onPart)
    (hr : rules[y]? = some r) (hq : Reads rules a shifted none r.form qs) :
    Stands rules a shifted i t
      (ps ++ a.inRole ((ofProductions rules).state t).role (a.whole r.kind qs)) := by
  obtain ⟨n, x, isFinal, role, targets, predicts, opens, hx, heq, -, hgo⟩ := h.state
  rw [heq, stateTo] at hmove
  obtain ⟨ht, p, role', hst, hp⟩ := of_mem_moves.2 y hmove
  obtain ⟨hstand, hrole⟩ := hgo t ht _ hst
  -- The number of a part is the place of its rule.
  have hnumber := numbering_getElem? (hrules.all p)
  rw [hp] at hnumber
  have hplace := getElem?_of_numbering hrules.nodup hnumber
  obtain rfl : r.part = p := by
    rw [List.getElem?_map, hr] at hplace
    exact Option.some.inj hplace
  rw [hrole]
  exact hstand _ (.part (List.mem_of_getElem? hr) hq)

/-- A first move in a table is a move from the start of a rule. -/
theorem exists_start_of_byFirst {size : Nat} (out : State ρ → List (Nat × Nat))
    (hout : ∀ st predicts opens, out { st with predicts, opens } = out st)
    (h : (i, t) ∈ (byFirst size ((((fragments 0 rules).map Prod.fst).toArray.map fun s =>
      (plain rules).toArray[s]?.getD default).toList.zipIdx.map fun (st, p) =>
        (p, out st))).getD y []) :
    ∃ s, Stands rules a shifted i s [] ∧ (y, t) ∈ out ((ofProductions rules).state s) := by
  obtain ⟨moves, hmem, hmove⟩ := mem_byFirst h
  obtain ⟨⟨st, p⟩, hst, heq⟩ := List.mem_map.mp hmem
  obtain ⟨rfl, rfl⟩ := Prod.mk.inj heq
  have hst := List.mk_mem_zipIdx_iff_getElem?.mp hst
  simp only [Array.toList_map, List.getElem?_map, List.getElem?_toArray] at hst
  obtain ⟨n, hn, rfl⟩ := Option.map_eq_some_iff.mp hst
  obtain ⟨⟨n, x⟩, hx, rfl⟩ := Option.map_eq_some_iff.mp hn
  refine ⟨n, ⟨n, x, hx, Or.inl ⟨rfl, rfl⟩⟩, ?_⟩
  obtain ⟨predicts, opens, heq⟩ := state_ofProductions (plain_of_start hx)
  rw [plain_of_start hx] at hmove
  rw [heq, hout]
  exact hmove

theorem exists_start_of_startsOnToken
    (h : (i, t) ∈ (ofProductions rules).startsOnToken.getD y []) :
    ∃ s, Stands rules a shifted i s [] ∧ (y, t) ∈ ((ofProductions rules).state s).onToken :=
  exists_start_of_byFirst State.onToken (fun _ _ _ => rfl) h

theorem exists_start_of_startsOnPart
    (h : (i, t) ∈ (ofProductions rules).startsOnPart.getD y []) :
    ∃ s, Stands rules a shifted i s [] ∧ (y, t) ∈ ((ofProductions rules).state s).onPart :=
  exists_start_of_byFirst State.onPart (fun _ _ _ => rfl) h

end Places
end Automaton
end Lineage.Grammar
