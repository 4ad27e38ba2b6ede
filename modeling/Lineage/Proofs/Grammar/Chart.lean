import Lineage.Proofs.Grammar.Automaton

/-!
# Charts read what the grammar says

A chart keeps every reading open, and finds the pieces of the whole text in the end. It makes none
up: whatever tokens are shifted, the pieces of a result are a reading of the form of the first rule.

**Invariant (`Chart.Sound`).** Every item of every column is a place of some rule: its state can be
reached by reading what the item has found. A column stays sound when an item moves past a token or
past a finished part (`Sound.advance`), so settling a column (`Sound.settle`) and shifting a token
(`Sound.shift`) keep a chart sound.

**Result (`Sound.reads`).** What a sound chart gives as its result is a reading of the first rule.
-/
namespace Lineage.Grammar
open Automaton
variable {τ π κ ρ α : Type}
variable {rules : List (Production τ π κ ρ)} {a : Assembly κ ρ α} {shifted : τ → List α → Prop}
variable {c source : Column α} {item : Item α}

/-! ## Columns -/

/-- Every item of the column is a place of some rule. -/
def Column.Sound (rules : List (Production τ π κ ρ)) (a : Assembly κ ρ α)
    (shifted : τ → List α → Prop) (c : Column α) : Prop :=
  ∀ item ∈ c.items, ∃ i, Stands rules a shifted i item.state item.found.reverse

theorem Column.sound_empty : Column.Sound rules a shifted ({} : Column α) := by
  intro item h
  simp at h

namespace Chart
variable [BEq τ] [Hashable τ] {chart : Chart τ π κ ρ α}

theorem sound_add {g : Automaton τ π κ ρ} (hc : c.Sound rules a shifted)
    (hitem : ∃ i, Stands rules a shifted i item.state item.found.reverse) :
    (add g c item).Sound rules a shifted := by
  rw [add]
  split
  · exact hc
  · intro x hx
    rcases Array.mem_push.mp hx with hx | rfl
    · exact hc x hx
    · exact hitem

theorem reverse_found_moved (target origin : Nat) (found pieces : List α) :
    (chart.moved target origin found pieces).found.reverse =
      found.reverse ++ chart.assembly.inRole (chart.grammar.state target).role pieces := by
  cases hrole : (chart.grammar.state target).role <;> simp [moved, Assembly.inRole, hrole]

variable [BEq π] [Hashable π]

/-- A chart of the rules, with sound columns. -/
structure Sound (rules : List (Production τ π κ ρ)) (a : Assembly κ ρ α)
    (shifted : τ → List α → Prop) (chart : Chart τ π κ ρ α) : Prop where
  grammar : chart.grammar = ofProductions rules
  assembly : chart.assembly = a
  columns : ∀ c ∈ chart.columns, c.Sound rules a shifted

/-- Moving past `x`, read as `pieces`, keeps a column sound if it takes places to places. -/
theorem Sound.advance {origin x : Nat} {moves : State ρ → List (Nat × Nat)}
    {starts : List (Nat × Nat)} {pieces : List α} (h : chart.Sound rules a shifted)
    (hmove : ∀ {i s t ps}, Stands rules a shifted i s ps →
      (x, t) ∈ moves ((ofProductions rules).state s) →
      Stands rules a shifted i t (ps ++ a.inRole ((ofProductions rules).state t).role pieces))
    (hstart : ∀ {i t}, (i, t) ∈ starts → ∃ s, Stands rules a shifted i s [] ∧
      (x, t) ∈ moves ((ofProductions rules).state s))
    (hsource : source.Sound rules a shifted) (hc : c.Sound rules a shifted) :
    (chart.advance source origin x moves starts pieces c).Sound rules a shifted := by
  rw [Chart.advance]
  refine List.foldlRecOn _ _ ?_ fun c hc ⟨p, t⟩ hp => ?_
  · -- The items that wait for `x`.
    rw [← Array.foldl_toList]
    refine List.foldlRecOn _ _ hc fun c hc item hitem => ?_
    refine List.foldlRecOn _ _ hc fun c hc ⟨y, t⟩ hmem => ?_
    dsimp only
    split
    · rename_i hx
      obtain ⟨i, hi⟩ := hsource item (by simpa using hitem)
      refine sound_add hc ⟨i, ?_⟩
      rw [reverse_found_moved, h.assembly, h.grammar]
      rw [h.grammar] at hmem
      exact hmove hi (eq_of_beq hx ▸ hmem)
    · exact hc
  · -- The parts that start with it.
    dsimp only
    split
    · obtain ⟨s, hs, hx⟩ := hstart hp
      refine sound_add hc ⟨p, ?_⟩
      rw [reverse_found_moved, h.assembly, h.grammar]
      exact hmove hs hx
    · exact hc

theorem finished_eq {owner : Nat} {r : Production τ π κ ρ} (h : chart.Sound rules a shifted)
    (hr : rules[owner]? = some r) (found : List α) :
    chart.finished owner found = a.whole r.kind found.reverse := by
  rw [finished, h.grammar, kinds_ofProductions hr, h.assembly]
  cases r.kind <;> rfl

theorem Sound.settle [LawfulBEq π] (hrules : OneRuleEach rules) (h : chart.Sound rules a shifted)
    (fuel i : Nat) (hc : c.Sound rules a shifted) :
    (chart.settle fuel i c).Sound rules a shifted := by
  induction fuel generalizing i c with
  | zero => exact hc
  | succ fuel ih =>
    rw [Chart.settle]
    split
    · exact hc
    · rename_i item hitem
      dsimp only
      split
      · rename_i hfinal
        split
        · exact ih _ hc
        · rename_i source hsource
          -- The part of the item has been read, and the places that wait for it move past it.
          obtain ⟨k, hk⟩ := hc item (Array.mem_of_getElem? hitem)
          rw [h.grammar] at hfinal ⊢
          obtain ⟨r, hr, hreads⟩ := hk.reads hfinal
          refine ih _ (h.advance ?_ exists_start_of_startsOnPart
            (h.columns source (Array.mem_of_getElem? hsource)) hc)
          intro i s t ps hs hmove
          rw [finished_eq h hr]
          exact hs.part hrules hmove hr hreads
      · exact ih _ hc

/-! ## Charts -/

theorem sound_start (hrules : rules ≠ []) :
    (start (ofProductions rules) a).Sound rules a shifted := by
  refine ⟨rfl, rfl, fun c hc => ?_⟩
  obtain rfl := List.mem_singleton.mp (Array.mem_def.mp hc)
  refine sound_add Column.sound_empty ⟨0, ?_⟩
  obtain ⟨r, rest, rfl⟩ := List.exists_cons_of_ne_nil hrules
  exact ⟨0, _, rfl, Or.inl ⟨rfl, rfl⟩⟩

theorem Sound.last (h : chart.Sound rules a shifted) : chart.last.Sound rules a shifted := by
  rw [Chart.last]
  cases hback : chart.columns.back? with
  | none => exact Column.sound_empty
  | some c => exact h.columns c (Array.mem_of_back? hback)

theorem Sound.shift [LawfulBEq τ] [LawfulBEq π] {t : τ} {pieces : List α}
    (hrules : OneRuleEach rules) (h : chart.Sound rules a shifted) (ht : shifted t pieces) :
    (chart.shift t pieces).Sound rules a shifted := by
  refine ⟨h.grammar, h.assembly, fun c hc => ?_⟩
  rcases Array.mem_push.mp hc with hc | rfl
  · exact h.columns c hc
  · rw [columnBehind]
    split
    · exact Column.sound_empty
    · rename_i x hx
      refine h.settle hrules _ _ (h.advance ?_ ?_ h.last Column.sound_empty)
      · intro i s t' ps hs hmove
        exact hs.token hmove (h.grammar ▸ hx) ht
      · intro i t' hstart
        rw [h.grammar] at hstart
        exact exists_start_of_startsOnToken hstart

/-- **A result is a reading of the first rule.** -/
theorem Sound.reads {pieces : List α} (h : chart.Sound rules a shifted)
    (hresult : chart.result? = some pieces) :
    ∃ r, rules[0]? = some r ∧ Reads rules a shifted none r.form pieces := by
  obtain ⟨item, hfind, rfl⟩ := Option.map_eq_some_iff.mp hresult
  obtain ⟨i, hi⟩ := h.last item (Array.mem_of_find?_eq_some hfind)
  have hitem := Array.find?_some hfind
  simp only [Bool.and_eq_true, beq_iff_eq, h.grammar] at hitem
  obtain ⟨r, hr, hreads⟩ := hi.reads hitem.1.1
  exact ⟨r, hitem.1.2 ▸ hr, hreads⟩

end Chart
end Lineage.Grammar
