import Lineage.Proofs.Override.Classification
import Lineage.Proofs.Override.Reports

/-!
# The names beside a verdict

A report shows a verdict and, next to it, the parameter names of both methods in two columns. The
verdict comes from a walk that may stop early, the columns from the two lengths alone. They agree
all the same.

**Columns (`LaidOut`).** Each column is the list of names of its side and nothing behind it. The
table is one position longer than the longer list, and that position alone is empty on both sides.

**Gaps.** A name without a counterpart in the override (`ParameterPair.Lost`) stands in the table
exactly when the override has fewer parameters, and one without a counterpart in the overridden
method (`ParameterPair.Added`) exactly when it has more (`exists_lost_iff`, `exists_added_iff`).

**Result (`analyze_tables`).** Every report tells one story: its verdict and its gaps fit together.
-/
namespace Lineage

/-- A list read by position is the list, and nothing from its end on. -/
theorem map_getElem?_range {α β : Type} (xs : List α) (name : α → β) {n : Nat}
    (hn : xs.length ≤ n) :
    (List.range n).map (fun i => xs[i]?.map name) =
      (xs.map name).map some ++ List.replicate (n - xs.length) none := by
  apply List.ext_getElem?
  intro i
  rw [List.getElem?_map, List.getElem?_append, List.length_map, List.length_map,
    List.getElem?_map, List.getElem?_map, List.getElem?_replicate]
  by_cases hi : i < xs.length
  · have hin : i < n := Nat.lt_of_lt_of_le hi hn
    simp [hi, hin]
  · by_cases hin : i < n
    · have hrest : i - xs.length < n - xs.length := by omega
      simp [hi, hin, hrest]
    · have hrest : ¬ i - xs.length < n - xs.length := by omega
      simp [hi, hin, hrest]

namespace ParameterPair

/-- The pair with its sides exchanged. -/
def swap (p : ParameterPair) : ParameterPair := ⟨p.descendant, p.ancestor⟩

/-- Only the overridden method has a parameter here. -/
def Lost (p : ParameterPair) : Prop := p.ancestor.isSome ∧ p.descendant = none

/-- Only the override has a parameter here. -/
def Added (p : ParameterPair) : Prop := p.swap.Lost

instance (p : ParameterPair) : Decidable p.Lost := inferInstanceAs (Decidable (_ ∧ _))

instance (p : ParameterPair) : Decidable p.Added := inferInstanceAs (Decidable p.swap.Lost)

end ParameterPair

namespace Method
variable {a d : Method}

/-! ## The table of two methods -/

/-- `pairs` are the parameter names of `a` and `d` in two columns. -/
structure LaidOut (a d : Method) (pairs : List ParameterPair) : Prop where
  length : pairs.length = max a.parameters.length d.parameters.length + 1
  ancestors : pairs.map (·.ancestor) =
    (a.parameters.map (·.name)).map some ++
      List.replicate (pairs.length - a.parameters.length) none
  descendants : pairs.map (·.descendant) =
    (d.parameters.map (·.name)).map some ++
      List.replicate (pairs.length - d.parameters.length) none
  /-- The names of either side can be read off the table. -/
  names : pairs.filterMap (·.ancestor) = a.parameters.map (·.name) ∧
    pairs.filterMap (·.descendant) = d.parameters.map (·.name)
  /-- The last position, and no other, is empty on both sides. -/
  empty_iff : ∀ i, pairs[i]? = some ⟨none, none⟩ ↔ i + 1 = pairs.length

theorem length_pairParameters (a d : Method) :
    (a.pairParameters d).length = max a.parameters.length d.parameters.length + 1 := by
  simp [pairParameters]

theorem pairParameters_swap (a d : Method) :
    d.pairParameters a = (a.pairParameters d).map ParameterPair.swap := by
  unfold pairParameters
  rw [List.map_map, Nat.max_comm]
  rfl

theorem getElem?_pairParameters (a d : Method) (i : Nat) :
    (a.pairParameters d)[i]? =
      if i < max a.parameters.length d.parameters.length + 1 then
        some ⟨a.parameters[i]?.map (·.name), d.parameters[i]?.map (·.name)⟩
      else none := by
  unfold pairParameters
  rw [List.getElem?_map]
  split
  · rw [List.getElem?_range (by assumption)]
    rfl
  · rw [List.getElem?_eq_none (by rw [List.length_range]; omega)]
    rfl

theorem map_ancestor_pairParameters (a d : Method) :
    (a.pairParameters d).map (·.ancestor) =
      (a.parameters.map (·.name)).map some ++
        List.replicate ((a.pairParameters d).length - a.parameters.length) none := by
  have hlen : a.parameters.length ≤ (a.pairParameters d).length := by
    rw [length_pairParameters]
    omega
  rw [← map_getElem?_range _ _ hlen, length_pairParameters, pairParameters, List.map_map]
  rfl

theorem map_descendant_pairParameters (a d : Method) :
    (a.pairParameters d).map (·.descendant) = (d.pairParameters a).map (·.ancestor) := by
  rw [pairParameters_swap a d, List.map_map]
  rfl

theorem filterMap_ancestor_pairParameters (a d : Method) :
    (a.pairParameters d).filterMap (·.ancestor) = a.parameters.map (·.name) := by
  have hcolumn : (a.pairParameters d).filterMap (·.ancestor) =
      ((a.pairParameters d).map (·.ancestor)).filterMap id := by
    rw [List.filterMap_map]
    rfl
  rw [hcolumn, map_ancestor_pairParameters, List.filterMap_append, List.filterMap_map]
  simp

/-- The table of two methods has their names in its columns. -/
theorem laidOut_pairParameters (a d : Method) : a.LaidOut d (a.pairParameters d) where
  length := length_pairParameters a d
  ancestors := map_ancestor_pairParameters a d
  descendants := by
    rw [map_descendant_pairParameters, map_ancestor_pairParameters, pairParameters_swap a d,
      List.length_map]
  names := by
    refine ⟨filterMap_ancestor_pairParameters a d, ?_⟩
    rw [← filterMap_ancestor_pairParameters d a, pairParameters_swap a d, List.filterMap_map]
    rfl
  empty_iff i := by
    rw [getElem?_pairParameters, length_pairParameters]
    grind

/-! ## Gaps -/

/-- A name is lost exactly when the override has fewer parameters. -/
theorem exists_lost_iff :
    (∃ p ∈ a.pairParameters d, p.Lost) ↔ d.parameters.length < a.parameters.length := by
  constructor
  · intro h
    obtain ⟨p, hp, hsome, hnone⟩ := h
    obtain ⟨i, hi⟩ := List.mem_iff_getElem?.mp hp
    rw [getElem?_pairParameters] at hi
    split at hi
    · cases hi
      simp at hsome hnone
      omega
    · cases hi
  · intro hlt
    refine ⟨⟨a.parameters[d.parameters.length].name, none⟩, ?_, rfl, rfl⟩
    refine List.mem_iff_getElem?.mpr ⟨d.parameters.length, ?_⟩
    rw [getElem?_pairParameters, if_pos (by omega)]
    simp [hlt]

/-- A name is added exactly when the override has more parameters. -/
theorem exists_added_iff :
    (∃ p ∈ a.pairParameters d, p.Added) ↔ a.parameters.length < d.parameters.length := by
  rw [← exists_lost_iff, pairParameters_swap a d]
  simp [ParameterPair.Added]

/-- The verdicts behind the one on too few parameters are given only where none is missing. -/
theorem arity_of_code (h : 4 ≤ (a.compare d).code) :
    a.parameters.length ≤ d.parameters.length := by
  generalize hv : a.compare d = v at h
  cases judged_of_compare hv with
  | reference | returnType | fewer | accepted => contradiction
  | position haligned | extra haligned => exact haligned.arity

end Method

/-! ## Reports -/

/-- The verdict of a report and its columns fit together. -/
structure Report.Consistent (r : Report) : Prop where
  fewer : r.kind = .fewerParameters → ∃ p ∈ r.parameterPairs, p.Lost
  /-- Codes from four on are those of the verdicts behind the one on too few parameters. -/
  behind_fewer : 4 ≤ r.kind.code → ∀ p ∈ r.parameterPairs, ¬ p.Lost
  extra : r.kind = .extraParameterNoDefault → ∃ p ∈ r.parameterPairs, p.Added

namespace Forest

/-- A report carries the verdict and the table of the same two methods. -/
theorem methods_of_mem_analyze {f : Forest} {r : Report} (h : r ∈ f.analyze) :
    ∃ o m : Method, r.kind = o.compare m ∧ r.parameterPairs = o.pairParameters m := by
  obtain ⟨root, -, htree⟩ := List.mem_flatMap.mp h
  obtain ⟨id, -, hnode⟩ := List.mem_flatMap.mp htree
  unfold checkNode at hnode
  split at hnode
  · cases hnode
  · obtain ⟨m, -, hcheck⟩ := List.mem_filterMap.mp hnode
    obtain ⟨-, a, o, -, -, rfl⟩ := check?_eq_some hcheck
    exact ⟨o, m, rfl, rfl⟩

theorem consistent_of_mem_analyze {f : Forest} {r : Report} (h : r ∈ f.analyze) :
    r.Consistent := by
  obtain ⟨o, m, hkind, hpairs⟩ := methods_of_mem_analyze h
  constructor <;> rw [hkind, hpairs]
  · intro hfewer
    exact Method.exists_lost_iff.mpr (Method.length_lt_of_fewer hfewer)
  · intro hcode p hp hlost
    have hlt := Method.exists_lost_iff.mp ⟨p, hp, hlost⟩
    have hle := Method.arity_of_code hcode
    omega
  · intro hextra
    exact Method.exists_added_iff.mpr (Method.length_lt_of_extra hextra)

/-- **The table matches the verdict.** The table of any two methods has their names in its columns
and ends with its only empty position. In every report on any forest the verdict and the table fit
together. -/
theorem analyze_tables :
    (∀ a d : Method, a.LaidOut d (a.pairParameters d)) ∧
      ∀ (f : Forest) (r : Report), r ∈ f.analyze → r.Consistent :=
  ⟨Method.laidOut_pairParameters, fun _ _ => consistent_of_mem_analyze⟩

/-- A class with the methods `f($x, $y)` and `g($x)`; below it `f($u)` and `g($u, $v)`. -/
def lostAndAdded : List ClassDecl :=
  [{ name := "A"
     methods := [{ name := "f", parameters := [{ name := "x" }, { name := "y" }] },
       { name := "g", parameters := [{ name := "x" }] }] },
   { name := "B", parentName := some "A"
     methods := [{ name := "f", parameters := [{ name := "u" }] },
       { name := "g", parameters := [{ name := "u" }, { name := "v" }] }] }]

theorem lostAndAdded_tables :
    ∃ r s, (build lostAndAdded).analyze = [r, s] ∧ r.Consistent ∧ s.Consistent ∧
      r.kind = .fewerParameters ∧
      r.parameterPairs = [⟨some "x", some "u"⟩, ⟨some "y", none⟩, ⟨none, none⟩] ∧
      s.kind = .extraParameterNoDefault ∧
      s.parameterPairs = [⟨some "x", some "u"⟩, ⟨none, some "v"⟩, ⟨none, none⟩] := by
  have htables := analyze_tables.2 (build lostAndAdded)
  refine ⟨_, _, rfl, htables _ (by decide), htables _ (by decide), ?_⟩
  decide

end Forest

end Lineage
