import Lineage.Override.Verdict

/-!
# What a comparison comes to

The comparison walks two parameter lists and stops where something settles it. Here its outcome is
laid down without a walk, by rules about the two methods and about the first position that is not
clean.

**Positions.** A position is clean when both sides pass by reference alike, both types are absent or
the same class path, and no default is dropped (`Parameter.Clean`). The walk goes on exactly at
clean positions (`Parameter.clean_iff`), so it stops at the first other one
(`Parameter.FirstUnclean`), or behind the end of the overridden method's list.

**Rules.** `Parameter.Judged` has one rule for each thing that may be found at a position that is
not clean, `Method.Judged` one for each way in which a comparison ends. Some rule always applies
(`Method.exists_judged`), and the comparison gives its verdict (`Method.Judged.compare_eq`), so the
rules give one verdict and no other.

**Both directions.** `Method.swapped` is what two methods, each compared with the other, have in
common. Only the rule about defaults has a direction; it may end one of the two walks ahead of the
other (`Parameter.settle_swap`).
-/
namespace Lineage

/-! ## One position -/

namespace Parameter

/-- Has the parameter a scalar type? -/
def scalarTyped (p : Parameter) : Bool := p.type.any TypeRef.isScalar

theorem scalarTyped_iff {p : Parameter} :
    p.scalarTyped = true ↔ ∃ t, p.type = some t ∧ t.isScalar = true := by
  unfold scalarTyped
  cases p.type <;> simp

theorem scalarTyped_congr {p q : Parameter} (h : p.type = q.type) :
    p.scalarTyped = q.scalarTyped := by
  rw [scalarTyped, scalarTyped, h]

/-- The rules of one position, one after the other. -/
theorem settle_eq (p q : Parameter) :
    p.settle q =
      if p.byReference ≠ q.byReference then some .parameterReferenceMismatch
      else if p.type.isSome ≠ q.type.isSome then some .parameterNullabilityMismatch
      else if p.type ≠ q.type then some .parameterTypeMismatch
      else if p.scalarTyped then some .compatible
      else if p.hasDefault && !q.hasDefault then some .defaultValueDropped
      else none := by
  unfold settle scalarTyped
  by_cases hr : p.byReference = q.byReference
  · cases hp : p.type with
    | none => cases hq : q.type <;> simp [hr]
    | some s =>
      cases hq : q.type with
      | none => simp [hr]
      | some t =>
        by_cases hst : s = t
        · subst hst
          simp [hr]
        · cases s.isScalar <;> cases t.isScalar <;> simp [hr, hst]
  · simp [hr]

/-- The comparison goes on behind a position where all agrees and no type is scalar. -/
theorem settle_eq_none_iff {p q : Parameter} :
    p.settle q = none ↔
      p.byReference = q.byReference ∧ p.type = q.type ∧ p.scalarTyped = false ∧
        (p.hasDefault = true → q.hasDefault = true) := by
  rw [settle_eq]
  grind

/-- The comparison ends as compatible at a pair of equal scalar types. -/
theorem settle_eq_compatible_iff {p q : Parameter} :
    p.settle q = some .compatible ↔
      p.byReference = q.byReference ∧ p.type = q.type ∧ p.scalarTyped = true := by
  rw [settle_eq]
  grind

/-- Nothing to object to, and nothing that ends the comparison. -/
structure Clean (p q : Parameter) : Prop where
  byReference : p.byReference = q.byReference
  type : p.type = none ∧ q.type = none ∨
    ∃ segs, p.type = some (.qualified segs) ∧ q.type = some (.qualified segs)
  hasDefault : p.hasDefault = true → q.hasDefault = true

/-- A type is absent, a scalar or a class path. -/
theorem type_cases (p : Parameter) :
    p.type = none ∨ (∃ t, p.type = some (.scalar t)) ∨ ∃ segs, p.type = some (.qualified segs) := by
  rcases p.type with _ | ⟨t⟩ | ⟨segs⟩ <;> simp

theorem clean_iff {p q : Parameter} : p.Clean q ↔ p.settle q = none := by
  rw [settle_eq_none_iff]
  constructor
  · intro h
    obtain ⟨hr, ht, hd⟩ := h
    rcases ht with ⟨hp, hq⟩ | ⟨segs, hp, hq⟩
    · exact ⟨hr, hp.trans hq.symm, by simp [scalarTyped, hp], hd⟩
    · exact ⟨hr, hp.trans hq.symm, by simp [scalarTyped, hp, TypeRef.isScalar], hd⟩
  · intro h
    obtain ⟨hr, ht, hs, hd⟩ := h
    refine ⟨hr, ?_, hd⟩
    rcases p.type_cases with hp | ⟨t, hp⟩ | ⟨segs, hp⟩
    · exact Or.inl ⟨hp, ht ▸ hp⟩
    · simp [scalarTyped, hp, TypeRef.isScalar] at hs
    · exact Or.inr ⟨segs, hp, ht ▸ hp⟩

/-- What a position that is not clean comes to. -/
inductive Judged (p q : Parameter) : Verdict → Prop where
  | reference : p.byReference ≠ q.byReference → Judged p q .parameterReferenceMismatch
  | nullability : p.byReference = q.byReference → p.type.isSome ≠ q.type.isSome →
      Judged p q .parameterNullabilityMismatch
  | type {s t : TypeRef} : p.byReference = q.byReference → p.type = some s → q.type = some t →
      s ≠ t → Judged p q .parameterTypeMismatch
  | scalar {t : String} : p.byReference = q.byReference → p.type = some (.scalar t) →
      q.type = some (.scalar t) → Judged p q .compatible
  /-- Nothing but the default is left to make the position unclean. -/
  | dropped : p.byReference = q.byReference → p.type = q.type →
      (∀ t, p.type ≠ some (.scalar t)) → Judged p q .defaultValueDropped

/-- Some rule applies wherever one is asked for. -/
theorem exists_judged (p q : Parameter) : ∃ v, p.Judged q v := by
  by_cases hr : p.byReference = q.byReference
  · cases hp : p.type with
    | none =>
      cases hq : q.type with
      | none => exact ⟨_, .dropped hr (hp.trans hq.symm) (by simp [hp])⟩
      | some t => exact ⟨_, .nullability hr (by simp [hp, hq])⟩
    | some s =>
      cases hq : q.type with
      | none => exact ⟨_, .nullability hr (by simp [hp, hq])⟩
      | some t =>
        by_cases hst : s = t
        · subst hst
          cases s with
          | scalar t => exact ⟨_, .scalar hr hp hq⟩
          | qualified segs => exact ⟨_, .dropped hr (hp.trans hq.symm) (by simp [hp])⟩
        · exact ⟨_, .type hr hp hq hst⟩
  · exact ⟨_, .reference hr⟩

/-- The rule that applies where the position is not clean gives what is decided there. -/
theorem Judged.settle_eq {p q : Parameter} {v : Verdict} (h : p.Judged q v) (hc : ¬ p.Clean q) :
    p.settle q = some v := by
  cases h with
  | reference hr => simp [Parameter.settle_eq, hr]
  | nullability hr hs => simp [Parameter.settle_eq, hr, hs]
  | type hr hp hq hst => simp [Parameter.settle_eq, hr, hp, hq, hst]
  | scalar hr hp hq => exact settle_eq_compatible_iff.mpr ⟨hr, hp.trans hq.symm, by
      simp [scalarTyped, hp, TypeRef.isScalar]⟩
  | dropped hr ht hns =>
    have hsc : p.scalarTyped = false := by
      rcases p.type_cases with hp | ⟨t, hp⟩ | ⟨segs, hp⟩
      · simp [scalarTyped, hp]
      · exact absurd hp (hns t)
      · simp [scalarTyped, hp, TypeRef.isScalar]
    have hd : p.hasDefault = true ∧ q.hasDefault = false := by
      rw [clean_iff, settle_eq_none_iff] at hc
      simpa [hr, ht, hsc] using hc
    simp [Parameter.settle_eq, hr, ht, hsc, hd]

/-! ## The first position that is not clean -/

/-- The first `n` positions are there on both sides and clean. -/
def CleanBelow (n : Nat) (ps qs : List Parameter) : Prop :=
  ∀ i < n, ∃ p q, ps[i]? = some p ∧ qs[i]? = some q ∧ p.Clean q

/-- Position `k`, where `p` and `q` stand, is the first that is not clean. -/
structure FirstUnclean (ps qs : List Parameter) (k : Nat) (p q : Parameter) : Prop where
  before : CleanBelow k ps qs
  ours : ps[k]? = some p
  theirs : qs[k]? = some q
  unclean : ¬ p.Clean q

theorem CleanBelow.mono {m n : Nat} {ps qs : List Parameter} (h : CleanBelow n ps qs)
    (hmn : m ≤ n) : CleanBelow m ps qs :=
  fun i hi => h i (Nat.lt_of_lt_of_le hi hmn)

theorem CleanBelow.succ {n : Nat} {ps qs : List Parameter} {p q : Parameter}
    (h : CleanBelow n ps qs) (hp : ps[n]? = some p) (hq : qs[n]? = some q) (hc : p.Clean q) :
    CleanBelow (n + 1) ps qs := by
  intro i hi
  rcases Nat.lt_succ_iff_lt_or_eq.mp hi with hlt | rfl
  · exact h i hlt
  · exact ⟨p, q, hp, hq, hc⟩

/-- All of the first list is clean, or one of its positions is the first that is not. -/
theorem cleanBelow_or_first {ps qs : List Parameter} (hlen : ps.length ≤ qs.length) :
    CleanBelow ps.length ps qs ∨ ∃ k p q, FirstUnclean ps qs k p q := by
  suffices h : ∀ n ≤ ps.length, CleanBelow n ps qs ∨ ∃ k p q, FirstUnclean ps qs k p q from
    h ps.length (Nat.le_refl _)
  intro n
  induction n with
  | zero => exact fun _ => Or.inl fun i hi => absurd hi (Nat.not_lt_zero i)
  | succ n ih =>
    intro hn
    rcases ih (by omega) with h | h
    · have hp : ps[n]? = some ps[n] := List.getElem?_eq_getElem (by omega)
      have hq : qs[n]? = some qs[n] := List.getElem?_eq_getElem (by omega)
      by_cases hc : (ps[n]).Clean qs[n]
      · exact Or.inl (h.succ hp hq hc)
      · exact Or.inr ⟨n, _, _, h, hp, hq, hc⟩
    · exact Or.inr h

theorem compareLists_cons_none {p q : Parameter} (h : p.settle q = none) (ps qs : List Parameter) :
    compareLists (p :: ps) (q :: qs) = compareLists ps qs := by
  rw [compareLists, h]

theorem compareLists_cons_some {p q : Parameter} {v : Verdict} (h : p.settle q = some v)
    (ps qs : List Parameter) : compareLists (p :: ps) (q :: qs) = v := by
  rw [compareLists, h]

/-- Clean positions are passed over. -/
theorem compareLists_drop {n : Nat} {ps qs : List Parameter} (h : CleanBelow n ps qs) :
    compareLists ps qs = compareLists (ps.drop n) (qs.drop n) := by
  induction n with
  | zero => rfl
  | succ n ih =>
    obtain ⟨p, q, hp, hq, hc⟩ := h n (Nat.lt_succ_self n)
    obtain ⟨hn, rfl⟩ := List.getElem?_eq_some_iff.mp hp
    obtain ⟨hn', rfl⟩ := List.getElem?_eq_some_iff.mp hq
    rw [ih (h.mono (Nat.le_succ n)), List.drop_eq_getElem_cons hn, List.drop_eq_getElem_cons hn',
      compareLists_cons_none (clean_iff.mp hc)]

/-- The first position that is not clean decides alone. -/
theorem FirstUnclean.compareLists_eq {ps qs : List Parameter} {k : Nat} {p q : Parameter}
    {v : Verdict} (h : FirstUnclean ps qs k p q) (hv : p.settle q = some v) :
    compareLists ps qs = v := by
  obtain ⟨hk, rfl⟩ := List.getElem?_eq_some_iff.mp h.ours
  obtain ⟨hk', rfl⟩ := List.getElem?_eq_some_iff.mp h.theirs
  rw [compareLists_drop h.before, List.drop_eq_getElem_cons hk, List.drop_eq_getElem_cons hk',
    compareLists_cons_some hv]

theorem FirstUnclean.settle_eq {ps qs : List Parameter} {k : Nat} {p q : Parameter}
    (h : FirstUnclean ps qs k p q) : p.settle q = some (compareLists ps qs) := by
  cases hs : p.settle q with
  | none => exact absurd (clean_iff.mpr hs) h.unclean
  | some v => rw [h.compareLists_eq hs]

/-- Where no position is unclean, the next parameter of the second list decides. -/
theorem CleanBelow.compareLists_eq {ps qs : List Parameter} (h : CleanBelow ps.length ps qs) :
    compareLists ps qs =
      match qs[ps.length]? with
      | none => .compatible
      | some q => if q.hasDefault then .compatible else .extraParameterNoDefault := by
  rw [compareLists_drop h, List.drop_length]
  cases hq : qs[ps.length]? with
  | none =>
    rw [List.drop_eq_nil_of_le (List.getElem?_eq_none_iff.mp hq)]
    rfl
  | some q =>
    obtain ⟨hlt, rfl⟩ := List.getElem?_eq_some_iff.mp hq
    rw [List.drop_eq_getElem_cons hlt]
    rfl

end Parameter

/-! ## Methods -/

namespace Method

open Parameter (CleanBelow FirstUnclean)

/-- What two methods share once their parameters are compared at all. -/
structure Aligned (o m : Method) : Prop where
  byReference : o.byReference = m.byReference
  returnType : o.returnType = m.returnType
  arity : o.parameters.length ≤ m.parameters.length

theorem Aligned.compare_eq {o m : Method} (h : o.Aligned m) :
    o.compare m = Parameter.compareLists o.parameters m.parameters := by
  have hlen : ¬ m.parameters.length < o.parameters.length := Nat.not_lt.mpr h.arity
  unfold compare
  simp [h.byReference, h.returnType, hlen]

/-- What the comparison of `d` with the method `a` that it overrides comes to. -/
inductive Judged (a d : Method) : Verdict → Prop where
  | reference : a.byReference ≠ d.byReference → Judged a d .referenceMismatch
  | returnType : a.byReference = d.byReference → a.returnType ≠ d.returnType →
      Judged a d .returnTypeMismatch
  | fewer : a.byReference = d.byReference → a.returnType = d.returnType →
      d.parameters.length < a.parameters.length → Judged a d .fewerParameters
  | position {k : Nat} {p q : Parameter} {v : Verdict} : a.Aligned d →
      FirstUnclean a.parameters d.parameters k p q → p.Judged q v → Judged a d v
  | accepted : a.Aligned d → CleanBelow a.parameters.length a.parameters d.parameters →
      (d.parameters.length = a.parameters.length ∨
        ∃ q, d.parameters[a.parameters.length]? = some q ∧ q.hasDefault = true) →
      Judged a d .compatible
  | extra {q : Parameter} : a.Aligned d →
      CleanBelow a.parameters.length a.parameters d.parameters →
      d.parameters[a.parameters.length]? = some q → q.hasDefault = false →
      Judged a d .extraParameterNoDefault

theorem exists_judged (a d : Method) : ∃ v, a.Judged d v := by
  by_cases hr : a.byReference = d.byReference
  · by_cases ht : a.returnType = d.returnType
    · by_cases hl : d.parameters.length < a.parameters.length
      · exact ⟨_, .fewer hr ht hl⟩
      · have ha : a.Aligned d := ⟨hr, ht, Nat.not_lt.mp hl⟩
        rcases Parameter.cleanBelow_or_first ha.arity with hc | ⟨k, p, q, hk⟩
        · cases hq : d.parameters[a.parameters.length]? with
          | none =>
            have hle := List.getElem?_eq_none_iff.mp hq
            exact ⟨_, .accepted ha hc (Or.inl (Nat.le_antisymm hle ha.arity))⟩
          | some q =>
            cases hd : q.hasDefault with
            | true => exact ⟨_, .accepted ha hc (Or.inr ⟨q, hq, hd⟩)⟩
            | false => exact ⟨_, .extra ha hc hq hd⟩
        · obtain ⟨v, hv⟩ := p.exists_judged q
          exact ⟨v, .position ha hk hv⟩
    · exact ⟨_, .returnType hr ht⟩
  · exact ⟨_, .reference hr⟩

theorem Judged.compare_eq {a d : Method} {v : Verdict} (h : a.Judged d v) : a.compare d = v := by
  cases h with
  | reference hr => simp [compare, hr]
  | returnType hr ht => simp [compare, hr, ht]
  | fewer hr ht hl => simp [compare, hr, ht, hl]
  | position ha hk hv => rw [ha.compare_eq, hk.compareLists_eq (hv.settle_eq hk.unclean)]
  | accepted ha hc hq =>
    rw [ha.compare_eq, hc.compareLists_eq]
    rcases hq with hlen | ⟨q, hq, hd⟩
    · rw [List.getElem?_eq_none (Nat.le_of_eq hlen)]
    · simp [hq, hd]
  | extra ha hc hq hd => simp [ha.compare_eq, hc.compareLists_eq, hq, hd]

theorem judged_of_compare {a d : Method} {v : Verdict} (h : a.compare d = v) : a.Judged d v := by
  obtain ⟨w, hw⟩ := a.exists_judged d
  rwa [← h, hw.compare_eq]

/-- **The exact verdict.** The comparison comes to `v` exactly when the rules do. -/
theorem compare_eq_iff_judged (a d : Method) (v : Verdict) : a.compare d = v ↔ a.Judged d v :=
  ⟨judged_of_compare, Judged.compare_eq⟩

/-- Between `f(int $x, $y = 1)` and `f(int $x, $y)` the first position decides alone: the default
that is dropped at the second goes unseen. -/
example :
    compare
      { name := "f", parameters := [{ name := "x", type := some (.scalar "int") },
          { name := "y", hasDefault := true }] }
      { name := "f", parameters := [{ name := "x", type := some (.scalar "int") },
          { name := "y" }] } = .compatible := by
  decide

end Method

/-! ## Both directions -/

namespace Parameter

/-- The rules of one position are the same in both directions, but for dropped defaults. -/
theorem settle_swap (p q : Parameter) :
    p.settle q = q.settle p ∨ p.settle q = some .defaultValueDropped ∨
      q.settle p = some .defaultValueDropped := by
  rw [settle_eq p q, settle_eq q p]
  by_cases ht : p.type = q.type
  · rw [scalarTyped_congr ht]
    grind
  · grind

/-- Until a default is dropped in one of the directions, both go on together. -/
theorem compareLists_swap {ps qs : List Parameter} (hlen : ps.length = qs.length) :
    compareLists ps qs = compareLists qs ps ∨ compareLists ps qs = .defaultValueDropped ∨
      compareLists qs ps = .defaultValueDropped := by
  induction ps generalizing qs with
  | nil =>
    cases qs with
    | nil => exact Or.inl rfl
    | cons q qs => simp at hlen
  | cons p ps ih =>
    cases qs with
    | nil => simp at hlen
    | cons q qs =>
      rcases p.settle_swap q with heq | hpq | hqp
      · cases hs : q.settle p with
        | none =>
          rw [hs] at heq
          rw [compareLists_cons_none hs, compareLists_cons_none heq]
          exact ih (by simpa using hlen)
        | some v =>
          rw [hs] at heq
          rw [compareLists_cons_some hs, compareLists_cons_some heq]
          exact Or.inl rfl
      · exact Or.inr (Or.inl (compareLists_cons_some hpq ps qs))
      · exact Or.inr (Or.inr (compareLists_cons_some hqp qs ps))

end Parameter

namespace Method

theorem compare_eq_referenceMismatch_iff {a d : Method} :
    a.compare d = .referenceMismatch ↔ a.byReference ≠ d.byReference := by
  refine ⟨fun h => ?_, fun h => (Judged.reference h).compare_eq⟩
  cases judged_of_compare h with
  | reference hr => exact hr
  | position _ _ hv => cases hv

theorem compare_eq_returnTypeMismatch_iff {a d : Method} :
    a.compare d = .returnTypeMismatch ↔
      a.byReference = d.byReference ∧ a.returnType ≠ d.returnType := by
  refine ⟨fun h => ?_, fun h => (Judged.returnType h.1 h.2).compare_eq⟩
  cases judged_of_compare h with
  | returnType hr ht => exact ⟨hr, ht⟩
  | position _ _ hv => cases hv

theorem length_lt_of_fewer {a d : Method} (h : a.compare d = .fewerParameters) :
    d.parameters.length < a.parameters.length := by
  cases judged_of_compare h with
  | fewer _ _ hl => exact hl
  | position _ _ hv => cases hv

theorem length_lt_of_extra {a d : Method} (h : a.compare d = .extraParameterNoDefault) :
    a.parameters.length < d.parameters.length := by
  cases judged_of_compare h with
  | extra _ _ hq => exact (List.getElem?_eq_some_iff.mp hq).1
  | position _ _ hv => cases hv

/-- How the comparison of `d` with `a` and that of `a` with `d` stand to each other. -/
structure Swapped (a d : Method) : Prop where
  reference : a.compare d = .referenceMismatch ↔ d.compare a = .referenceMismatch
  returnType : a.compare d = .returnTypeMismatch ↔ d.compare a = .returnTypeMismatch
  /-- Of two methods that differ in their number of parameters, only the shorter has too few. -/
  unequal : a.compare d ≠ .referenceMismatch → a.compare d ≠ .returnTypeMismatch →
    a.parameters.length ≠ d.parameters.length →
      (d.parameters.length < a.parameters.length ∧
        a.compare d = .fewerParameters ∧ d.compare a ≠ .fewerParameters) ∨
      (a.parameters.length < d.parameters.length ∧
        a.compare d ≠ .fewerParameters ∧ d.compare a = .fewerParameters)
  /-- With as many parameters on either side, no direction finds too few or too many. -/
  equal : a.compare d ≠ .referenceMismatch → a.compare d ≠ .returnTypeMismatch →
    a.parameters.length = d.parameters.length →
      (a.compare d ≠ .fewerParameters ∧ a.compare d ≠ .extraParameterNoDefault) ∧
      (d.compare a ≠ .fewerParameters ∧ d.compare a ≠ .extraParameterNoDefault) ∧
      (a.compare d = d.compare a ∨ a.compare d = .defaultValueDropped ∨
        d.compare a = .defaultValueDropped)

/-- Two methods that differ in neither of the first two rules share what these look at. -/
theorem shared_of_ne {a d : Method} (hr : a.compare d ≠ .referenceMismatch)
    (ht : a.compare d ≠ .returnTypeMismatch) :
    a.byReference = d.byReference ∧ a.returnType = d.returnType := by
  have hb : a.byReference = d.byReference := by
    simpa [compare_eq_referenceMismatch_iff] using hr
  refine ⟨hb, ?_⟩
  simpa [compare_eq_returnTypeMismatch_iff, hb] using ht

/-- With as many parameters on either side, none is missing and none is extra. -/
theorem compare_ne_of_length_eq {a d : Method}
    (hlen : a.parameters.length = d.parameters.length) :
    a.compare d ≠ .fewerParameters ∧ a.compare d ≠ .extraParameterNoDefault := by
  refine ⟨fun h => ?_, fun h => ?_⟩
  · have := length_lt_of_fewer h
    omega
  · have := length_lt_of_extra h
    omega

/-- **Swapping the sides.** -/
theorem swapped (a d : Method) : a.Swapped d := by
  refine ⟨?_, ?_, fun hr ht hne => ?_, fun hr ht hlen => ?_⟩
  · rw [compare_eq_referenceMismatch_iff, compare_eq_referenceMismatch_iff, ne_comm]
  · rw [compare_eq_returnTypeMismatch_iff, compare_eq_returnTypeMismatch_iff, ne_comm,
      eq_comm (a := a.byReference)]
  · obtain ⟨hb, hret⟩ := shared_of_ne hr ht
    rcases Nat.lt_or_gt_of_ne hne with hlt | hlt
    · refine Or.inr ⟨hlt, fun h => ?_, (Judged.fewer hb.symm hret.symm hlt).compare_eq⟩
      have := length_lt_of_fewer h
      omega
    · refine Or.inl ⟨hlt, (Judged.fewer hb hret hlt).compare_eq, fun h => ?_⟩
      have := length_lt_of_fewer h
      omega
  · obtain ⟨hb, hret⟩ := shared_of_ne hr ht
    refine ⟨compare_ne_of_length_eq hlen, compare_ne_of_length_eq hlen.symm, ?_⟩
    have had : a.Aligned d := ⟨hb, hret, Nat.le_of_eq hlen⟩
    have hda : d.Aligned a := ⟨hb.symm, hret.symm, Nat.le_of_eq hlen.symm⟩
    rw [had.compare_eq, hda.compare_eq]
    exact Parameter.compareLists_swap hlen

/-- Against `f($x = 1, A $y)`, the method `f($x, B $y)` drops a default; the other way round, the
types are looked at. -/
example :
    let a : Method := { name := "f", parameters := [{ name := "x", hasDefault := true },
      { name := "y", type := some (.qualified ["A"]) }] }
    let d : Method := { name := "f", parameters := [{ name := "x" },
      { name := "y", type := some (.qualified ["B"]) }] }
    a.compare d = .defaultValueDropped ∧ d.compare a = .parameterTypeMismatch := by
  decide

end Method

end Lineage
