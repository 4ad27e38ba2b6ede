import Lineage.Proofs.Override.Classification

/-!
# Composing comparisons

Agreement looks at shape alone, and every method agrees with itself, but agreement is not
transitive. A pair of equal scalar types ends a comparison before the defaults are looked at, so a
default that an extra parameter needs may be dropped by the next override unseen: `f()`,
`f(int $x = 1)` and `f(int $x)` agree one with the next, but the last adds a parameter without
default to the first.

That is the only way in which it fails: `Method.LosesDefault` describes it, and `agreement_laws`
says what happens there and elsewhere. `Method.Tolerates` allows for it, and it composes with
agreement: `Method.Tolerates.trans`.

Whether a comparison goes on behind a position is decided by types that the two sides share. Hence
two comparisons with a method in common go on at the same positions (`Parameter.Passes.reach`), and
what is left to follow is the one parameter behind the end of the first list
(`Parameter.Passes.trans`).
-/
namespace Lineage

namespace Parameter

/-! ## Two comparisons with a list in common -/

theorem Clean.scalarTyped_eq {p q : Parameter} (h : p.Clean q) :
    p.scalarTyped = false ∧ q.scalarTyped = false := by
  obtain ⟨-, ht, hs, -⟩ := settle_eq_none_iff.mp (clean_iff.mp h)
  exact ⟨hs, scalarTyped_congr ht ▸ hs⟩

theorem Clean.trans {p q r : Parameter} (h₁ : p.Clean q) (h₂ : q.Clean r) : p.Clean r := by
  obtain ⟨hr₁, ht₁, hs₁, hd₁⟩ := settle_eq_none_iff.mp (clean_iff.mp h₁)
  obtain ⟨hr₂, ht₂, -, hd₂⟩ := settle_eq_none_iff.mp (clean_iff.mp h₂)
  rw [clean_iff, settle_eq_none_iff]
  exact ⟨hr₁.trans hr₂, ht₁.trans ht₂, hs₁, fun h => hd₂ (hd₁ h)⟩

theorem CleanBelow.trans {n : Nat} {ps qs rs : List Parameter} (h₁ : CleanBelow n ps qs)
    (h₂ : CleanBelow n qs rs) : CleanBelow n ps rs := by
  intro i hi
  obtain ⟨p, q, hp, hq, hpq⟩ := h₁ i hi
  obtain ⟨q', r, hq', hr, hqr⟩ := h₂ i hi
  rw [hq] at hq'
  cases hq'
  exact ⟨p, r, hp, hr, hpq.trans hqr⟩

theorem CleanBelow.scalarTyped_eq {n : Nat} {ps qs : List Parameter} (h : CleanBelow n ps qs)
    {i : Nat} (hi : i < n) :
    (∀ p, ps[i]? = some p → p.scalarTyped = false) ∧
      ∀ q, qs[i]? = some q → q.scalarTyped = false := by
  obtain ⟨p, q, hp, hq, hc⟩ := h i hi
  refine ⟨fun p' hp' => ?_, fun q' hq' => ?_⟩
  · rw [hp] at hp'
    cases hp'
    exact hc.scalarTyped_eq.1
  · rw [hq] at hq'
    cases hq'
    exact hc.scalarTyped_eq.2

/-- The comparison ends at a pair of equal scalar types, or it passes all of `ps` and finds there
nothing but what `P` allows. -/
inductive Passes (P : Parameter → Prop) (ps qs : List Parameter) : Prop where
  | scalar {k : Nat} {p q : Parameter} (before : CleanBelow k ps qs) (ours : ps[k]? = some p)
      (theirs : qs[k]? = some q) (settled : p.settle q = some .compatible)
  | clean (all : CleanBelow ps.length ps qs) (next : ∀ q, qs[ps.length]? = some q → P q)

/-- A position that only non-scalar types precede is reached, and does no harm. -/
theorem Passes.reach {P : Parameter → Prop} {qs rs : List Parameter} {k : Nat} {q : Parameter}
    (h : Passes P qs rs) (hk : ∀ i < k, ∀ q, qs[i]? = some q → q.scalarTyped = false)
    (hq : qs[k]? = some q) :
    CleanBelow k qs rs ∧
      ∃ r, rs[k]? = some r ∧ (q.Clean r ∨ q.settle r = some .compatible) := by
  cases h with
  | @scalar j q' r before ours theirs settled =>
    have hsc := (settle_eq_compatible_iff.mp settled).2.2
    rcases Nat.lt_trichotomy j k with hjk | rfl | hkj
    · rw [hk j hjk q' ours] at hsc
      cases hsc
    · rw [hq] at ours
      cases ours
      exact ⟨before, r, theirs, Or.inr settled⟩
    · obtain ⟨q'', r', hq'', hr', hc⟩ := before k hkj
      rw [hq] at hq''
      cases hq''
      exact ⟨before.mono (Nat.le_of_lt hkj), r', hr', Or.inl hc⟩
  | clean all next =>
    have hlt := (List.getElem?_eq_some_iff.mp hq).1
    obtain ⟨q', r, hq', hr, hc⟩ := all k hlt
    rw [hq] at hq'
    cases hq'
    exact ⟨all.mono (Nat.le_of_lt hlt), r, hr, Or.inl hc⟩

/-- A list without scalar types is passed to its end. -/
theorem Passes.reach_end {P : Parameter → Prop} {qs rs : List Parameter} (h : Passes P qs rs)
    (hs : ∀ i < qs.length, ∀ q, qs[i]? = some q → q.scalarTyped = false) :
    CleanBelow qs.length qs rs ∧ ∀ r, rs[qs.length]? = some r → P r := by
  cases h with
  | @scalar j q r before ours theirs settled =>
    have hsc := (settle_eq_compatible_iff.mp settled).2.2
    rw [hs j (List.getElem?_eq_some_iff.mp ours).1 q ours] at hsc
    cases hsc
  | clean all next => exact ⟨all, next⟩

/-- Both comparisons end at the same pair of scalars, or the first list has none. Then the middle
list may go on behind it with a `q`, to which an `r` corresponds in the last; otherwise the last
list goes on with an `r` that the middle one does not have. -/
theorem Passes.trans {P Q : Parameter → Prop} {ps qs rs : List Parameter} (hpq : Passes P ps qs)
    (hqr : Passes (·.hasDefault = true) qs rs) (hlen : ps.length ≤ qs.length)
    (hnew : ∀ r, r.hasDefault = true → Q r)
    (hkept : ∀ q r, qs[ps.length]? = some q → P q → q.Clean r ∨ q.settle r = some .compatible →
      Q r) :
    Passes Q ps rs := by
  cases hpq with
  | @scalar k p q before ours theirs settled =>
    obtain ⟨hr₁, ht₁, hs₁⟩ := settle_eq_compatible_iff.mp settled
    have hk : ∀ i < k, ∀ q, qs[i]? = some q → q.scalarTyped = false :=
      fun i hi => (before.scalarTyped_eq hi).2
    obtain ⟨hbefore, r, hr, hc | hcomp⟩ := hqr.reach hk theirs
    · have hs := hc.scalarTyped_eq.1
      rw [← scalarTyped_congr ht₁, hs₁] at hs
      cases hs
    · obtain ⟨hr₂, ht₂, -⟩ := settle_eq_compatible_iff.mp hcomp
      exact .scalar (before.trans hbefore) ours hr
        (settle_eq_compatible_iff.mpr ⟨hr₁.trans hr₂, ht₁.trans ht₂, hs₁⟩)
  | clean all next =>
    have hk : ∀ i < ps.length, ∀ q, qs[i]? = some q → q.scalarTyped = false :=
      fun i hi => (all.scalarTyped_eq hi).2
    cases hq : qs[ps.length]? with
    | some q =>
      obtain ⟨hbefore, r, hr, hqr'⟩ := hqr.reach hk hq
      refine .clean (all.trans hbefore) fun r' hr' => ?_
      rw [hr] at hr'
      cases hr'
      exact hkept q r hq (next q hq) hqr'
    | none =>
      have heq : ps.length = qs.length :=
        Nat.le_antisymm hlen (List.getElem?_eq_none_iff.mp hq)
      rw [heq] at hk
      obtain ⟨hall, hnext⟩ := hqr.reach_end hk
      rw [← heq] at hall hnext
      exact .clean (all.trans hall) fun r hr => hnew r (hnext r hr)

/-! ## Agreement of parameter lists -/

theorem compareLists_eq_compatible_iff {ps qs : List Parameter} (hlen : ps.length ≤ qs.length) :
    compareLists ps qs = .compatible ↔ Passes (·.hasDefault = true) ps qs := by
  constructor
  · intro h
    rcases cleanBelow_or_first hlen with hc | ⟨k, p, q, hk⟩
    · rw [hc.compareLists_eq] at h
      refine .clean hc fun q hq => ?_
      rw [hq] at h
      simpa using h
    · exact .scalar hk.before hk.ours hk.theirs (h ▸ hk.settle_eq)
  · intro h
    cases h with
    | scalar before ours theirs settled =>
      refine FirstUnclean.compareLists_eq ⟨before, ours, theirs, fun hc => ?_⟩ settled
      rw [clean_iff.mp hc] at settled
      cases settled
    | clean all next =>
      rw [all.compareLists_eq]
      cases hq : qs[ps.length]? with
      | none => rfl
      | some q => simp [next q hq]

/-- The lists agree, or the second goes on with a scalar parameter that has no default. -/
def Tolerated (ps qs : List Parameter) : Prop :=
  compareLists ps qs = .compatible ∨
    compareLists ps qs = .extraParameterNoDefault ∧
      ∃ q, qs[ps.length]? = some q ∧ q.scalarTyped = true ∧ q.hasDefault = false

theorem settle_ne_extra (p q : Parameter) : p.settle q ≠ some .extraParameterNoDefault := by
  rw [settle_eq]
  grind

theorem Passes.imp {P Q : Parameter → Prop} {ps qs : List Parameter} (h : Passes P ps qs)
    (hPQ : ∀ q, P q → Q q) : Passes Q ps qs := by
  cases h with
  | scalar before ours theirs settled => exact .scalar before ours theirs settled
  | clean all next => exact .clean all fun q hq => hPQ q (next q hq)

theorem tolerated_iff {ps qs : List Parameter} (hlen : ps.length ≤ qs.length) :
    Tolerated ps qs ↔ Passes (fun q => q.hasDefault = true ∨ q.scalarTyped = true) ps qs := by
  constructor
  · intro h
    rcases h with h | ⟨h, q, hq, hs, -⟩
    · exact ((compareLists_eq_compatible_iff hlen).mp h).imp fun q => Or.inl
    · rcases cleanBelow_or_first hlen with hc | ⟨k, p, q', hk⟩
      · refine .clean hc fun q' hq' => ?_
        rw [hq] at hq'
        cases hq'
        exact Or.inr hs
      · exact absurd (h ▸ hk.settle_eq) (settle_ne_extra p q')
  · intro h
    cases h with
    | scalar before ours theirs settled =>
      exact Or.inl ((compareLists_eq_compatible_iff hlen).mpr (.scalar before ours theirs settled))
    | clean all next =>
      unfold Tolerated
      rw [all.compareLists_eq]
      cases hq : qs[ps.length]? with
      | none => exact Or.inl rfl
      | some q =>
        cases hd : q.hasDefault with
        | true => exact Or.inl (by simp [hd])
        | false =>
          have hs : q.scalarTyped = true := by simpa [hd] using next q hq
          exact Or.inr ⟨by simp [hd], q, rfl, hs, hd⟩

/-- The middle list is at least as long as the first, the last as long as the middle one. Its
position `ps.length` is where a default may be lost. -/
theorem Tolerated.trans {ps qs rs : List Parameter} (hpq : Tolerated ps qs)
    (hqr : compareLists qs rs = .compatible) (hl₁ : ps.length ≤ qs.length)
    (hl₂ : qs.length ≤ rs.length) : Tolerated ps rs := by
  rw [tolerated_iff (Nat.le_trans hl₁ hl₂)]
  rw [tolerated_iff hl₁] at hpq
  rw [compareLists_eq_compatible_iff hl₂] at hqr
  refine hpq.trans hqr hl₁ (fun r => Or.inl) fun q r _ hq hqr => ?_
  rcases hqr with hc | hcomp
  · rw [hc.scalarTyped_eq.1] at hq
    exact Or.inl (hc.hasDefault (by simpa using hq))
  · obtain ⟨-, ht, hs⟩ := settle_eq_compatible_iff.mp hcomp
    exact Or.inr (scalarTyped_congr ht ▸ hs)

/-! ## Shape -/

/-- The parameter without its name. -/
def shape (p : Parameter) : Parameter := { p with name := "" }

theorem compareLists_shape (ps qs : List Parameter) :
    compareLists (ps.map shape) (qs.map shape) = compareLists ps qs := by
  induction ps generalizing qs with
  | nil => cases qs <;> rfl
  | cons p ps ih =>
    cases qs with
    | nil => rfl
    | cons q qs =>
      have hs : p.shape.settle q.shape = p.settle q := rfl
      rw [List.map_cons, List.map_cons, compareLists, compareLists, hs, ih]

theorem compareLists_self (ps : List Parameter) : compareLists ps ps = .compatible := by
  induction ps with
  | nil => rfl
  | cons p ps ih =>
    cases hs : p.scalarTyped with
    | true => exact compareLists_cons_some (settle_eq_compatible_iff.mpr ⟨rfl, rfl, hs⟩) ps ps
    | false =>
      have hp : p.settle p = none := settle_eq_none_iff.mpr ⟨rfl, rfl, hs, id⟩
      rw [compareLists_cons_none hp, ih]

end Parameter

/-! ## Methods -/

namespace Method

theorem Aligned.trans {o m n : Method} (h₁ : o.Aligned m) (h₂ : m.Aligned n) : o.Aligned n :=
  ⟨h₁.byReference.trans h₂.byReference, h₁.returnType.trans h₂.returnType,
    Nat.le_trans h₁.arity h₂.arity⟩

theorem aligned_of_compatible {o m : Method} (h : o.compare m = .compatible) : o.Aligned m := by
  cases judged_of_compare h with
  | position ha => exact ha
  | accepted ha => exact ha

/-- `m` is compatible with `o`, or adds to it a scalar parameter without default. -/
def Tolerates (o m : Method) : Prop :=
  o.Aligned m ∧ Parameter.Tolerated o.parameters m.parameters

theorem tolerates_of_compatible {o m : Method} (h : o.compare m = .compatible) : o.Tolerates m := by
  have ha := aligned_of_compatible h
  refine ⟨ha, Or.inl ?_⟩
  rw [← ha.compare_eq, h]

/-- A further compatible override of `m` is tolerated where `m` is. -/
theorem Tolerates.trans {o m n : Method} (h : o.Tolerates m) (hmn : m.compare n = .compatible) :
    o.Tolerates n := by
  have ha := aligned_of_compatible hmn
  rw [ha.compare_eq] at hmn
  exact ⟨h.1.trans ha, h.2.trans hmn h.1.arity ha.arity⟩

/-- What toleration says about the outcome of the comparison. -/
theorem Tolerates.compare {o m : Method} (h : o.Tolerates m) :
    o.compare m = .compatible ∨
      o.compare m = .extraParameterNoDefault ∧
        ∃ q, m.parameters[o.parameters.length]? = some q ∧ q.scalarTyped = true ∧
          q.hasDefault = false := by
  rw [h.1.compare_eq]
  exact h.2

/-! ## Laws of agreement -/

/-- The method without its names and its line: what a comparison looks at. -/
def shape (m : Method) : Method :=
  { m with name := "", line := none, parameters := m.parameters.map Parameter.shape }

theorem compare_shape (a d : Method) : a.shape.compare d.shape = a.compare d := by
  unfold compare shape
  simp only [List.length_map, Parameter.compareLists_shape]

theorem compare_congr {a a' d d' : Method} (ha : a.shape = a'.shape) (hd : d.shape = d'.shape) :
    a.compare d = a'.compare d' := by
  rw [← a.compare_shape, ha, hd, compare_shape]

theorem compare_self (m : Method) : m.compare m = .compatible := by
  have ha : m.Aligned m := ⟨rfl, rfl, Nat.le_refl _⟩
  rw [ha.compare_eq, Parameter.compareLists_self]

/-- `b` adds to `a`, which has no scalar parameter, a scalar one, and `c` gives it no default. -/
structure LosesDefault (a b c : Method) : Prop where
  noScalar : ∀ p ∈ a.parameters, p.scalarTyped = false
  added : ∃ q, b.parameters[a.parameters.length]? = some q ∧ q.scalarTyped = true
  bare : ∃ r, c.parameters[a.parameters.length]? = some r ∧ r.hasDefault = false

/-- Two agreements in a row give a third, or the default is lost. -/
theorem compare_trans {a b c : Method} (hab : a.compare b = .compatible)
    (hbc : b.compare c = .compatible) :
    a.compare c = .compatible ∧ ¬ a.LosesDefault b c ∨
      a.compare c = .extraParameterNoDefault ∧ a.LosesDefault b c := by
  have h₁ := aligned_of_compatible hab
  have h₂ := aligned_of_compatible hbc
  have h₃ := h₁.trans h₂
  rw [h₁.compare_eq, Parameter.compareLists_eq_compatible_iff h₁.arity] at hab
  rw [h₂.compare_eq, Parameter.compareLists_eq_compatible_iff h₂.arity] at hbc
  -- Behind the parameters of `a`, `c` has a default or `b` has a scalar.
  have hac : Parameter.Passes (fun r => r.hasDefault = true ∨
      ∃ q, b.parameters[a.parameters.length]? = some q ∧ q.scalarTyped = true)
      a.parameters c.parameters := by
    refine hab.trans hbc h₁.arity (fun r => Or.inl) fun q r hq hd hqr => ?_
    rcases hqr with hc | hcomp
    · exact Or.inl (hc.hasDefault hd)
    · exact Or.inr ⟨q, hq, (Parameter.settle_eq_compatible_iff.mp hcomp).2.2⟩
  rw [h₃.compare_eq]
  cases hac with
  | scalar before ours theirs settled =>
    refine Or.inl ⟨(Parameter.compareLists_eq_compatible_iff h₃.arity).mpr
      (.scalar before ours theirs settled), fun hl => ?_⟩
    have hs := (Parameter.settle_eq_compatible_iff.mp settled).2.2
    rw [hl.noScalar _ (List.mem_of_getElem? ours)] at hs
    cases hs
  | clean all next =>
    rw [all.compareLists_eq]
    cases hr : c.parameters[a.parameters.length]? with
    | none =>
      refine Or.inl ⟨rfl, fun hl => ?_⟩
      obtain ⟨r, hr', -⟩ := hl.bare
      rw [hr] at hr'
      cases hr'
    | some r =>
      cases hd : r.hasDefault with
      | true =>
        refine Or.inl ⟨by simp [hd], fun hl => ?_⟩
        obtain ⟨r', hr', hd'⟩ := hl.bare
        rw [hr] at hr'
        cases hr'
        rw [hd] at hd'
        cases hd'
      | false =>
        have hadded := next r hr
        rw [hd] at hadded
        refine Or.inr ⟨by simp [hd], ?_, by simpa using hadded, r, hr, hd⟩
        intro p hp
        obtain ⟨i, hi⟩ := List.mem_iff_getElem?.mp hp
        exact (all.scalarTyped_eq (List.getElem?_eq_some_iff.mp hi).1).1 p hi

/-- **Agreement as a relation.** It looks at shape only, holds between methods of one shape, and is
transitive unless a default is lost. -/
theorem agreement_laws :
    (∀ a a' d d' : Method, a.shape = a'.shape → d.shape = d'.shape →
      a.compare d = a'.compare d') ∧
    (∀ m m' : Method, m.shape = m'.shape → m.compare m' = .compatible) ∧
    ∀ a b c : Method, a.compare b = .compatible → b.compare c = .compatible →
      (¬ a.LosesDefault b c → a.compare c = .compatible) ∧
      (a.LosesDefault b c → a.compare c = .extraParameterNoDefault) := by
  refine ⟨fun a a' d d' => compare_congr, fun m m' h => ?_, fun a b c hab hbc => ?_⟩
  · rw [compare_congr rfl h.symm, compare_self]
  · rcases compare_trans hab hbc with ⟨hac, hl⟩ | ⟨hac, hl⟩
    · exact ⟨fun _ => hac, fun hl' => absurd hl' hl⟩
    · exact ⟨fun hl' => absurd hl hl', fun _ => hac⟩

/-- `f(int $x = 1)`, or `f(int $x)` without the default. -/
def widened (hasDefault : Bool) : Method :=
  { name := "f", parameters := [
      { name := "x", type := some (.scalar "int"), hasDefault := hasDefault }] }

/-- After `f()` and `f(int $x = 1)`, the method `f(int $x)` adds a parameter without default. -/
theorem widened_loses_default :
    let plain : Method := { name := "f" }
    plain.compare (widened true) = .compatible ∧
      (widened true).compare (widened false) = .compatible ∧
      plain.LosesDefault (widened true) (widened false) ∧
      plain.compare (widened false) = .extraParameterNoDefault := by
  intro plain
  have hab : plain.compare (widened true) = .compatible := by decide
  have hbc : (widened true).compare (widened false) = .compatible := by decide
  have hl : plain.LosesDefault (widened true) (widened false) :=
    ⟨by simp [plain], ⟨_, rfl, rfl⟩, ⟨_, rfl, rfl⟩⟩
  exact ⟨hab, hbc, hl, (agreement_laws.2.2 _ _ _ hab hbc).2 hl⟩

end Method

end Lineage
