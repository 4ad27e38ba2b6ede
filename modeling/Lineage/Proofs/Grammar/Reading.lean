import Mathlib.Data.List.Basic
import Lineage.Grammar.Chart

/-!
# What a form reads

A grammar is used as automata: a form becomes a fragment, whose steps are numbered and joined by the
pairs that can follow each other. Here the meaning of a form is laid down without automata, and a run
through a fragment is shown to be a reading of its form.

**Readings (`Reads`).** One rule for each way in which a form can be met. A token is read as what was
shifted for it, a part as what the rule of the part makes of a reading of its form.

**Runs (`Fragment.Upto`).** `Upto x n s ps`: a run through the steps of `x`, numbered from `n` on,
that ends at step `s` and has read `ps`. A run that can end there, or nothing where the form may be
empty, is accepted (`Fragment.Accepts`).

**Result (`reads_of_accepts`).** What the fragment of a form accepts is a reading of the form. The
steps of the parts of a form have numbers of their own (`Fragment.Within`), so a run through a
sequence crosses from one part to the next once and for all.
-/
namespace Lineage.Grammar
variable {τ π κ ρ α : Type}

namespace Assembly

/-- The pieces in a role, if there is one. -/
def inRole (a : Assembly κ ρ α) (role : Option ρ) (pieces : List α) : List α :=
  match role with
  | some r => pieces.map (a.withRole r)
  | none => pieces

/-- What a part gives to the part around it: one node if it has a kind, else its pieces. -/
def whole (a : Assembly κ ρ α) (kind : Option κ) (pieces : List α) : List α :=
  match kind with
  | some k => [a.node k pieces]
  | none => pieces

end Assembly

/-- `pieces` are a reading of the form in the role `role`, by the rules `rules`, if tokens are read
as `shifted` says. -/
inductive Reads (rules : List (Production τ π κ ρ)) (a : Assembly κ ρ α)
    (shifted : τ → List α → Prop) : Option ρ → Form τ π ρ → List α → Prop where
  | token {role t ps} : shifted t ps → Reads rules a shifted role (.token t) (a.inRole role ps)
  | part {role r ps} : r ∈ rules → Reads rules a shifted none r.form ps →
      Reads rules a shifted role (.part r.part) (a.inRole role (a.whole r.kind ps))
  | inRole {role r f ps} : Reads rules a shifted (some r) f ps →
      Reads rules a shifted role (.inRole r f) ps
  | nil {role} : Reads rules a shifted role (.seq []) []
  | cons {role f fs ps qs} : Reads rules a shifted role f ps →
      Reads rules a shifted role (.seq fs) qs →
      Reads rules a shifted role (.seq (f :: fs)) (ps ++ qs)
  | choice {role f fs ps} : f ∈ fs → Reads rules a shifted role f ps →
      Reads rules a shifted role (.choice fs) ps
  | skip {role f} : Reads rules a shifted role (.optional f) []
  | take {role f ps} : Reads rules a shifted role f ps → Reads rules a shifted role (.optional f) ps
  | none {role f} : Reads rules a shifted role (.many f) []
  | more {role f ps qs} : Reads rules a shifted role (.many f) ps →
      Reads rules a shifted role f qs → Reads rules a shifted role (.many f) (ps ++ qs)

/-- A step as a form: the token or the part that it reads. -/
def Step.form (st : Step τ π ρ) : Form τ π ρ :=
  match st.reads with
  | .inl t => .token t
  | .inr p => .part p

/-! ## Runs -/

namespace Fragment
variable {reads : Step τ π ρ → List α → Prop} {x y : Fragment τ π ρ} {n s : Nat} {ps : List α}

/-- A run through the steps of `x` up to step `s`, if steps are read as `reads` says. -/
inductive Upto (reads : Step τ π ρ → List α → Prop) (x : Fragment τ π ρ) (n : Nat) :
    Nat → List α → Prop where
  | first {i st ps} : n + i ∈ x.first → x.steps[i]? = some st → reads st ps →
      Upto reads x n (n + i) ps
  | next {s i st ps qs} : Upto reads x n s ps → (s, n + i) ∈ x.follow → x.steps[i]? = some st →
      reads st qs → Upto reads x n (n + i) (ps ++ qs)

/-- What can be read from end to end. -/
def Accepts (reads : Step τ π ρ → List α → Prop) (x : Fragment τ π ρ) (n : Nat) (ps : List α) :
    Prop :=
  (x.nullable = true ∧ ps = []) ∨ ∃ s ∈ x.last, x.Upto reads n s ps

/-- The numbers in `x` are those of its steps, counted from `n` on. -/
structure Within (x : Fragment τ π ρ) (n : Nat) : Prop where
  first : ∀ s ∈ x.first, n ≤ s ∧ s < n + x.steps.length
  last : ∀ s ∈ x.last, n ≤ s ∧ s < n + x.steps.length
  follow : ∀ s t, (s, t) ∈ x.follow →
    (n ≤ s ∧ s < n + x.steps.length) ∧ n ≤ t ∧ t < n + x.steps.length

theorem Upto.bounds (h : x.Upto reads n s ps) : n ≤ s ∧ s < n + x.steps.length := by
  cases h with
  | first _ hst _ | next _ _ hst _ =>
    obtain ⟨hi, -⟩ := List.getElem?_eq_some_iff.mp hst
    omega

theorem mem_pairs {xs ys : List Nat} {s t : Nat} : (s, t) ∈ pairs xs ys ↔ s ∈ xs ∧ t ∈ ys := by
  simp [pairs]

/-- Of two fragments' steps, those with the numbers of the first one are its own. -/
theorem step_left {xs ys : List (Step τ π ρ)} {i : Nat} {st : Step τ π ρ}
    (h : (xs ++ ys)[i]? = some st) (hi : n + i < n + xs.length) : xs[i]? = some st := by
  rwa [List.getElem?_append_left (by omega)] at h

theorem step_right {xs ys : List (Step τ π ρ)} {i : Nat} {st : Step τ π ρ}
    (h : (xs ++ ys)[i]? = some st) (hi : n + xs.length ≤ n + i) :
    ∃ j, n + i = n + xs.length + j ∧ ys[j]? = some st := by
  rw [List.getElem?_append_right (by omega)] at h
  exact ⟨i - xs.length, by omega, h⟩

/-! ### One after the other -/

theorem Within.append (hx : x.Within n) (hy : y.Within (n + x.steps.length)) :
    (x.append y).Within n := by
  refine ⟨?_, ?_, ?_⟩ <;> simp only [Fragment.append, List.length_append]
  · intro s hs
    rcases List.mem_append.mp hs with hs | hs
    · have := hx.first s hs
      omega
    · split at hs
      · have := hy.first s hs
        omega
      · cases hs
  · intro s hs
    rcases List.mem_append.mp hs with hs | hs
    · split at hs
      · have := hx.last s hs
        omega
      · cases hs
    · have := hy.last s hs
      omega
  · intro s t hst
    rw [List.mem_append, List.mem_append, mem_pairs] at hst
    rcases hst with (hst | hst) | ⟨hs, ht⟩
    · have := hx.follow s t hst
      omega
    · have := hy.follow s t hst
      omega
    · have := hx.last s hs
      have := hy.first t ht
      omega

/-- A run through two fragments is still in the first, or has been through it. -/
theorem Upto.of_append (hx : x.Within n) (hy : y.Within (n + x.steps.length))
    (h : (x.append y).Upto reads n s ps) :
    x.Upto reads n s ps ∨ ∃ qs rs, ps = qs ++ rs ∧ x.Accepts reads n qs ∧
      y.Upto reads (n + x.steps.length) s rs := by
  induction h with
  | @first i st ps hfirst hst hreads =>
    rcases List.mem_append.mp hfirst with hi | hi
    · exact Or.inl (.first hi (step_left hst (hx.first _ hi).2) hreads)
    · split at hi
      · rename_i hnull
        obtain ⟨j, hj, hst⟩ := step_right hst (hy.first _ hi).1
        rw [hj] at hi ⊢
        exact Or.inr ⟨[], ps, rfl, Or.inl ⟨hnull, rfl⟩, .first hi hst hreads⟩
      · cases hi
  | @next s i st ps qs _ hfollow hst hreads ih =>
    rw [Fragment.append, List.mem_append, List.mem_append, mem_pairs] at hfollow
    rcases ih with hrun | ⟨as, bs, rfl, hacc, hrun⟩
    · have hs := hrun.bounds
      rcases hfollow with (hf | hf) | ⟨hlast, hf⟩
      · exact Or.inl (.next hrun hf (step_left hst (hx.follow _ _ hf).2.2) hreads)
      · have := hy.follow _ _ hf
        omega
      · -- Here the run crosses over.
        obtain ⟨j, hj, hst⟩ := step_right hst (hy.first _ hf).1
        rw [hj] at hf ⊢
        exact Or.inr ⟨ps, qs, rfl, Or.inr ⟨s, hlast, hrun⟩, .first hf hst hreads⟩
    · have hs := hrun.bounds
      rcases hfollow with (hf | hf) | ⟨hlast, hf⟩
      · have := hx.follow _ _ hf
        omega
      · obtain ⟨j, hj, hst⟩ := step_right hst (hy.follow _ _ hf).2.1
        rw [hj] at hf ⊢
        exact Or.inr ⟨as, bs ++ qs, by simp, hacc, .next hrun hf hst hreads⟩
      · have := hx.last _ hlast
        omega

theorem Accepts.of_append (hx : x.Within n) (hy : y.Within (n + x.steps.length))
    (h : (x.append y).Accepts reads n ps) :
    ∃ qs rs, ps = qs ++ rs ∧ x.Accepts reads n qs ∧ y.Accepts reads (n + x.steps.length) rs := by
  rcases h with ⟨hnull, rfl⟩ | ⟨s, hlast, hrun⟩
  · obtain ⟨hx, hy⟩ := Bool.and_eq_true_iff.mp hnull
    exact ⟨[], [], rfl, Or.inl ⟨hx, rfl⟩, Or.inl ⟨hy, rfl⟩⟩
  · rcases List.mem_append.mp hlast with hs | hs
    · split at hs
      · rename_i hnull
        have hlt := hx.last _ hs
        rcases hrun.of_append hx hy with hrun | ⟨qs, rs, -, -, hrun⟩
        · exact ⟨ps, [], by simp, Or.inr ⟨s, hs, hrun⟩, Or.inl ⟨hnull, rfl⟩⟩
        · have := hrun.bounds
          omega
      · cases hs
    · have hge := hy.last _ hs
      rcases hrun.of_append hx hy with hrun | ⟨qs, rs, rfl, hacc, hrun⟩
      · have := hrun.bounds
        omega
      · exact ⟨qs, rs, rfl, hacc, Or.inr ⟨s, hs, hrun⟩⟩

/-! ### One or the other -/

theorem Within.union (hx : x.Within n) (hy : y.Within (n + x.steps.length)) :
    (x.union y).Within n := by
  refine ⟨?_, ?_, ?_⟩ <;> simp only [Fragment.union, List.length_append, List.mem_append]
  · rintro s (hs | hs)
    · have := hx.first s hs
      omega
    · have := hy.first s hs
      omega
  · rintro s (hs | hs)
    · have := hx.last s hs
      omega
    · have := hy.last s hs
      omega
  · rintro s t (hst | hst)
    · have := hx.follow s t hst
      omega
    · have := hy.follow s t hst
      omega

/-- A run stays in the fragment in which it started. -/
theorem Upto.of_union (hx : x.Within n) (hy : y.Within (n + x.steps.length))
    (h : (x.union y).Upto reads n s ps) :
    x.Upto reads n s ps ∨ y.Upto reads (n + x.steps.length) s ps := by
  induction h with
  | first hfirst hst hreads =>
    rcases List.mem_append.mp hfirst with hi | hi
    · exact Or.inl (.first hi (step_left hst (hx.first _ hi).2) hreads)
    · obtain ⟨j, hj, hst⟩ := step_right hst (hy.first _ hi).1
      rw [hj] at hi ⊢
      exact Or.inr (.first hi hst hreads)
  | next _ hfollow hst hreads ih =>
    rcases List.mem_append.mp hfollow with hf | hf
    · have hlt := hx.follow _ _ hf
      rcases ih with hrun | hrun
      · exact Or.inl (.next hrun hf (step_left hst hlt.2.2) hreads)
      · have := hrun.bounds
        omega
    · have hge := hy.follow _ _ hf
      rcases ih with hrun | hrun
      · have := hrun.bounds
        omega
      · obtain ⟨j, hj, hst⟩ := step_right hst hge.2.1
        rw [hj] at hf ⊢
        exact Or.inr (.next hrun hf hst hreads)

theorem Accepts.of_union (hx : x.Within n) (hy : y.Within (n + x.steps.length))
    (h : (x.union y).Accepts reads n ps) :
    x.Accepts reads n ps ∨ y.Accepts reads (n + x.steps.length) ps := by
  rcases h with ⟨hnull, rfl⟩ | ⟨s, hlast, hrun⟩
  · rcases Bool.or_eq_true_iff.mp hnull with hnull | hnull
    · exact Or.inl (Or.inl ⟨hnull, rfl⟩)
    · exact Or.inr (Or.inl ⟨hnull, rfl⟩)
  · rcases List.mem_append.mp hlast with hs | hs
    · have := hx.last _ hs
      rcases hrun.of_union hx hy with hrun | hrun
      · exact Or.inl (Or.inr ⟨s, hs, hrun⟩)
      · have := hrun.bounds
        omega
    · have := hy.last _ hs
      rcases hrun.of_union hx hy with hrun | hrun
      · have := hrun.bounds
        omega
      · exact Or.inr (Or.inr ⟨s, hs, hrun⟩)

/-! ### Again and again -/

/-- A run through a fragment that may be read again is a run through the fragment itself, behind
rounds that went from end to end. -/
theorem Upto.of_repeated {P : List α → Prop} (hnil : P [])
    (hmore : ∀ {qs rs}, P qs → x.Accepts reads n rs → P (qs ++ rs))
    (h : Upto reads { x with nullable := true, follow := x.follow ++ pairs x.last x.first }
      n s ps) :
    ∃ qs rs, ps = qs ++ rs ∧ P qs ∧ x.Upto reads n s rs := by
  induction h with
  | first hfirst hst hreads => exact ⟨[], _, rfl, hnil, .first hfirst hst hreads⟩
  | @next s i st ps qs _ hfollow hst hreads ih =>
    obtain ⟨as, bs, rfl, has, hrun⟩ := ih
    rcases List.mem_append.mp hfollow with hf | hf
    · exact ⟨as, bs ++ qs, by simp, has, .next hrun hf hst hreads⟩
    · obtain ⟨hlast, hf⟩ := mem_pairs.mp hf
      exact ⟨as ++ bs, qs, rfl, hmore has (Or.inr ⟨s, hlast, hrun⟩), .first hf hst hreads⟩

end Fragment

/-! ## The fragments of forms -/

section Forms
variable {rules : List (Production τ π κ ρ)} {a : Assembly κ ρ α} {shifted : τ → List α → Prop}

theorem Fragment.within_single {st : Step τ π ρ} {n : Nat} :
    Fragment.Within ⟨[st], false, [n], [n], []⟩ n := by
  refine ⟨?_, ?_, ?_⟩ <;> simp

mutual

theorem Form.within_fragment (n : Nat) (role : Option ρ) :
    (f : Form τ π ρ) → (f.fragment n role).Within n
  | .token t => by rw [Form.fragment]; exact Fragment.within_single
  | .part p => by rw [Form.fragment]; exact Fragment.within_single
  | .inRole r f => by rw [Form.fragment]; exact within_fragment n (some r) f
  | .seq fs => by rw [Form.fragment]; exact within_sequence n role fs
  | .choice fs => by rw [Form.fragment]; exact within_alternatives n role fs
  | .optional f => by
    rw [Form.fragment]
    have h := within_fragment n role f
    exact ⟨h.first, h.last, h.follow⟩
  | .many f => by
    rw [Form.fragment]
    have h := within_fragment n role f
    refine ⟨h.first, h.last, fun s t hst => ?_⟩
    rcases List.mem_append.mp hst with hst | hst
    · exact h.follow s t hst
    · obtain ⟨hs, ht⟩ := Fragment.mem_pairs.mp hst
      exact ⟨h.last s hs, h.first t ht⟩

theorem Form.within_sequence (n : Nat) (role : Option ρ) :
    (fs : List (Form τ π ρ)) → (Form.sequence n role fs).Within n
  | [] => by rw [Form.sequence]; refine ⟨?_, ?_, ?_⟩ <;> simp [Fragment.empty]
  | f :: fs => by
    rw [Form.sequence]
    exact (within_fragment n role f).append (within_sequence _ role fs)

theorem Form.within_alternatives (n : Nat) (role : Option ρ) :
    (fs : List (Form τ π ρ)) → (Form.alternatives n role fs).Within n
  | [] => by rw [Form.alternatives]; refine ⟨?_, ?_, ?_⟩ <;> simp [Fragment.empty]
  | f :: fs => by
    rw [Form.alternatives]
    exact (within_fragment n role f).union (within_alternatives _ role fs)

end

/-- Reading a step is reading the token or the part in the step's role. -/
def StepReads (rules : List (Production τ π κ ρ)) (a : Assembly κ ρ α)
    (shifted : τ → List α → Prop) (st : Step τ π ρ) (ps : List α) : Prop :=
  Reads rules a shifted st.role st.form ps

theorem Fragment.stepReads_of_single {st : Step τ π ρ} {n : Nat} {ps : List α}
    (h : Fragment.Accepts (StepReads rules a shifted) ⟨[st], false, [n], [n], []⟩ n ps) :
    Reads rules a shifted st.role st.form ps := by
  rcases h with ⟨hnull, -⟩ | ⟨s, -, hrun⟩
  · cases hnull
  · cases hrun with
    | @first i st' _ _ hst hreads =>
      obtain ⟨hi, rfl⟩ := List.getElem?_eq_some_iff.mp hst
      obtain rfl : i = 0 := by simpa using hi
      exact hreads
    | next _ hfollow => cases hfollow

mutual

/-- **What a fragment accepts, its form reads.** -/
theorem Form.reads_of_accepts (n : Nat) (role : Option ρ) : (f : Form τ π ρ) → {ps : List α} →
    (f.fragment n role).Accepts (StepReads rules a shifted) n ps → Reads rules a shifted role f ps
  | .token t, _, h => by
    rw [Form.fragment] at h
    exact Fragment.stepReads_of_single h
  | .part p, _, h => by
    rw [Form.fragment] at h
    exact Fragment.stepReads_of_single h
  | .inRole r f, _, h => by
    rw [Form.fragment] at h
    exact .inRole (reads_of_accepts n (some r) f h)
  | .seq fs, _, h => by
    rw [Form.fragment] at h
    exact reads_of_accepts_sequence n role fs h
  | .choice fs, _, h => by
    rw [Form.fragment] at h
    obtain ⟨f, hf, hreads⟩ := reads_of_accepts_alternatives n role fs h
    exact .choice hf hreads
  | .optional f, _, h => by
    rw [Form.fragment] at h
    rcases h with ⟨-, rfl⟩ | ⟨s, hlast, hrun⟩
    · exact .skip
    · refine .take (reads_of_accepts n role f (Or.inr ⟨s, hlast, ?_⟩))
      -- Whether nothing may be read plays no part in a run.
      clear hlast
      induction hrun with
      | first hfirst hst hreads => exact .first hfirst hst hreads
      | next _ hfollow hst hreads ih => exact .next ih hfollow hst hreads
  | .many f, _, h => by
    rw [Form.fragment] at h
    rcases h with ⟨-, rfl⟩ | ⟨s, hlast, hrun⟩
    · exact .none
    · obtain ⟨qs, rs, rfl, hqs, hrun⟩ :=
        hrun.of_repeated (P := Reads rules a shifted role (.many f)) .none
          fun hqs hacc => .more hqs (reads_of_accepts n role f hacc)
      exact .more hqs (reads_of_accepts n role f (Or.inr ⟨s, hlast, hrun⟩))

theorem Form.reads_of_accepts_sequence (n : Nat) (role : Option ρ) : (fs : List (Form τ π ρ)) →
    {ps : List α} → (Form.sequence n role fs).Accepts (StepReads rules a shifted) n ps →
    Reads rules a shifted role (.seq fs) ps
  | [], _, h => by
    rcases h with ⟨-, rfl⟩ | ⟨s, hlast, -⟩
    · exact .nil
    · rw [Form.sequence] at hlast
      cases hlast
  | f :: fs, _, h => by
    rw [Form.sequence] at h
    obtain ⟨qs, rs, rfl, hf, hfs⟩ :=
      h.of_append (Form.within_fragment n role f) (Form.within_sequence _ role fs)
    exact .cons (reads_of_accepts n role f hf) (reads_of_accepts_sequence _ role fs hfs)

theorem Form.reads_of_accepts_alternatives (n : Nat) (role : Option ρ) : (fs : List (Form τ π ρ)) →
    {ps : List α} → (Form.alternatives n role fs).Accepts (StepReads rules a shifted) n ps →
    ∃ f ∈ fs, Reads rules a shifted role f ps
  | [], _, h => by
    rw [Form.alternatives] at h
    rcases h with ⟨hnull, -⟩ | ⟨s, hlast, -⟩
    · cases hnull
    · cases hlast
  | f :: fs, _, h => by
    rw [Form.alternatives] at h
    rcases h.of_union (Form.within_fragment n role f) (Form.within_alternatives _ role fs) with h | h
    · exact ⟨f, List.mem_cons_self, reads_of_accepts n role f h⟩
    · obtain ⟨g, hg, hreads⟩ := reads_of_accepts_alternatives _ role fs h
      exact ⟨g, List.mem_cons_of_mem f hg, hreads⟩

end

end Forms

/-! ## What every reading holds -/

mutual

/-- Does every reading of the form read a token `t` of its own? -/
def Form.requires [DecidableEq τ] (t : τ) : Form τ π ρ → Bool
  | .token u => u = t
  | .inRole _ f => f.requires t
  | .seq fs => Form.someRequires t fs
  | .choice fs => Form.allRequire t fs
  | .part _ | .optional _ | .many _ => false

def Form.someRequires [DecidableEq τ] (t : τ) : List (Form τ π ρ) → Bool
  | [] => false
  | f :: fs => f.requires t || Form.someRequires t fs

def Form.allRequire [DecidableEq τ] (t : τ) : List (Form τ π ρ) → Bool
  | [] => true
  | f :: fs => f.requires t && Form.allRequire t fs

end

section Requires
variable [DecidableEq τ] {t : τ}

theorem Form.requires_of_allRequire {f : Form τ π ρ} {fs : List (Form τ π ρ)}
    (h : Form.allRequire t fs = true) (hf : f ∈ fs) : f.requires t = true := by
  induction fs with
  | nil => cases hf
  | cons g gs ih =>
    rw [Form.allRequire, Bool.and_eq_true_iff] at h
    rcases List.mem_cons.mp hf with rfl | hf
    · exact h.1
    · exact ih h.2 hf

/-- A reading of a form that requires `t` holds all pieces of a token `t`, in some role. -/
theorem Reads.token_of_requires {rules : List (Production τ π κ ρ)} {a : Assembly κ ρ α}
    {shifted : τ → List α → Prop} {role : Option ρ} {f : Form τ π ρ} {ps : List α}
    (h : Reads rules a shifted role f ps) (hf : f.requires t = true) :
    ∃ role' qs, shifted t qs ∧ a.inRole role' qs ⊆ ps := by
  induction h with
  | @token role u qs hqs =>
    obtain rfl : u = t := by simpa [Form.requires] using hf
    exact ⟨role, qs, hqs, List.Subset.refl _⟩
  | inRole _ ih => exact ih (by simpa [Form.requires] using hf)
  | nil => simp [Form.requires, Form.someRequires] at hf
  | @cons role f fs ps qs _ _ ihf ihfs =>
    rw [Form.requires, Form.someRequires, Bool.or_eq_true_iff] at hf
    rcases hf with hf | hfs
    · obtain ⟨role', rs, hrs, hsub⟩ := ihf hf
      exact ⟨role', rs, hrs, List.Subset.trans hsub (List.subset_append_left ps qs)⟩
    · obtain ⟨role', rs, hrs, hsub⟩ := ihfs (by rwa [Form.requires])
      exact ⟨role', rs, hrs, List.Subset.trans hsub (List.subset_append_right ps qs)⟩
  | choice hmem _ ih =>
    rw [Form.requires] at hf
    exact ih (Form.requires_of_allRequire hf hmem)
  | part | skip | take | none | more => simp [Form.requires] at hf

end Requires
end Lineage.Grammar
