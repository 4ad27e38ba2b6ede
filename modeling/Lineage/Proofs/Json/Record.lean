import Mathlib.Data.List.Forall2
import Lineage.Json.Record
import Lineage.Proofs.Json.Printing

/-!
# Fields and lists that read back

What holds of a record in JSON once it holds of its fields. How a value `v` may stand for a datum `a`
is said by a relation `Form a v`: one spelling only (`Exactly`), or any of many.

**Fields.** A field with a default may be left out where it holds the default (`Omissible`), an
absent optional value may be `null` (`OrNull`), and a list is written element by element (`Lists`).
Each has a lemma that a reader of such fields has the datum again if it has it from the values.

**Loose objects (`HasFields`).** The fields of an object may come in any order and among members
with other keys. A reader of fields sees each of them all the same (`HasFields.record?_eq`).
-/
namespace Lineage.Json
variable {α : Type} {read : Json → Option α} {write : α → Json} {Form : α → Json → Prop}

/-! ## Fields -/

/-- The one spelling that `write` has. -/
def Exactly (write : α → Json) (a : α) (v : Json) : Prop := v = write a

theorem exactly_write (write : α → Json) (a : α) : Exactly write a (write a) := rfl

/-- A field that holds `a`: a value that stands for it or, for the default, nothing at all. -/
inductive Omissible (default : α) (Form : α → Json → Prop) : α → Option Json → Prop where
  | written {a : α} {v : Json} (h : Form a v) : Omissible default Form a (some v)
  | omitted : Omissible default Form default none

/-- An optional datum, the absent one as `null`. -/
inductive OrNull (Form : α → Json → Prop) : Option α → Json → Prop where
  | absent : OrNull Form none null
  | present {a : α} {v : Json} (h : Form a v) : OrNull Form (some a) v

/-- A list as an array, element by element. -/
def Lists (Form : α → Json → Prop) (l : List α) (v : Json) : Prop :=
  ∃ vs, v = array vs ∧ List.Forall₂ Form l vs

theorem OrNull.of_ofOption (h : ∀ a, Form a (write a)) (o : Option α) :
    OrNull Form o (ofOption write o) := by
  cases o with
  | none => exact .absent
  | some a => exact .present (h a)

theorem Omissible.of_map (h : ∀ a, Form a (write a)) (o : Option α) :
    Omissible none (OrNull Form) o (o.map write) := by
  cases o with
  | none => exact .omitted
  | some a => exact .written (.present (h a))

theorem Lists.of_map (h : ∀ a, Form a (write a)) (l : List α) :
    Lists Form l (array (l.map write)) := by
  refine ⟨_, rfl, ?_⟩
  rw [List.forall₂_map_right_iff, List.forall₂_same]
  exact fun a _ => h a

/-! ## Reading back -/

theorem mapM_eq_some {β γ : Type} {f : β → Option γ} {l : List β} {r : List γ}
    (h : List.Forall₂ (fun x y => f x = some y) l r) : l.mapM f = some r := by
  induction h with
  | nil => rfl
  | cons hx _ ih => simp [List.mapM_cons, hx, ih]

theorem Lists.list?_eq {l : List α} {v : Json} (h : Lists Form l v)
    (hread : ∀ a ∈ l, ∀ v, Form a v → read v = some a) : list? read v = some l := by
  obtain ⟨vs, rfl, hvs⟩ := h
  show vs.mapM read = some l
  apply mapM_eq_some
  apply List.Forall₂.flip
  refine ((List.forall₂_and_left l vs).mpr ⟨hread, hvs⟩).imp ?_
  exact fun _ _ hx => hx.1 _ hx.2

theorem Omissible.defaulted_eq {default a : α} {o : Option Json} (h : Omissible default Form a o)
    (hread : ∀ v, Form a v → read v = some a) : defaulted default read o = some a := by
  cases h with
  | written h => exact hread _ h
  | omitted => rfl

theorem Omissible.defaulted_bool? {b : Bool} {o : Option Json}
    (h : Omissible false (Exactly bool) b o) : defaulted false bool? o = some b := by
  apply h.defaulted_eq
  rintro _ rfl
  rfl

theorem Omissible.optional_eq {a : Option α} {o : Option Json}
    (h : Omissible none (OrNull Form) a o)
    (hread : ∀ x ∈ a, ∀ v, Form x v → v ≠ null ∧ read v = some x) :
    optional read o = some a := by
  cases h with
  | omitted => rfl
  | written h =>
    cases h with
    | absent => rfl
    | present h =>
      obtain ⟨hne, hv⟩ := hread _ rfl _ h
      rw [optional.eq_3 _ _ hne, hv]
      rfl

theorem list?_array_map {l : List α} (h : ∀ x ∈ l, read (write x) = some x) :
    list? read (array (l.map write)) = some l :=
  (Lists.of_map (exactly_write write) l).list?_eq fun x hx _ hv => hv ▸ h x hx

theorem optional_string? (o : Option String) :
    optional string? (some (ofOption string o)) = some o := by
  cases o <;> rfl

theorem word64?_natural {n : Nat} (h : n < UInt64.size) : word64? (natural n) = some n :=
  if_pos h

/-! ## Loose objects -/

section Loose
variable {key : String} {members : List (String × Json)} {fields : List (String × Option Json)}

/-- The members that fields make: a field that is left out makes none. -/
def present (fields : List (String × Option Json)) : List (String × Json) :=
  fields.flatMap fun f => f.2.toList.map (Prod.mk f.1)

/-- `v` is an object that holds `fields` in any order, among any members with other keys. -/
def HasFields (v : Json) (fields : List (String × Option Json)) : Prop :=
  ∃ members others, v = object members ∧ members.Perm (present fields ++ others) ∧
    ∀ m ∈ others, m.1 ∉ fields.map Prod.fst

theorem HasFields.of_present {v : Json} (h : v = object (present fields)) : v.HasFields fields :=
  ⟨_, [], h, by simp, by simp⟩

/-- The fields may come the other way round, with the other members ahead of them. -/
theorem HasFields.of_reverse {v : Json} (others : List (String × Json))
    (h : v = object (present fields ++ others).reverse)
    (hothers : ∀ m ∈ others, m.1 ∉ fields.map Prod.fst) : v.HasFields fields :=
  ⟨_, others, h, List.reverse_perm _, hothers⟩

theorem HasFields.ne_null {v : Json} (h : v.HasFields fields) : v ≠ null := by
  obtain ⟨members, -, rfl, -⟩ := h
  simp

theorem valuesOf_append (l r : List (String × Json)) :
    valuesOf key (l ++ r) = valuesOf key l ++ valuesOf key r := by
  simp [valuesOf]

theorem valuesOf_eq_nil (h : ∀ m ∈ members, m.1 ≠ key) : valuesOf key members = [] := by
  simp only [valuesOf, List.map_eq_nil_iff, List.filter_eq_nil_iff, beq_iff_eq]
  exact h

theorem key_of_mem_present {m : String × Json} (h : m ∈ present fields) :
    m.1 ∈ fields.map Prod.fst := by
  obtain ⟨f, hf, hm⟩ := List.mem_flatMap.mp h
  obtain ⟨v, -, rfl⟩ := List.mem_map.mp hm
  exact List.mem_map_of_mem hf

/-- Among fields with different keys, one that is there has its value only. -/
theorem valuesOf_present (hkeys : (fields.map Prod.fst).Nodup) {o : Option Json}
    (h : (key, o) ∈ fields) : valuesOf key (present fields) = o.toList := by
  induction fields with
  | nil => cases h
  | cons f fields ih =>
    obtain ⟨hfresh, hrest⟩ := List.nodup_cons.mp hkeys
    have hcons : present (f :: fields) = f.2.toList.map (Prod.mk f.1) ++ present fields := rfl
    rw [hcons, valuesOf_append]
    rcases List.mem_cons.mp h with rfl | h
    · -- The wanted field comes first, and no later one has its key.
      have hnone : valuesOf key (present fields) = [] := by
        apply valuesOf_eq_nil
        rintro m hm rfl
        exact hfresh (key_of_mem_present hm)
      rw [hnone]
      cases o <;> simp [valuesOf]
    · have hne : f.1 ≠ key := by
        rintro rfl
        exact hfresh (List.mem_map.mpr ⟨_, h, rfl⟩)
      rw [ih hrest h, valuesOf_eq_nil, List.nil_append]
      intro m hm
      obtain ⟨v, -, rfl⟩ := List.mem_map.mp hm
      exact hne

theorem field?_of_perm {o : Option Json} (h : (valuesOf key members).Perm o.toList) :
    field? members key = some o := by
  cases o with
  | none => simp [field?, List.perm_nil.mp h]
  | some v => simp [field?, List.perm_singleton.mp h]

/-- A reader of fields sees the fields of an object as they are, there or left out. -/
theorem HasFields.record?_eq {v : Json} (h : v.HasFields fields)
    (hkeys : (fields.map Prod.fst).Nodup) (needed : Nat) :
    v.record? (fields.map Prod.fst) needed = some (fields.map Prod.snd) := by
  obtain ⟨members, others, rfl, hperm, hothers⟩ := h
  apply mapM_eq_some
  rw [List.forall₂_map_left_iff, List.forall₂_map_right_iff, List.forall₂_same]
  intro f hf
  -- A known key that comes twice is refused, so all values under the key have to be compared.
  apply field?_of_perm
  have hvalues : valuesOf f.1 (present fields ++ others) = f.2.toList := by
    have hnone : valuesOf f.1 others = [] := by
      apply valuesOf_eq_nil
      rintro m hm hkey
      exact hothers m hm (hkey ▸ List.mem_map_of_mem hf)
    rw [valuesOf_append, valuesOf_present hkeys hf, hnone, List.append_nil]
  rw [← hvalues]
  exact (hperm.filter _).map _

end Loose

/-! ## Values that print -/

theorem Plain.array_map {l : List α} (h : ∀ x ∈ l, Plain (write x)) : Plain (.array (l.map write)) :=
  .array (List.forall_mem_map.mpr h)

theorem Plain.ofOption (h : ∀ v, Plain (write v)) (o : Option α) : Plain (.ofOption write o) := by
  cases o with
  | none => exact .null
  | some v => exact h v

/-- An object prints if its members do, also with a last member that may be left out. -/
theorem Plain.object_append {l : List (String × Json)} (hl : ∀ m ∈ l, Plain m.2) (key : String)
    (hw : ∀ v, Plain (write v)) (o : Option α) :
    Plain (.object (l ++ o.toList.map fun v => (key, write v))) := by
  refine .object (List.forall_mem_append.mpr ⟨hl, ?_⟩)
  exact List.forall_mem_map.mpr fun v _ => hw v

end Lineage.Json
