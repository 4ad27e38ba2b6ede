import Lineage.Proofs.Forest.Embedding

/-!
# Families of classes in one forest

Two families of classes arrive mixed with each other, and no class of one names a class of the other
as its parent. Then each family is built in the mixed forest as it is when it comes alone.

**Interleavings.** The classes of both families in order of arrival, each marked with its family.
`place w b i` is where the `i`-th class of family `b` stands among all.

**Two runs in step.** `InStep w b`: the links of family `b` in the mixed forest are those of its own
forest. A class of the other family adopts none of this one's roots. A class of this family adopts
the same roots in both forests; the search for its parent then runs over a copy of the family's own
forest (`copies_prepare`) and looks for a name that only this family carries, so that it finds the
same node (`newParent?_place`).

**Result.** `copies_build`: the family's part of the mixed forest is a copy of its own forest.
-/
namespace Lineage.Forest

/-! ## Interleavings -/

/-- The classes of family `b`, in order of arrival. -/
def family (w : List (Bool × ClassDecl)) (b : Bool) : List ClassDecl :=
  (w.filter fun x => x.1 == b).map (·.2)

/-- Does the class at `i` belong to family `b`? -/
def fromFamily (w : List (Bool × ClassDecl)) (b : Bool) (i : Nat) : Bool :=
  (w[i]?).any fun x => x.1 == b

/-- The places of family `b` among all classes. -/
def places (w : List (Bool × ClassDecl)) (b : Bool) : List Nat :=
  (List.range w.length).filter (fromFamily w b)

/-- The place among all classes of the `i`-th class of family `b`. -/
def place (w : List (Bool × ClassDecl)) (b : Bool) (i : Nat) : Nat := ((places w b)[i]?).getD 0

section
variable {w : List (Bool × ClassDecl)} {b : Bool}

theorem mem_family {x : ClassDecl} : x ∈ family w b ↔ (b, x) ∈ w := by
  simp [family]

theorem family_concat (w : List (Bool × ClassDecl)) (b c : Bool) (d : ClassDecl) :
    family (w ++ [(c, d)]) b = if c = b then family w b ++ [d] else family w b := by
  unfold family
  by_cases h : c = b <;> simp [h]

theorem fromFamily_concat_old {x : Bool × ClassDecl} {i : Nat} (hi : i < w.length) :
    fromFamily (w ++ [x]) b i = fromFamily w b i := by
  rw [fromFamily, List.getElem?_append_left hi]
  rfl

theorem fromFamily_concat_new (w : List (Bool × ClassDecl)) (b c : Bool) (d : ClassDecl) :
    fromFamily (w ++ [(c, d)]) b w.length = (c == b) := by
  rw [fromFamily, List.getElem?_concat_length]
  rfl

theorem places_concat (w : List (Bool × ClassDecl)) (b c : Bool) (d : ClassDecl) :
    places (w ++ [(c, d)]) b = if c = b then places w b ++ [w.length] else places w b := by
  have hold : (List.range w.length).filter (fromFamily (w ++ [(c, d)]) b) = places w b :=
    List.filter_congr fun i hi => fromFamily_concat_old (List.mem_range.mp hi)
  rw [places, List.length_append, List.length_singleton, List.range_succ, List.filter_append, hold]
  by_cases h : c = b <;> simp [h, fromFamily_concat_new]

theorem length_places (w : List (Bool × ClassDecl)) (b : Bool) :
    (places w b).length = (family w b).length := by
  induction w using List.reverseRecOn with
  | nil => rfl
  | append_singleton w x ih =>
    rw [places_concat, family_concat]
    split
    · rw [List.length_append, List.length_append, ih]
      rfl
    · exact ih

theorem getElem?_places {i : Nat} (hi : i < (family w b).length) :
    (places w b)[i]? = some (place w b i) := by
  rw [← length_places] at hi
  rw [place, List.getElem?_eq_getElem hi]
  rfl

theorem map_place (w : List (Bool × ClassDecl)) (b : Bool) :
    (List.range (family w b).length).map (place w b) = places w b := by
  apply List.ext_getElem?
  intro i
  rw [List.getElem?_map]
  by_cases hi : i < (family w b).length
  · rw [List.getElem?_range hi, getElem?_places hi]
    rfl
  · rw [List.getElem?_eq_none (by simpa using hi),
      List.getElem?_eq_none (by rw [length_places]; omega)]
    rfl

theorem place_concat_old {x : Bool × ClassDecl} {i : Nat} (hi : i < (family w b).length) :
    place (w ++ [x]) b i = place w b i := by
  have hlt : i < (places w b).length := by rwa [length_places]
  unfold place
  rw [places_concat]
  split
  · rw [List.getElem?_append_left hlt]
  · rfl

theorem place_concat_new (w : List (Bool × ClassDecl)) (b : Bool) (d : ClassDecl) :
    place (w ++ [(b, d)]) b (family w b).length = w.length := by
  rw [place, places_concat, if_pos rfl, ← length_places, List.getElem?_concat_length]
  rfl

theorem fromFamily_iff {x : Nat} (hx : x < w.length) :
    fromFamily w b x = true ↔ ∃ i < (family w b).length, place w b i = x := by
  have hmem : fromFamily w b x = true ↔ x ∈ places w b := by
    rw [places, List.mem_filter, List.mem_range]
    exact ⟨fun h => ⟨hx, h⟩, fun h => h.2⟩
  rw [hmem, ← map_place, List.mem_map]
  simp only [List.mem_range]

theorem place_lt_place {i j : Nat} (hij : i < j) (hj : j < (family w b).length) :
    place w b i < place w b j := by
  have hpair : (places w b).Pairwise (· < ·) := List.pairwise_lt_range.filter _
  rw [List.pairwise_iff_getElem] at hpair
  have hlen := length_places w b
  have hi' := getElem?_places (w := w) (b := b) (by omega : i < (family w b).length)
  have hj' := getElem?_places hj
  obtain ⟨hi₁, hi₂⟩ := List.getElem?_eq_some_iff.mp hi'
  obtain ⟨hj₁, hj₂⟩ := List.getElem?_eq_some_iff.mp hj'
  have := hpair i j hi₁ hj₁ hij
  rwa [hi₂, hj₂] at this

/-- The `i`-th class of the family stands at its place, with the family's mark. -/
theorem getElem?_place {i : Nat} {x : ClassDecl} (hx : (family w b)[i]? = some x) :
    w[place w b i]? = some (b, x) := by
  induction w using List.reverseRecOn with
  | nil => cases hx
  | append_singleton w y ih =>
    obtain ⟨c, d⟩ := y
    rw [family_concat] at hx
    by_cases hi : i < (family w b).length
    · have hold : (family w b)[i]? = some x := by
        split at hx
        · rwa [List.getElem?_append_left hi] at hx
        · exact hx
      have hw := ih hold
      rw [place_concat_old hi, List.getElem?_append_left (List.getElem?_eq_some_iff.mp hw).1, hw]
    · split at hx
      · rename_i hcb
        obtain ⟨hlt, hget⟩ := List.getElem?_eq_some_iff.mp hx
        rw [List.length_append, List.length_singleton] at hlt
        have hlast : i = (family w b).length := by omega
        subst hlast
        rw [List.getElem?_concat_length] at hx
        cases hx
        rw [hcb, place_concat_new, List.getElem?_concat_length]
      · exact absurd (List.getElem?_eq_some_iff.mp hx).1 hi

theorem place_lt {i : Nat} (hi : i < (family w b).length) : place w b i < w.length :=
  (List.getElem?_eq_some_iff.mp (getElem?_place (List.getElem?_eq_getElem hi))).1

end

/-! ## Unrelated families -/

/-- Only classes of its own family name a class as their parent. -/
def Apart (w : List (Bool × ClassDecl)) : Prop :=
  ∀ x ∈ w, ∀ y ∈ w, x.2.parentName = some y.2.name → x.1 = y.1

theorem Apart.of_concat {w : List (Bool × ClassDecl)} {x : Bool × ClassDecl}
    (h : Apart (w ++ [x])) : Apart w :=
  fun y hy z hz => h y (by simp [hy]) z (by simp [hz])

/-- What names a class and what is called so are of one family. -/
theorem Apart.fromFamily_eq {w : List (Bool × ClassDecl)} (h : Apart w) {g : Forest}
    (hg : g.declarations = w.map (·.2)) {c p : Nat} {s : String} (hc : g.parentName? c = some s)
    (hp : g.name? p = some s) (b : Bool) : fromFamily w b c = fromFamily w b p := by
  rw [parentName?, declaration?, hg, List.getElem?_map, Option.bind_eq_some_iff] at hc
  rw [name?_eq, declaration?, hg, List.getElem?_map, Option.map_eq_some_iff] at hp
  obtain ⟨x, hx, hxs⟩ := hc
  obtain ⟨y, hy, hys⟩ := hp
  obtain ⟨x', hx', rfl⟩ := Option.map_eq_some_iff.mp hx
  obtain ⟨y', hy', rfl⟩ := Option.map_eq_some_iff.mp hy
  have hmark := h x' (List.mem_of_getElem? hx') y' (List.mem_of_getElem? hy') (by rw [hxs, hys])
  rw [fromFamily, fromFamily, hx', hy', Option.any_some, Option.any_some, hmark]

/-! ## Two runs in step -/

/-- The forest of both families. -/
def mixed (w : List (Bool × ClassDecl)) : Forest := build (w.map (·.2))

/-- The links of family `b` in the mixed forest are those of its own forest. -/
def InStep (w : List (Bool × ClassDecl)) (b : Bool) : Prop :=
  ∀ i < (family w b).length,
    (mixed w).parent? (place w b i) = ((build (family w b)).parent? i).map (place w b)

@[simp] theorem declarations_mixed (w : List (Bool × ClassDecl)) :
    (mixed w).declarations = w.map (·.2) :=
  declarations_build _

@[simp] theorem size_mixed (w : List (Bool × ClassDecl)) : (mixed w).size = w.length := by
  rw [mixed, size_build, List.length_map]

theorem mixed_concat (w : List (Bool × ClassDecl)) (b : Bool) (d : ClassDecl) :
    mixed (w ++ [(b, d)]) = (mixed w).insert d := by
  rw [mixed, List.map_append]
  exact build_concat _ d

theorem declarations_prepare_mixed (w : List (Bool × ClassDecl)) (b : Bool) (d : ClassDecl) :
    ((mixed w).prepare d).declarations = (w ++ [(b, d)]).map (·.2) := by
  rw [declarations_prepare, declarations_mixed, List.map_append]
  rfl

theorem wellFormed_mixed (w : List (Bool × ClassDecl)) : (mixed w).WellFormed := wellFormed_build _

section
variable {w : List (Bool × ClassDecl)} {b : Bool}

/-- Links of the mixed forest stay in one family. -/
theorem Apart.fromFamily_parent (h : Apart w) (b : Bool) {c p : Nat}
    (hp : (mixed w).parent? c = some p) : fromFamily w b c = fromFamily w b p := by
  obtain ⟨s, hcs, hps⟩ := (settled_build _).named c p hp
  exact h.fromFamily_eq (declarations_mixed w) hcs hps b

/-- What makes the family's part of a forest `g` of all classes a copy of a forest `f` of the
family. -/
theorem copies_of_parent? {f g : Forest} (hf : f.declarations = family w b)
    (hg : g.declarations = w.map (·.2))
    (hpar : ∀ i < f.size, g.parent? (place w b i) = (f.parent? i).map (place w b))
    (hclosed : ∀ c p, g.parent? c = some p → fromFamily w b c = fromFamily w b p)
    (hroot : ∀ i < f.size, place w b i ∈ g.roots ↔ i ∈ f.roots) :
    Copies (place w b) (fromFamily w b) f g := by
  have hfs : f.size = (family w b).length := by rw [← length_declarations, hf]
  have hgs : g.size = w.length := by rw [← length_declarations, hg, List.length_map]
  have hdecl : ∀ i < f.size, g.declaration? (place w b i) = f.declaration? i := by
    intro i hi
    obtain ⟨x, hx⟩ := exists_declaration hi
    have hx' : (family w b)[i]? = some x := by rwa [declaration?, hf] at hx
    rw [hx, declaration?, hg, List.getElem?_map, getElem?_place hx']
    rfl
  refine ⟨Embeds.of_parent? hdecl hpar, ?_, ?_, hclosed, hroot⟩
  · intro i j hij hj
    exact place_lt_place hij (hfs ▸ hj)
  · intro x hx
    rw [hfs]
    exact fromFamily_iff (hgs ▸ hx)

theorem InStep.copies (h : InStep w b) (happ : Apart w) :
    Copies (place w b) (fromFamily w b) (build (family w b)) (mixed w) := by
  have hpar : ∀ i < (build (family w b)).size,
      (mixed w).parent? (place w b i) = ((build (family w b)).parent? i).map (place w b) := by
    intro i hi
    rw [size_build] at hi
    exact h i hi
  refine copies_of_parent? (declarations_build _) (declarations_mixed w) hpar
    (fun c p => happ.fromFamily_parent b) fun i hi => ?_
  have hlt : place w b i < (mixed w).size := by
    rw [size_build] at hi
    rw [size_mixed]
    exact place_lt hi
  rw [(wellFormed_mixed w).root_iff hlt, (wellFormed_build _).root_iff hi, hpar i hi,
    Option.map_eq_none_iff]

end

/-! ## One more class of the family -/

section
variable {w : List (Bool × ClassDecl)} {b : Bool} {d : ClassDecl} (happ : Apart (w ++ [(b, d)]))
  (ih : InStep w b)

theorem map_place_concat (x : Bool × ClassDecl) (i : Nat) :
    ((build (family w b)).parent? i).map (place (w ++ [x]) b) =
      ((build (family w b)).parent? i).map (place w b) := by
  refine Option.map_congr fun p hp => place_concat_old ?_
  rw [← size_build]
  exact (wellFormed_build _).parent_lt hp

include happ ih

theorem parent?_prepare_place {i : Nat} (hi : i < ((build (family w b)).prepare d).size) :
    ((mixed w).prepare d).parent? (place (w ++ [(b, d)]) b i) =
      (((build (family w b)).prepare d).parent? i).map (place (w ++ [(b, d)]) b) := by
  have hf := wellFormed_build (family w b)
  have hg := wellFormed_mixed w
  have hcopy := ih.copies happ.of_concat
  have hnew := place_concat_new w b d
  rw [size_prepare, size_build] at hi
  rcases Nat.lt_or_eq_of_le (Nat.lt_succ_iff.mp hi) with hlt | rfl
  · have hold : i < (build (family w b)).size := by rwa [size_build]
    rw [place_concat_old hlt, hf.parent?_prepare, hg.parent?_prepare, size_build, size_mixed]
    by_cases hw : i ∈ (build (family w b)).waiting d.name
    · rw [if_pos hw, if_pos ((hcopy.mem_waiting_iff hold d.name).mpr hw), Option.map_some, hnew]
    · rw [if_neg hw, if_neg (mt (hcopy.mem_waiting_iff hold d.name).mp hw), map_place_concat]
      exact ih i hlt
  · have htop := (hf.prepare d).top
    have htop' := (hg.prepare d).top
    rw [size_build] at htop
    rw [size_mixed] at htop'
    rw [hnew, htop, htop']
    rfl

/-- Where the parent of a class of the family is searched for, the family's part of the mixed forest
is a copy of its own forest. -/
theorem copies_prepare :
    Copies (place (w ++ [(b, d)]) b) (fromFamily (w ++ [(b, d)]) b)
      ((build (family w b)).prepare d) ((mixed w).prepare d) := by
  have hf := wellFormed_build (family w b)
  have hg := wellFormed_mixed w
  have hcopy := ih.copies happ.of_concat
  refine copies_of_parent? ?_ (declarations_prepare_mixed w b d)
    (fun i => parent?_prepare_place happ ih) ?_ ?_
  · rw [declarations_prepare, declarations_build, family_concat, if_pos rfl]
  · intro c p hp
    have hlink := hg.parent?_insert_of_prepare d hp
    rw [← mixed_concat w b d] at hlink
    exact happ.fromFamily_parent b hlink
  · intro i hi
    rw [size_prepare, size_build] at hi
    rcases Nat.lt_or_eq_of_le (Nat.lt_succ_iff.mp hi) with hlt | rfl
    · have hold : i < (build (family w b)).size := by rwa [size_build]
      rw [hf.mem_roots_prepare, hg.mem_roots_prepare, place_concat_old hlt, hcopy.root_iff i hold,
        hcopy.mem_waiting_iff hold]
    · have hnot := (hf.prepare d).not_root
      have hnot' := (hg.prepare d).not_root
      rw [size_build] at hnot
      rw [size_mixed] at hnot'
      rw [place_concat_new]
      exact iff_of_false hnot' hnot

theorem newParent?_place :
    (mixed w).newParent? d = ((build (family w b)).newParent? d).map (place (w ++ [(b, d)]) b) := by
  have hf := wellFormed_build (family w b)
  have hg := wellFormed_mixed w
  unfold newParent?
  cases hs : d.parentName with
  | none => rfl
  | some s =>
    refine (copies_prepare happ ih).find?_eq (hf.prepare d).toRooted (hg.prepare d).toRooted
      ((ascending_build _).prepare hf d) ((ascending_build _).prepare hg d) fun x hx => ?_
    -- The new class declares the name, so what carries it is of the new class's family.
    have hnew : ((mixed w).prepare d).parentName? w.length = some s := by
      rw [parentName?_concat (declarations_prepare (mixed w) d), size_mixed, if_pos rfl, hs]
    rw [← happ.fromFamily_eq (declarations_prepare_mixed w b d) hnew hx b, fromFamily_concat_new,
      beq_self_eq_true]

theorem inStep_concat_same : InStep (w ++ [(b, d)]) b := by
  intro i hi
  have hprep := parent?_prepare_place happ ih (i := i)
  rw [family_concat, if_pos rfl, List.length_append, List.length_singleton] at hi
  rw [family_concat, if_pos rfl, mixed_concat, build_concat, (wellFormed_mixed w).parent?_insert_eq,
    (wellFormed_build _).parent?_insert_eq, size_mixed, size_build]
  by_cases hv : i = (family w b).length
  · rw [hv, place_concat_new, if_pos rfl, if_pos rfl]
    exact newParent?_place happ ih
  · have hlt : i < (family w b).length := by omega
    have hplace := place_lt hlt
    rw [if_neg hv, if_neg (by rw [place_concat_old hlt]; omega)]
    exact hprep (by rw [size_prepare, size_build]; omega)

end

/-! ## One more class of the other family -/

theorem inStep_concat_other {w : List (Bool × ClassDecl)} {b c : Bool} {d : ClassDecl}
    (happ : Apart (w ++ [(c, d)])) (hcb : c ≠ b) (ih : InStep w b) : InStep (w ++ [(c, d)]) b := by
  intro i hi
  rw [family_concat, if_neg hcb] at hi ⊢
  have hcopy := ih.copies happ.of_concat
  have hi' : i < (build (family w b)).size := by rwa [size_build]
  have hlt := place_lt hi
  have hkept : place w b i ∉ (mixed w).waiting d.name := by
    intro hw
    have hlink : (mixed (w ++ [(c, d)])).parent? (place w b i) = some w.length := by
      rw [mixed_concat, (wellFormed_mixed w).parent?_insert, size_mixed, if_neg (by omega),
        if_pos hw]
    have hmark := happ.fromFamily_parent b hlink
    rw [fromFamily_concat_old hlt, fromFamily_concat_new, hcopy.part_image hi'] at hmark
    exact hcb (by simpa using hmark.symm)
  rw [map_place_concat, place_concat_old hi, mixed_concat, (wellFormed_mixed w).parent?_insert,
    size_mixed, if_neg (by omega), if_neg hkept]
  exact ih i hi

theorem inStep_of_apart {w : List (Bool × ClassDecl)} (happ : Apart w) (b : Bool) : InStep w b := by
  induction w using List.reverseRecOn with
  | nil =>
    intro i hi
    cases hi
  | append_singleton w x ih =>
    obtain ⟨c, d⟩ := x
    have hstep := ih happ.of_concat
    by_cases hcb : c = b
    · subst hcb
      exact inStep_concat_same happ hstep
    · exact inStep_concat_other happ hcb hstep

/-- The part of a family in the mixed forest is a copy of the family's own forest. -/
theorem copies_build {w : List (Bool × ClassDecl)} (happ : Apart w) (b : Bool) :
    Copies (place w b) (fromFamily w b) (build (family w b)) (mixed w) :=
  (inStep_of_apart happ b).copies happ

end Lineage.Forest
