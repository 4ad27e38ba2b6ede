import Mathlib.Data.List.Nodup
import Mathlib.Data.List.Perm.Subperm
import Lineage.Proofs.Grammar.Chart
import Lineage.Proofs.Php.Source
import Lineage.Proofs.Php.SyntaxTree

/-!
# Every class is declared by its keyword

In the tree of a source without faults, every class declaration holds the word `class`, spelled in
the bytes of the source in capitals or small letters (`hasClassWords_parse`).

The form of a class declaration cannot be read without the word (`requires_classWord`), and a chart
gives readings of the grammar alone. What is shifted for the word is spelled out in the source
(`Reader.Sound.shift`). Roles, nodes around pieces and comments between them leave the words in their
places.
-/
namespace Lineage.Php
open Lineage.Grammar (Reads Assembly)
open Lineage.Grammar.Automaton (OneRuleEach)

namespace SyntaxTree
variable {source : List UInt8} {t n u : SyntaxTree}

/-- The node is the word `class`, in capitals or small letters. -/
def IsClassWord (source : List UInt8) (t : SyntaxTree) : Prop :=
  t.kind = .token ∧ (t.bytes source).map lowerByte = classWord

/-- Every class declaration in the tree holds the word `class`. -/
def HasClassWords (source : List UInt8) (t : SyntaxTree) : Prop :=
  ∀ n ∈ t.nodes, n.kind = .classDeclaration → ∃ u ∈ n.nodes, u.IsClassWord source

instance (source : List UInt8) (t : SyntaxTree) : Decidable (t.IsClassWord source) :=
  inferInstanceAs (Decidable (_ ∧ _))

instance (source : List UInt8) (t : SyntaxTree) : Decidable (t.HasClassWords source) :=
  inferInstanceAs (Decidable (∀ n ∈ t.nodes, _ → ∃ u ∈ n.nodes, u.IsClassWord source))

/-! ## Building trees -/

theorem HasClassWords.of_children (h : ∀ c ∈ t.children, c.HasClassWords source)
    (hself : t.kind = .classDeclaration → ∃ c ∈ t.children, ∃ u ∈ c.nodes, u.IsClassWord source) :
    t.HasClassWords source := by
  intro n hn hkind
  rcases mem_nodes_iff.mp hn with rfl | ⟨c, hc, hn⟩
  · obtain ⟨c, hc, u, hu, hword⟩ := hself hkind
    exact ⟨u, nodes_subset_of_mem hc hu, hword⟩
  · exact h c hc n hn hkind

theorem HasClassWords.child (h : t.HasClassWords source) {c : SyntaxTree} (hc : c ∈ t.children) :
    c.HasClassWords source :=
  fun n hn => h n (nodes_subset_of_mem hc hn)

/-- The word of a class declaration stands below it. -/
theorem HasClassWords.below (h : t.HasClassWords source) (hkind : t.kind = .classDeclaration) :
    ∃ c ∈ t.children, ∃ u ∈ c.nodes, u.IsClassWord source := by
  obtain ⟨u, hu, hword⟩ := h t (self_mem_nodes t) hkind
  rcases mem_nodes_iff.mp hu with rfl | ⟨c, hc, hu⟩
  · rw [hword.1] at hkind
    cases hkind
  · exact ⟨c, hc, u, hu, hword⟩

theorem hasClassWords_leaf (hleaf : t.children = []) (hkind : t.kind ≠ .classDeclaration) :
    t.HasClassWords source :=
  .of_children (by simp [hleaf]) fun h => absurd h hkind

theorem HasClassWords.withRole (h : t.HasClassWords source) (r : Role) :
    (t.withRole r).HasClassWords source := by
  cases t with
  | node k r' m s cs => exact .of_children (fun c hc => h.child hc) fun hkind => h.below hkind

theorem hasClassWords_around {k : Kind} {cs : List SyntaxTree}
    (h : ∀ c ∈ cs, c.HasClassWords source)
    (hself : k = .classDeclaration → ∃ c ∈ cs, c.IsClassWord source) :
    (around k cs).HasClassWords source := by
  refine .of_children h fun hkind => ?_
  obtain ⟨c, hc, hword⟩ := hself hkind
  exact ⟨c, hc, c, self_mem_nodes c, hword⟩

/-! ## Comments -/

section Weave
variable {extras es : List SyntaxTree} {cs : List SyntaxTree} {c : SyntaxTree}

theorem weave_nil (t : SyntaxTree) : t.weave [] = t := by
  cases t with
  | node k r m s cs => simp [weave]

theorem weaveList_nil (ts : List SyntaxTree) : weaveList [] ts = ts := by
  induction ts with
  | nil => simp [weaveList]
  | cons t ts ih => simp [weaveList, ih]

@[simp]
theorem kind_weave (extras : List SyntaxTree) (t : SyntaxTree) :
    (t.weave extras).kind = t.kind := by
  cases t with
  | node k r m s cs => rw [weave]; rfl

@[simp]
theorem span_weave (extras : List SyntaxTree) (t : SyntaxTree) :
    (t.weave extras).span = t.span := by
  cases t with
  | node k r m s cs => rw [weave]; rfl

theorem children_weave (extras : List SyntaxTree) (t : SyntaxTree) : ∃ es ⊆ extras,
    (t.weave extras).children = weaveList es t.children := by
  cases t with
  | node k r m s cs =>
    refine ⟨extras.filter fun e => s.start ≤ e.span.start && e.span.stop ≤ s.stop,
      List.filter_subset_self _, ?_⟩
    rw [weave]
    dsimp only [children]
    split
    · rename_i hnil
      rw [List.isEmpty_iff.mp hnil, weaveList_nil]
    · rfl

theorem weaveList_cons (extras : List SyntaxTree) (t : SyntaxTree) (ts : List SyntaxTree) :
    ∃ ahead inside behind, ahead ⊆ extras ∧ inside ⊆ extras ∧ behind ⊆ extras ∧
      weaveList extras (t :: ts) = ahead ++ t.weave inside :: weaveList behind ts := by
  refine ⟨extras.filter fun e => e.span.start < t.span.start,
    extras.filter fun e => t.span.start ≤ e.span.start && e.span.stop ≤ t.span.stop,
    extras.filter fun e => t.span.stop ≤ e.span.start && t.span.start ≤ e.span.start,
    List.filter_subset_self _, List.filter_subset_self _, List.filter_subset_self _, ?_⟩
  rw [weaveList]
  split
  · rename_i hnil
    rw [List.isEmpty_iff.mp hnil, weave_nil]
  · rfl

/-- Among the children of a woven node are its own, woven, and extras. -/
theorem of_mem_weaveList (h : c ∈ weaveList extras cs) :
    c ∈ extras ∨ ∃ d ∈ cs, ∃ es ⊆ extras, c = d.weave es := by
  induction cs generalizing extras with
  | nil => exact Or.inl (by simpa [weaveList] using h)
  | cons t ts ih =>
    obtain ⟨ahead, inside, behind, hahead, hinside, hbehind, heq⟩ := weaveList_cons extras t ts
    rw [heq, List.mem_append, List.mem_cons] at h
    rcases h with h | rfl | h
    · exact Or.inl (hahead h)
    · exact Or.inr ⟨t, List.mem_cons_self, inside, hinside, rfl⟩
    · rcases ih h with h | ⟨d, hd, es, hes, rfl⟩
      · exact Or.inl (hbehind h)
      · exact Or.inr ⟨d, List.mem_cons_of_mem t hd, es, List.Subset.trans hes hbehind, rfl⟩

theorem exists_mem_weaveList (h : c ∈ cs) (extras : List SyntaxTree) :
    ∃ es, c.weave es ∈ weaveList extras cs := by
  induction cs generalizing extras with
  | nil => cases h
  | cons t ts ih =>
    obtain ⟨ahead, inside, behind, -, -, -, heq⟩ := weaveList_cons extras t ts
    rw [heq]
    rcases List.mem_cons.mp h with rfl | h
    · exact ⟨inside, List.mem_append_right _ List.mem_cons_self⟩
    · obtain ⟨es, hes⟩ := ih h behind
      exact ⟨es, List.mem_append_right _ (List.mem_cons_of_mem _ hes)⟩

/-- Every node is still there, with extras in it. -/
theorem exists_mem_nodes_weave (h : u ∈ t.nodes) (extras : List SyntaxTree) :
    ∃ es, u.weave es ∈ (t.weave extras).nodes := by
  induction t using induction generalizing extras with
  | node k r m s cs ih =>
    rcases mem_nodes_iff.mp h with rfl | ⟨c, hc, hu⟩
    · exact ⟨extras, self_mem_nodes _⟩
    · obtain ⟨inner, -, hchildren⟩ := children_weave extras (.node k r m s cs)
      obtain ⟨ds, hds⟩ := exists_mem_weaveList hc inner
      obtain ⟨es, hes⟩ := ih c hc hu ds
      exact ⟨es, nodes_subset_of_mem (hchildren ▸ hds) hes⟩

theorem IsClassWord.weave (h : u.IsClassWord source) (extras : List SyntaxTree) :
    (u.weave extras).IsClassWord source :=
  ⟨by rw [kind_weave]; exact h.1, by rw [bytes, span_weave]; exact h.2⟩

/-- Leaves that are no classes can be put between the nodes. -/
theorem HasClassWords.weave (h : t.HasClassWords source)
    (hextras : ∀ e ∈ extras, e.children = [] ∧ e.kind ≠ .classDeclaration) :
    (t.weave extras).HasClassWords source := by
  induction t using induction generalizing extras with
  | node k r m s cs ih =>
    obtain ⟨inner, hinner, hchildren⟩ := children_weave extras (.node k r m s cs)
    refine .of_children (fun c hc => ?_) fun hkind => ?_
    · rcases of_mem_weaveList (hchildren ▸ hc) with hc | ⟨d, hd, es, hes, rfl⟩
      · obtain ⟨hleaf, hkind⟩ := hextras c (hinner hc)
        exact hasClassWords_leaf hleaf hkind
      · exact ih d hd (h.child hd) fun e he => hextras e (hinner (hes he))
    · rw [kind_weave] at hkind
      obtain ⟨c, hc, u, hu, hword⟩ := h.below hkind
      obtain ⟨ds, hds⟩ := exists_mem_weaveList hc inner
      obtain ⟨es, hes⟩ := exists_mem_nodes_weave hu ds
      exact ⟨c.weave ds, hchildren ▸ hds, u.weave es, hes, hword.weave es⟩

end Weave

end SyntaxTree

/-! ## The grammar -/

namespace Grammar
variable {source : List UInt8}

/-- The rules go through the parts, each one once. -/
theorem perm_ctorIdx_rules : (List.range rules.length).Perm (rules.map (·.part.ctorIdx)) := by
  have hall : ∀ n < rules.length, n ∈ rules.map (·.part.ctorIdx) := by decide +kernel
  have hsub : List.range rules.length ⊆ rules.map (·.part.ctorIdx) :=
    fun n hn => hall n (List.mem_range.mp hn)
  exact (List.subperm_of_subset List.nodup_range hsub).perm_of_length_le (by simp)

theorem oneRuleEach : OneRuleEach rules where
  nodup := by
    have hnodup := perm_ctorIdx_rules.nodup_iff.mp List.nodup_range
    have hmap : rules.map (·.part.ctorIdx) = (rules.map (·.part)).map Part.ctorIdx := by
      rw [List.map_map]
      rfl
    exact List.Nodup.of_map Part.ctorIdx (hmap ▸ hnodup)
  all p := by
    have hlen : rules.length = 154 := by decide +kernel
    have hp : p.ctorIdx < rules.length := by rw [hlen]; cases p <;> decide
    obtain ⟨r, hr, hidx⟩ := List.mem_map.mp (perm_ctorIdx_rules.mem_iff.mp (List.mem_range.mpr hp))
    refine List.mem_map.mpr ⟨r, hr, ?_⟩
    rw [← Part.ofNat_ctorIdx r.part, hidx, Part.ofNat_ctorIdx]

/-- A class declaration cannot be read without the word `class`. -/
theorem requires_classWord : ∀ r ∈ rules, r.kind = some .classDeclaration →
    r.form.requires (.word "class") = true := by
  decide +kernel

/-- How the pieces of a PHP source are put together. -/
def assembly : Assembly Kind Role SyntaxTree := { node := .around, withRole := .withRole }

/-- What a token is read as: a leaf, and the word `class` as it stands in the source. -/
def Shifted (source : List UInt8) (t : Terminal) (pieces : List SyntaxTree) : Prop :=
  ∃ leaf : SyntaxTree, pieces = [leaf] ∧ leaf.children = [] ∧ leaf.kind ≠ .classDeclaration ∧
    (t = .word "class" → leaf.IsClassWord source)

theorem hasClassWords_inRole {role : Option Role} {ps : List SyntaxTree}
    (h : ∀ p ∈ ps, p.HasClassWords source) :
    ∀ p ∈ assembly.inRole role ps, p.HasClassWords source := by
  cases role with
  | none => exact h
  | some r =>
    intro p hp
    obtain ⟨q, hq, rfl⟩ := List.mem_map.mp hp
    exact (h q hq).withRole r

theorem isClassWord_of_inRole {role : Option Role} {leaf : SyntaxTree} {ps : List SyntaxTree}
    (h : leaf.IsClassWord source) (hsub : assembly.inRole role [leaf] ⊆ ps) :
    ∃ u ∈ ps, u.IsClassWord source := by
  cases role with
  | none => exact ⟨leaf, hsub List.mem_cons_self, h⟩
  | some r =>
    cases leaf with
    | node k r' m s cs => exact ⟨_, hsub List.mem_cons_self, h⟩

/-- Whatever the grammar reads, class declarations hold the word. -/
theorem hasClassWords_of_reads {role : Option Role} {f : Form} {ps : List SyntaxTree}
    (h : Reads rules assembly (Shifted source) role f ps) : ∀ p ∈ ps, p.HasClassWords source := by
  induction h with
  | token hshifted =>
    obtain ⟨leaf, rfl, hleaf, hkind, -⟩ := hshifted
    refine hasClassWords_inRole fun p hp => ?_
    obtain rfl := List.mem_singleton.mp hp
    exact SyntaxTree.hasClassWords_leaf hleaf hkind
  | @part role r ps hr hreads ih =>
    refine hasClassWords_inRole ?_
    cases hkind : r.kind with
    | none => exact ih
    | some k =>
      intro p hp
      obtain rfl := List.mem_singleton.mp hp
      refine SyntaxTree.hasClassWords_around ih ?_
      rintro rfl
      obtain ⟨role', qs, ⟨leaf, rfl, -, -, hword⟩, hsub⟩ :=
        hreads.token_of_requires (requires_classWord r hr hkind)
      exact isClassWord_of_inRole (hword rfl) hsub
  | inRole _ ih | choice _ _ ih | take _ ih => exact ih
  | nil | skip | none => simp
  | cons _ _ ih₁ ih₂ | more _ _ ih₁ ih₂ =>
    intro p hp
    exact (List.mem_append.mp hp).elim (ih₁ p) (ih₂ p)

end Grammar

/-! ## Reading a source -/

namespace Reader
open Lineage.Php.Grammar
variable {bytes : List UInt8} {r r' : Reader}

/-- What holds of a reader at every place of the source. -/
structure Sound (bytes : List UInt8) (r : Reader) : Prop where
  chart : r.chart.Sound rules assembly (Shifted bytes)
  rest : r.rest <:+ Glyph.ofBytes bytes
  extras : ∀ e ∈ r.extras, e.children = [] ∧ e.kind ≠ .classDeclaration

theorem Sound.shift {t : Terminal} {start rest : List Glyph} (h : r.Sound bytes)
    (hfound : (Lexical.Lexeme.token t start rest).Found r.rest) :
    (r.shift (Glyph.endOf bytes) t start rest).Sound bytes := by
  obtain ⟨hstart, hrest, hword⟩ := hfound
  have hstart := hstart.trans h.rest
  refine ⟨h.chart.shift oneRuleEach ⟨_, rfl, rfl, ?_, ?_⟩, hrest.trans hstart, h.extras⟩
  · dsimp only [SyntaxTree.kind]
    split <;> simp
  · rintro rfl
    exact ⟨rfl, map_lowerByte_of_spelled hstart (by decide) (by decide) (hword "class" rfl)⟩

theorem Sound.pass {kind : Kind} {start rest : List Glyph} (h : r.Sound bytes)
    (hrest : rest <:+ r.rest) (hkind : kind ≠ .classDeclaration) :
    (r.pass (Glyph.endOf bytes) kind start rest).Sound bytes := by
  refine ⟨h.chart, hrest.trans h.rest, fun e he => ?_⟩
  rcases List.mem_cons.mp he with rfl | he
  · exact ⟨rfl, hkind⟩
  · exact h.extras e he

theorem Sound.run {fuel : Nat} (h : r.Sound bytes)
    (hrun : r.run (Glyph.endOf bytes) fuel = .ok r') : r'.Sound bytes := by
  induction fuel generalizing r with
  | zero => cases hrun
  | succ fuel ih =>
    have hfound := Lexical.next_found r.chart.expects (r.labels.head?.getD []) r.rest
    rw [← ahead] at hfound
    rw [Reader.run] at hrun
    split at hrun
    · rename_i t start rest heq
      exact ih (h.shift (heq ▸ hfound)) hrun
    · rename_i start rest heq
      rw [heq] at hfound
      exact ih (h.pass (hfound.2.trans hfound.1) (by simp)) hrun
    · rename_i start rest heq
      rw [heq] at hfound
      split at hrun
      · rename_i behind hbehind
        have hsuffix := Lexical.suffix_of_behindClosingTag? hbehind
        exact ih (h.pass (hsuffix.trans (hfound.2.trans hfound.1)) (by simp)) hrun
      · cases hrun
    · split at hrun
      · cases hrun
        exact h
      · cases hrun
    · cases hrun

end Reader

theorem Repair.hasError_mark (theEnd : Glyph) (r : Reader) : (mark theEnd r).hasError = true := by
  rw [mark]
  dsimp only
  split <;> simp_all [SyntaxTree.hasError]

/-- **Trees without faults.** Every class declaration in the tree of a source holds the word. -/
theorem hasClassWords_parse {bytes : List UInt8} (h : (parse bytes).hasError = false) :
    (parse bytes).HasClassWords bytes := by
  have hfault : ∀ {whole r}, (SyntaxTree.node .program none false whole
      [Repair.mark (Glyph.endOf bytes) r]).hasError = true := by
    intro whole r
    simp [SyntaxTree.hasError, SyntaxTree.anyError, Repair.hasError_mark]
  rw [parse] at h ⊢
  dsimp only at h ⊢
  split at h
  · rw [hfault] at h
    cases h
  · rename_i rest houtside
    split at h
    · rename_i r hrun
      have hsound : r.Sound bytes := by
        refine Reader.Sound.run ⟨?_, ?_, by simp⟩ hrun
        · exact Lineage.Grammar.Chart.sound_start (by decide)
        · exact Lexical.suffix_of_outside? houtside
      refine SyntaxTree.HasClassWords.weave (.of_children ?_ (by simp [SyntaxTree.kind])) ?_
      · intro c hc
        cases hresult : r.chart.result? with
        | none => simp [hresult, SyntaxTree.children] at hc
        | some pieces =>
          obtain ⟨rule, -, hreads⟩ := hsound.chart.reads hresult
          refine Grammar.hasClassWords_of_reads hreads c ?_
          simpa [hresult, SyntaxTree.children] using hc
      · exact fun e he => hsound.extras e (List.mem_reverse.mp he)
    · rw [hfault] at h
      cases h

end Lineage.Php
