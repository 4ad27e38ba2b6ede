import Lineage.Php.Extraction
import Lineage.Proofs.ClassNames

/-!
# Names of parents

The name behind `extends` and the name in a type are read by two functions. A type keeps all segments
of a name, taken apart from the left. Of a parent only the last segment counts, and it is looked for
from the right, up to the first piece that is not blank. Classes find their parents by that segment
alone, so the two have to take names apart alike.

**Result.** `parentName?_last_segment`: the parent's name is the last segment of the type that the
same node would be. Hence it is a segment (`TypeRef.IsSegment`), and backslashes and blanks at either
end of the name make no difference.
-/
namespace Lineage.Php.SyntaxTree

/-- The node of the class that `t` extends, as it is written. -/
def extended? (t : SyntaxTree) : Option SyntaxTree :=
  (t.childOfKind? .baseClause).bind fun clause =>
    clause.namedChildren.find? fun c => c.kind == .name || c.kind == .qualifiedName

theorem parentName?_eq (source : List UInt8) (t : SyntaxTree) :
    t.parentName? source =
      t.extended?.bind fun target => (target.text? source).bind lastSegment? := by
  rw [extended?, Option.bind_assoc]
  rfl

/-- A node that may stand behind `extends` is read as a path where it stands for a type. -/
theorem typeRef?_of_extended? {t target : SyntaxTree} (h : t.extended? = some target)
    (source : List UInt8) : target.typeRef? source = (target.text? source).map .ofPath := by
  obtain ⟨clause, -, hfind⟩ := Option.bind_eq_some_iff.mp h
  have hkind := List.find?_some hfind
  cases target with
  | node k r m s cs =>
    rw [Bool.or_eq_true, beq_iff_eq, beq_iff_eq] at hkind
    rcases hkind with hkind | hkind <;> cases hkind <;> simp [typeRef?]

/-- The first hit from the right is the last one from the left. -/
theorem lastSegment?_eq (name : String) :
    lastSegment? name = (TypeRef.segments name).getLast? := by
  rw [lastSegment?, ← List.head?_filter, List.filter_reverse, List.head?_reverse, TypeRef.segments,
    List.getLast?_map]

theorem isSegment_of_lastSegment? {name x : String} (h : lastSegment? name = some x) :
    TypeRef.IsSegment x := by
  rw [lastSegment?_eq] at h
  exact TypeRef.isSegment_of_mem (List.mem_of_getLast? h)

theorem lastSegment?_separating {w v : String} (hw : TypeRef.Separating w.toList)
    (hv : TypeRef.Separating v.toList) (name : String) :
    lastSegment? (w ++ name ++ v) = lastSegment? name := by
  rw [lastSegment?_eq, lastSegment?_eq, TypeRef.segments_eq, TypeRef.segments_eq,
    String.toList_append, String.toList_append, TypeRef.cut_append_separating hv,
    TypeRef.cut_separating_append hw]

/-- **Names of parents.** The name of the parent is the last segment of the path that the text behind
`extends` is as a type. With such a text it is missing exactly if the path has no segments. It has no
backslash and no blanks at its ends, and backslashes and blanks around the text do not change it. -/
theorem parentName?_last_segment :
    (∀ (source : List UInt8) (t : SyntaxTree), t.extended? = none → t.parentName? source = none) ∧
    (∀ (source : List UInt8) (t target : SyntaxTree), t.extended? = some target →
      t.parentName? source = (target.text? source).bind lastSegment? ∧
        target.typeRef? source = (target.text? source).map .ofPath) ∧
    ∀ name : String, ∃ segments, TypeRef.ofPath name = .qualified segments ∧
      lastSegment? name = segments.getLast? ∧ (lastSegment? name = none ↔ segments = []) ∧
      (∀ x, lastSegment? name = some x → '\\' ∉ x.toList ∧ Text.Trimmed x.toList ∧ x ≠ "") ∧
      ∀ w v : String, TypeRef.Separating w.toList → TypeRef.Separating v.toList →
        lastSegment? (w ++ name ++ v) = lastSegment? name := by
  refine ⟨?_, ?_, fun name => ⟨_, rfl, lastSegment?_eq name, ?_, ?_, ?_⟩⟩
  · intro source t h
    rw [parentName?_eq, h, Option.bind_none]
  · intro source t target h
    rw [parentName?_eq, h, Option.bind_some]
    exact ⟨rfl, typeRef?_of_extended? h source⟩
  · rw [lastSegment?_eq, List.getLast?_eq_none_iff]
  · intro x hx
    have hsegment := isSegment_of_lastSegment? hx
    exact ⟨hsegment.one, hsegment.trimmed, hsegment.nonempty⟩
  · intro w v hw hv
    exact lastSegment?_separating hw hv name

/-- The name of the parent of `widgetClass`. -/
def widgetParent : SyntaxTree := .node .qualifiedName none false ⟨16, 25, 0⟩ []

def widgetClass : SyntaxTree :=
  .node .classDeclaration none false ⟨0, 28, 0⟩
    [.node .token none false ⟨0, 5, 0⟩ [], .node .name (some .name) false ⟨6, 7, 0⟩ [],
     .node .baseClause none false ⟨8, 25, 0⟩ [.node .token none false ⟨8, 15, 0⟩ [], widgetParent],
     .node .declarationList (some .body) false ⟨26, 28, 0⟩ []]

/-- The bytes of `class W extends \App\Base {}`. -/
def widgetSource : List UInt8 :=
  [99, 108, 97, 115, 115, 32, 87, 32, 101, 120, 116, 101, 110, 100, 115, 32, 92, 65, 112, 112, 92, 66,
    97, 115, 101, 32, 123, 125]

/-- With blanks, backslashes and a no-break space around it the name is still the same. -/
theorem widget_last_segment :
    widgetClass.extended? = some widgetParent ∧
      widgetClass.parentName? widgetSource =
        (widgetParent.text? widgetSource).bind lastSegment? ∧
      widgetClass.parentName? widgetSource = some "Base" ∧
      lastSegment? ("\\ " ++ "App\\Base" ++ "\u00a0\\\\") = lastSegment? "App\\Base" := by
  obtain ⟨-, htree, hname⟩ := parentName?_last_segment
  obtain ⟨_, -, -, -, -, hseparating⟩ := hname "App\\Base"
  have hextended : widgetClass.extended? = some widgetParent := rfl
  exact ⟨hextended, (htree widgetSource _ _ hextended).1, by decide,
    hseparating "\\ " "\u00a0\\\\" (by decide) (by decide)⟩

end Lineage.Php.SyntaxTree
