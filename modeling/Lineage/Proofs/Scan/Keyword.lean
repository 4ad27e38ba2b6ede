import Lineage.Proofs.Php.Classes
import Lineage.Proofs.Php.Keyword
import Lineage.Proofs.Scan.Failures

/-!
# Files that are not parsed

A file whose bytes never mention `class` is not parsed: it is taken to have no classes. No class is
lost by that (`skipping_loses_no_class`). A record comes from a class declaration in a tree without
faults; the declaration holds the word `class`, and the bytes of the word are bytes of the file.

The theorem is stated for the files of a tree, read by the grammar of PHP, and for every parser that
puts the word below its class declarations.
-/
namespace Lineage

namespace Php.SyntaxTree
variable {source : List UInt8} {t u : SyntaxTree}

theorem IsClassWord.mentionsClass (h : u.IsClassWord source) : MentionsClass source := by
  rw [MentionsClass, ← h.2, bytes]
  exact ((List.take_prefix _ _).isInfix.trans (List.drop_suffix _ _).isInfix).map lowerByte

/-- A tree with a class in it comes from a source that mentions one. -/
theorem mentionsClass_of_classes {file : String} (hwords : t.HasClassWords source)
    (h : t.classes source file ≠ []) : MentionsClass source := by
  have hsites : t.classSites source ≠ [] := by
    intro hnil
    have hrecords := forall₂_classes source file t
    rw [hnil, List.forall₂_nil_left_iff] at hrecords
    exact h hrecords
  obtain ⟨⟨p, c⟩, hc⟩ := List.exists_mem_of_ne_nil _ hsites
  obtain ⟨u, -, hword⟩ := hwords c (mem_nodes_of_mem_classSites hc) (mem_classSites.mp hc).kind
  exact hword.mentionsClass

end Php.SyntaxTree

namespace SourceReader
open Php (SyntaxTree mayDeclareClass mayDeclareClass_iff)

/-- Files that are not parsed cost no class: a file gives the records that are found in its bytes,
and where there is one the bytes mention `class`. -/
structure LosesNoClass (r : SourceReader) : Prop where
  records : ∀ path bytes ds, r.read path = .ok bytes → r.extract path bytes = .ok ds →
    r.extractFile path = .ok ds
  mentioned : ∀ file bytes ds, r.extract file bytes = .ok ds → ds ≠ [] →
    mayDeclareClass bytes = true

theorem losesNoClass_of_mentioned {r : SourceReader}
    (h : ∀ file bytes ds, r.extract file bytes = .ok ds → ds ≠ [] → Php.MentionsClass bytes) :
    r.LosesNoClass where
  records path bytes ds hread hextract := by
    rw [extractFile_of_read_ok hread]
    split
    · exact hextract
    · -- A file that is skipped had nothing to lose.
      rename_i hclass
      have hnil : ds = [] := by
        by_contra hne
        exact hclass (h path bytes ds hextract hne)
      rw [hnil]
  mentioned file bytes ds hextract hne := mayDeclareClass_iff.mpr (h file bytes ds hextract hne)

theorem losesNoClass_of_hasClassWords (parse : List UInt8 → SyntaxTree) {r : SourceReader}
    (hwords : ∀ bytes, (parse bytes).hasError = false → (parse bytes).HasClassWords bytes)
    (hextract : ∀ file bytes, r.extract file bytes = (parse bytes).extract bytes file) :
    r.LosesNoClass := by
  refine losesNoClass_of_mentioned fun file bytes ds hok hne => ?_
  rw [hextract, SyntaxTree.extract] at hok
  split at hok
  · cases hok
  · rename_i hclean
    obtain rfl := Except.ok.inj hok
    exact SyntaxTree.mentionsClass_of_classes (hwords bytes (by simpa using hclean)) hne

/-- **Skipping files without the word `class` loses no class.** This holds of the files of a tree,
and of every parser whose class declarations, in trees without faults, hold the word. -/
theorem skipping_loses_no_class :
    (∀ t : FileTree, t.reader.LosesNoClass) ∧
      ∀ (parse : List UInt8 → SyntaxTree) (r : SourceReader),
        (∀ bytes, (parse bytes).hasError = false → (parse bytes).HasClassWords bytes) →
        (∀ file bytes, r.extract file bytes = (parse bytes).extract bytes file) →
        r.LosesNoClass := by
  constructor
  · intro t
    exact losesNoClass_of_hasClassWords Php.parse (fun _ => Php.hasClassWords_parse) fun _ _ => rfl
  · intro parse r hwords hextract
    exact losesNoClass_of_hasClassWords parse hwords hextract

/-- A class behind a comment that is not UTF-8, with its keyword in mixed letters. -/
def mixedLetters : List UInt8 :=
  Text.Utf8.encode "<?php\n// " ++ [0xE9] ++ Text.Utf8.encode "\nCLaSS Model \x7b\x7d\n"

/-- The tree of `mixedLetters`. -/
def mixedLettersTree : SyntaxTree :=
  .node .program none false ⟨0, 26, 0⟩ [
    .node .comment none false ⟨6, 10, 1⟩ [],
    .node .classDeclaration none false ⟨11, 25, 2⟩ [
      .node .token none false ⟨11, 16, 2⟩ [],
      .node .name (some .name) false ⟨17, 22, 2⟩ [],
      .node .declarationList (some .body) false ⟨23, 25, 2⟩ [
        .node .token none false ⟨23, 24, 2⟩ [],
        .node .token none false ⟨24, 25, 2⟩ []]]]

/-- A parser that knows `mixedLetters` alone. -/
def mixedLettersParse (bytes : List UInt8) : SyntaxTree :=
  if bytes = mixedLetters then mixedLettersTree else .node .error none false default []

def mixedLettersReader : SourceReader where
  read _ := .ok mixedLetters
  extract file bytes := (mixedLettersParse bytes).extract bytes file

theorem mixedLetters_lost_no_class :
    mixedLettersTree.hasError = false ∧ mixedLettersTree.HasClassWords mixedLetters ∧
      mixedLettersReader.extractFile "a.php" =
        .ok [{ name := "Model", location := some ⟨"a.php", 3⟩ }] ∧
      mayDeclareClass mixedLetters = true := by
  have hclean : mixedLettersTree.hasError = false := by decide
  have hwords : mixedLettersTree.HasClassWords mixedLetters := by decide +kernel
  have hextract : mixedLettersReader.extract "a.php" mixedLetters =
      .ok [{ name := "Model", location := some ⟨"a.php", 3⟩ }] := by
    have hclasses : mixedLettersTree.classes mixedLetters "a.php" =
        [{ name := "Model", location := some ⟨"a.php", 3⟩ }] := by decide +kernel
    simp [mixedLettersReader, mixedLettersParse, SyntaxTree.extract, hclean, hclasses]
  have hparse : ∀ bytes, (mixedLettersParse bytes).hasError = false →
      (mixedLettersParse bytes).HasClassWords bytes := by
    intro bytes hbytes
    unfold mixedLettersParse at hbytes ⊢
    split at hbytes
    · rename_i heq
      rw [heq, if_pos rfl]
      exact hwords
    · cases hbytes
  have h := skipping_loses_no_class.2 mixedLettersParse mixedLettersReader hparse fun _ _ => rfl
  exact ⟨hclean, hwords, h.records "a.php" mixedLetters _ rfl hextract,
    h.mentioned "a.php" mixedLetters _ hextract (by simp)⟩

end SourceReader
end Lineage
