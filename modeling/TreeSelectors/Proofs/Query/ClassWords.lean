import TreeSelectors.Proofs.Query.Selection
import TreeSelectors.Proofs.Tree.DocumentCoherence
import TreeSelectors.Proofs.Tree.Histories

namespace TreeSelectors

/-!
# Classes as words

A class selector and a word test of the class attribute both look for a word of
one text, but only the test takes every white space for a separator. They give
the same answers at a node exactly if all white space in its class attribute is
ASCII white space: `DocumentTree.class_answers`.
-/

open TreeSelectors.Text

/-- The test for a word of the class attribute, case counting. -/
def AttributeTest.classWord (name : String) : AttributeTest :=
  ⟨"class", none, some .includes, some name, some .sensitive⟩

/-- The classes of an element are the words of its class attribute. -/
theorem Element.mem_classes_iff
    {element : Element}
    {name : String} :
    name ∈ element.classes ↔
      ∃ value, element.attribute? "class" = some value ∧
        IsWord isAsciiWhiteSpace value.toList name.toList := by
  rw [classes]
  cases element.attribute? "class" with
  | none => simp
  | some value =>
      simp only [Option.some.injEq, exists_eq_left', List.mem_map, ← mem_wordsBy_iff]
      constructor
      · rintro ⟨word, found, same⟩
        rw [← same, String.toList_ofList]
        exact found
      · intro found
        exact ⟨name.toList, found, String.ofList_toList⟩

namespace DocumentTree

/-- The text of the class attribute of a node, empty where there is none. -/
def classText (tree : DocumentTree) (node : NodeId) : List Char :=
  match tree.view.attribute? node "class" with
  | none => []
  | some value => value.toList

section Words

variable {tree : DocumentTree} {node : NodeId}

theorem isWord_classText_iff
    {separates : Char → Bool}
    {word : List Char} :
    IsWord separates (tree.classText node) word ↔
      ∃ value, tree.view.attribute? node "class" = some value ∧
        IsWord separates value.toList word := by
  rw [classText]
  cases tree.view.attribute? node "class" with
  | none => simp [not_isWord_nil]
  | some value => simp

theorem hasClass_iff
    {name : String} :
    tree.view.hasClass node name = true ↔
      IsWord isAsciiWhiteSpace (tree.classText node) name.toList := by
  rw [isWord_classText_iff]
  simp only [view]
  cases tree.element? node with
  | none => simp
  | some data => simp [Element.mem_classes_iff]

theorem accepts_classWord_iff
    {name : String} :
    (AttributeTest.classWord name).Accepts tree.view node ↔
      IsWord isWhiteSpace (tree.classText node) name.toList := by
  rw [isWord_classText_iff]
  simp [AttributeTest.Accepts, AttributeTest.classWord, AttributeMatcher.Relates,
    AttributeMatcher.RelatesUnder]

/-- Only elements have words in their class attribute. -/
theorem isElement_of_isWord
    {separates : Char → Bool}
    {word : List Char}
    (isWord : IsWord separates (tree.classText node) word) :
    tree.view.isElement node = true := by
  obtain ⟨value, found, _⟩ := isWord_classText_iff.mp isWord
  obtain ⟨data, known, _⟩ := Option.bind_eq_some_iff.mp found
  exact isElement_iff.mpr ⟨data, known⟩

end Words

/-- What a class selector and the word test for the same name answer at a node. -/
structure ClassAnswers
    (tree : DocumentTree)
    (rules : ArgumentRules)
    (node : NodeId)
    (name : String) : Prop where
  byClass :
    Decides (tree.view.selects rules node (.selectors [.className name]))
      (IsWord isAsciiWhiteSpace (tree.classText node) name.toList)
  byWord :
    Decides (tree.view.selects rules node (.selectors [.attribute (.classWord name)]))
      (IsWord isWhiteSpace (tree.classText node) name.toList)

theorem classAnswers
    (tree : DocumentTree)
    (rules : ArgumentRules)
    (node : NodeId)
    (name : String) :
    tree.ClassAnswers rules node name where
  byClass := by
    refine (TreeView.selects_className name).congr ?_
    rw [hasClass_iff]
    exact and_iff_right_of_imp isElement_of_isWord
  byWord := by
    refine (TreeView.selects_attribute (by simp [AttributeTest.classWord])).congr ?_
    rw [accepts_classWord_iff]
    exact and_iff_right_of_imp isElement_of_isWord

/-- A class selector and the word test for the same name give the same answer at a node. -/
def ClassIsWord
    (tree : DocumentTree)
    (rules : ArgumentRules)
    (node : NodeId)
    (name : String) : Prop :=
  tree.view.selects rules node (.selectors [.className name]) =
    tree.view.selects rules node (.selectors [.attribute (.classWord name)])

/--
A class selector looks for a word between ASCII white space and a word test for one between white
space of any kind. They agree on all names exactly if no other white space stands in the class
attribute.
-/
theorem class_answers
    (tree : DocumentTree)
    (rules : ArgumentRules)
    (node : NodeId) :
    (∀ name, tree.ClassAnswers rules node name) ∧
      ((∀ name, name ≠ "" → tree.ClassIsWord rules node name) ↔
        ∀ char ∈ tree.classText node,
          isWhiteSpace char = true → isAsciiWhiteSpace char = true) := by
  refine ⟨tree.classAnswers rules node, ?_⟩
  rw [← forall_isWord_iff_iff isWhiteSpace_of_isAsciiWhiteSpace]
  have same : ∀ name, tree.ClassIsWord rules node name ↔ _ := fun name =>
    (tree.classAnswers rules node name).byClass.eq_iff
      (tree.classAnswers rules node name).byWord
  simp only [same]
  constructor
  · intro agree word
    by_cases empty : word = []
    · subst empty
      exact ⟨fun isWord => absurd rfl isWord.nonempty, fun isWord => absurd rfl isWord.nonempty⟩
    · simpa using agree (String.ofList word) (by simpa using empty)
  · intro sameWords name _
    exact sameWords name.toList

/-- A document whose only element has one class with a no-break space in it. -/
def noBreakClass : DocumentTree :=
  .build [.appendElement DocumentTree.root ⟨"a", none, [("class", "x\u00a0y")]⟩]

/-- The no-break space ends a word for the test, but not for the class selector. -/
theorem not_classIsWord_noBreakSpace :
    noBreakClass.isElement 1 = true ∧ ¬ noBreakClass.ClassIsWord .standard 1 "x" := by
  refine ⟨by decide, ?_⟩
  have byClass : noBreakClass.view.selects .standard 1 (.selectors [.className "x"]) =
      .ok false := by
    decide +kernel
  have byWord : noBreakClass.view.selects .standard 1
      (.selectors [.attribute (.classWord "x")]) = .ok true := by
    decide +kernel
  rw [ClassIsWord, byClass, byWord]
  intro same
  cases same

end DocumentTree

end TreeSelectors
