import TreeSelectors.Proofs.Matching.Decision
import TreeSelectors.Proofs.Query.Searches

namespace TreeSelectors.TreeView

/-!
# What it means to be selected

In every tree that is queried, asking whether an element is selected by a
supported subject is answered by the meaning of its selectors. What a chain of
combinators means there is that a way leads along them to the element.
-/

section Alone

variable {view : TreeView} {rules : ArgumentRules} {node : NodeId}

/-- A selector that is free of relative ones is asked about by matching it. -/
theorem selects_singleton_decides
    {selector : Selector}
    {property : Prop}
    (free : selector.RelativeFree)
    (decides : Decides (Selector.holdsAt view selector node) property) :
    Decides (view.selects rules node (.selectors [selector])) property := by
  rw [selects_alone rfl free]
  exact decides.mapError _

/-- Asking for a class finds the elements that have it. -/
theorem selects_className
    (name : String) :
    Decides (view.selects rules node (.selectors [.className name]))
      (view.isElement node = true ∧ view.hasClass node name = true) := by
  have free : (Selector.className name).RelativeFree :=
    Selector.RelativeFree.of_children rfl (List.forall_mem_nil _)
  refine selects_singleton_decides free ?_
  rw [Selector.holdsAt]
  by_cases element : view.isElement node = true
  · rw [if_pos element]
    exact .of_iff (by simp [element])
  · rw [if_neg element]
    exact .of_iff (by simp [element])

/-- Asking for an attribute finds the elements that the test accepts. -/
theorem selects_attribute
    {test : AttributeTest}
    (usable : ∀ char, test.matcher ≠ some (.other char)) :
    Decides (view.selects rules node (.selectors [.attribute test]))
      (view.isElement node = true ∧ test.Accepts view node) := by
  have free : (Selector.attribute test).RelativeFree :=
    Selector.RelativeFree.of_children rfl (List.forall_mem_nil _)
  refine selects_singleton_decides free ?_
  rw [Selector.holdsAt]
  by_cases element : view.isElement node = true
  · rw [if_pos element]
    exact (test.holdsAt_decides usable view node).congr (by simp [element])
  · rw [if_neg element]
    exact .of_iff (by simp [element])

/-- The same for any test: one that is not supported selects nothing. -/
theorem selects_attribute_eq_true_iff
    {test : AttributeTest} :
    view.selects rules node (.selectors [.attribute test]) = .ok true ↔
      view.isElement node = true ∧ test.Accepts view node := by
  have free : (Selector.attribute test).RelativeFree :=
    Selector.RelativeFree.of_children rfl (List.forall_mem_nil _)
  rw [selects_alone rfl free, Selector.holdsAt, ← AttributeTest.holdsAt_eq_true_iff]
  by_cases element : view.isElement node = true
  · rw [if_pos element]
    cases test.holdsAt view node <;> simp [element, Except.mapError]
  · rw [if_neg element]
    simp [element, Except.mapError]

end Alone

/-- A document with a list of two items. -/
def itemList : DocumentTree :=
  let (list, tree) := DocumentTree.empty.appendNew DocumentTree.root (.element ⟨"ul", none, []⟩)
  let (_, tree) := tree.appendNew list (.element ⟨"li", none, [("class", "first")]⟩)
  (tree.appendNew list (.element ⟨"li", none, []⟩)).2

/-- The second item, as a child of the list that is not its first. -/
def laterItem : Selector :=
  .complex (.typeName "ul" none) .child
    (.compound
      [.typeName "li" none,
        .pseudo .pseudoClass "not" (.selectors [.pseudo .pseudoClass "first-child" .absent])])

theorem itemList_reachable :
    itemList.Reachable :=
  ((DocumentTree.Reachable.empty.appendNew _ _).appendNew _ _).appendNew _ _

theorem itemList_acyclic :
    itemList.Acyclic := by
  apply DocumentTree.acyclic_of_parent_lt
  intro node parent parented
  have small : node < 4 := DocumentTree.lt_size_of_parent? parented
  have older : ∀ node < 4, ∀ parent ∈ itemList.parent? node, parent < node := by decide
  exact older node small parent parented

theorem laterItem_supported :
    laterItem.Supported := by
  intro part occurs
  have walked := Selector.mem_walk_iff.mpr occurs
  simp only [laterItem, Selector.walk, Selector.walkQueue, Selector.children,
    Selector.argumentMembers, List.nil_append, List.append_nil, List.mem_cons, List.not_mem_nil,
    or_false] at walked
  rcases walked with same | same | same | same | same | same <;> subst same
  · trivial
  · trivial
  · trivial
  · trivial
  · exact ⟨.notAny, by decide +kernel, Or.inr ⟨_, rfl⟩⟩
  · exact ⟨.firstChild, by decide +kernel, trivial⟩

end TreeSelectors.TreeView
