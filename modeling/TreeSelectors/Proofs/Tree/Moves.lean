import TreeSelectors.Proofs.Tree.Histories

namespace TreeSelectors.DocumentTree

/-!
# Moving one node

Appending a child takes it out of the list it is in and puts it at the end of
another, which may be the same list, or the list of a node below it. `Moved`
says all that may be different afterwards. In trees that have been built a call
moves its node in this way, or changes nothing at all:
`Reachable.appendChild_moves`.
-/

/-- One node has been moved behind the children of another, and nothing else has changed. -/
structure Moved (before after : DocumentTree) (parent child : NodeId) : Prop where
  newParent :
    after.parent? child = some parent
  newSiblings :
    after.children parent = (before.children parent).filter (· ≠ child) ++ [child]
  formerSiblings :
    ∀ {former},
      before.parent? child = some former →
      former ≠ parent →
      after.children former = (before.children former).filter (· ≠ child)
  otherParents :
    ∀ {node}, node ≠ child → after.parent? node = before.parent? node
  otherChildren :
    ∀ {node},
      node ≠ parent →
      before.parent? child ≠ some node →
      after.children node = before.children node
  size :
    after.size = before.size
  contents :
    ∀ node, after.content? node = before.content? node

variable {tree : DocumentTree} {parent child : NodeId}

namespace Linked

/-- The slot of a node is where it is found in a list, and it is nowhere else in it. -/
theorem eraseIdx_slot
    (linked : tree.Linked)
    (parented : tree.parent? child = some parent) :
    (tree.children parent).eraseIdx (tree.slot child) =
      (tree.children parent).filter (· ≠ child) := by
  obtain ⟨inside, found⟩ := List.getElem?_eq_some_iff.mp (linked.ownPlace parented)
  have distinct := linked.children_nodup parent
  rw [← distinct.erase_getElem _ inside, found, distinct.erase_eq_filter]
  congr 1
  funext node
  by_cases same : node = child <;> simp [same]

/-- A node is missing from the list of everyone who is not its parent. -/
theorem filter_children_of_parent?
    (linked : tree.Linked)
    {node : NodeId}
    (notParent : tree.parent? child ≠ some node) :
    (tree.children node).filter (· ≠ child) = tree.children node := by
  rw [List.filter_eq_self]
  intro other member
  have different : other ≠ child := by
    intro same
    subst same
    exact notParent (linked.parent?_of_mem member)
  simpa using different

/-- A node that has been taken is in no list any more, and every list keeps its other nodes. -/
theorem children_detach_eq_filter
    (linked : tree.Linked)
    (child node : NodeId) :
    (tree.detach child).children node = (tree.children node).filter (· ≠ child) := by
  cases parented : tree.parent? child with
  | none =>
      rw [detach_of_parent?_eq_none parented, linked.filter_children_of_parent?]
      simp [parented]
  | some former =>
      rw [children_detach parented]
      by_cases same : node = former
      · subst same
        rw [if_pos rfl, linked.eraseIdx_slot parented]
      · rw [if_neg same, linked.filter_children_of_parent?]
        rw [parented, ne_eq, Option.some.injEq]
        exact Ne.symm same

end Linked

section Valid

variable (valid : child < tree.size ∧ parent < tree.size ∧ parent ≠ child)
include valid

theorem appendChild_eq :
    tree.appendChild parent child = (tree.detach child).attach parent child :=
  if_pos valid

theorem size_appendChild :
    (tree.appendChild parent child).size = tree.size := by
  rw [appendChild_eq valid, attach, size_modify, size_modify, size_detach]

theorem content?_appendChild
    (node : NodeId) :
    (tree.appendChild parent child).content? node = tree.content? node := by
  rw [appendChild_eq valid, content?_attach, content?_detach]

theorem parent?_appendChild
    (node : NodeId) :
    (tree.appendChild parent child).parent? node =
      if node = child then some parent else tree.parent? node := by
  rw [appendChild_eq valid, parent?_attach (by simpa using valid.1), parent?_detach]
  split <;> rfl

theorem Linked.children_appendChild
    (linked : tree.Linked)
    (node : NodeId) :
    (tree.appendChild parent child).children node =
      (tree.children node).filter (· ≠ child) ++ if node = parent then [child] else [] := by
  rw [appendChild_eq valid, children_attach (by simpa using valid.2.1)]
  split
  · next same =>
      subst same
      rw [linked.children_detach_eq_filter]
  · rw [linked.children_detach_eq_filter, List.append_nil]

end Valid

/-- A call to append a child moves it, if there are two such nodes, and does nothing otherwise. -/
theorem Reachable.appendChild_moves
    (reachable : tree.Reachable)
    (parent child : NodeId) :
    if child < tree.size ∧ parent < tree.size ∧ parent ≠ child then
      tree.Moved (tree.appendChild parent child) parent child
    else
      tree.appendChild parent child = tree := by
  have linked := reachable.linked
  split
  · next valid =>
      constructor
      · rw [parent?_appendChild valid, if_pos rfl]
      · rw [linked.children_appendChild valid, if_pos rfl]
      · intro former _ elsewhere
        rw [linked.children_appendChild valid, if_neg elsewhere, List.append_nil]
      · intro node different
        rw [parent?_appendChild valid, if_neg different]
      · intro node notParent notFormer
        rw [linked.children_appendChild valid, if_neg notParent, List.append_nil,
          linked.filter_children_of_parent? notFormer]
      · exact size_appendChild valid
      · exact content?_appendChild valid
  · next invalid => exact if_neg invalid

/-- A list of three items. -/
def threeItems : List Call :=
  [.appendElement root ⟨"ul", none, []⟩,
    .appendElement 1 ⟨"li", none, []⟩,
    .appendElement 1 ⟨"li", none, []⟩,
    .appendElement 1 ⟨"li", none, []⟩]

/-- The first item is moved into the second, which stands behind it in the same list. -/
theorem appendChild_moves_intoSibling :
    (build threeItems).Reachable ∧
      (build threeItems).children 1 = [2, 3, 4] ∧
      (2 < (build threeItems).size ∧ 3 < (build threeItems).size ∧ (3 : NodeId) ≠ 2) ∧
      (build threeItems).Moved ((build threeItems).appendChild 3 2) 3 2 := by
  have reachable : (build threeItems).Reachable := reachable_build threeItems
  have valid :
      2 < (build threeItems).size ∧ 3 < (build threeItems).size ∧ (3 : NodeId) ≠ 2 := by
    decide +kernel
  have moved := reachable.appendChild_moves 3 2
  rw [if_pos valid] at moved
  exact ⟨reachable, by decide +kernel, valid, moved⟩

end TreeSelectors.DocumentTree
