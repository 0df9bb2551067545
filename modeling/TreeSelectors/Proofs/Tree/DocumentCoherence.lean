import TreeSelectors.Proofs.Tree.DocumentLinks
import TreeSelectors.Proofs.Tree.Kinship

namespace TreeSelectors.DocumentTree

/-!
# Document trees are coherent

In a document tree whose links agree, the elements have a place in the sense of
matching although texts and comments may stand between them: `Linked.ordered`.
If the links also lead nobody back to itself, the tree is coherent:
`Linked.coherent`.
-/

theorem isElement_iff
    {tree : DocumentTree}
    {id : NodeId} :
    tree.isElement id = true ↔ ∃ data, tree.element? id = some data := by
  rw [isElement, Option.isSome_iff_exists]

theorem lt_size_of_isElement
    {tree : DocumentTree}
    {id : NodeId}
    (element : tree.isElement id = true) :
    id < tree.size := by
  apply Nat.lt_of_not_le
  intro beyond
  simp [isElement, element?, content?, node?_eq_none_iff.mpr beyond] at element

theorem elementParent?_eq_some_iff
    {tree : DocumentTree}
    {id parent : NodeId} :
    tree.elementParent? id = some parent ↔
      tree.parent? id = some parent ∧ tree.isElement parent = true := by
  simp [elementParent?, Option.filter_eq_some_iff]

/-- Being of a type is being an element that the view takes for that type. -/
theorem isOfType_eq
    {tree : DocumentTree}
    {node : NodeId}
    {data : Element}
    (found : tree.element? node = some data)
    (id : NodeId) :
    tree.isOfType data id = (tree.view.sameType id node && tree.isElement id) := by
  cases other : tree.element? id with
  | none =>
      simp [isOfType, isElement, other]
  | some entry =>
      simp [isOfType, isElement, other, found, TreeView.sameType, view, Element.sameType]

namespace Linked

variable {tree : DocumentTree}

/-- The siblings of a node are those around it in the list of its parent. -/
theorem siblings?_of_split
    (linked : tree.Linked)
    {parent node : NodeId}
    {before behind : List NodeId}
    (shape : tree.children parent = before ++ node :: behind) :
    tree.siblings? node = some (before ++ node :: behind, before.length) := by
  have found : (tree.children parent)[before.length]? = some node := by
    simp [shape]
  obtain ⟨parented, slot⟩ := linked.childPlace found
  simp [siblings?, parented, slot, shape]

theorem preceding_of_split
    (linked : tree.Linked)
    {parent node : NodeId}
    {before behind : List NodeId}
    (shape : tree.children parent = before ++ node :: behind) :
    tree.preceding node = before.reverse := by
  simp [preceding, linked.siblings?_of_split shape]

theorem following_of_split
    (linked : tree.Linked)
    {parent node : NodeId}
    {before behind : List NodeId}
    (shape : tree.children parent = before ++ node :: behind) :
    tree.following node = behind := by
  rw [following, linked.siblings?_of_split shape]
  simp [List.drop_append]

/-- The place of an element, from the elements among the nodes around it. -/
theorem placedBetween
    {node : NodeId}
    {nearest later : List NodeId}
    (element : tree.isElement node = true)
    (preceding : tree.preceding node = nearest)
    (following : tree.following node = later) :
    tree.view.PlacedBetween
      (nearest.reverse.filter tree.isElement) node (later.filter tree.isElement) := by
  obtain ⟨data, found⟩ := isElement_iff.mp element
  constructor
  · change tree.previousElement? node = _
    rw [previousElement?, preceding, List.filter_reverse, List.getLast?_reverse, List.head?_filter]
  · change tree.nextElement? node = _
    rw [nextElement?, following, List.head?_filter]
  · change tree.elementIndex? node = _
    rw [elementIndex?, preceding, found, List.filter_reverse, List.length_reverse]
    rfl
  · change tree.elementIndexOfType? node = _
    rw [elementIndexOfType?, preceding, found, List.filter_filter, List.filter_reverse,
      List.length_reverse, ← List.filter_congr fun id _ => isOfType_eq found id]
    rfl

/-- The elements of a document tree have their places, wherever parents lead. -/
theorem ordered
    (linked : tree.Linked) :
    tree.view.Ordered where
  elementSmall := lt_size_of_isElement
  childElement := by
    intro parent child member
    exact (List.mem_filter.mp member).2
  childrenNodup := by
    intro parent
    exact (linked.children_nodup parent).filter _
  oneParent := by
    intro first second child inFirst inSecond
    exact linked.parent_unique (List.mem_filter.mp inFirst).1 (List.mem_filter.mp inSecond).1
  placed := by
    intro parent before node behind shape
    obtain ⟨upTo, further, children, beforeShape, rest⟩ := List.filter_eq_append_iff.mp shape
    obtain ⟨skipped, later, furtherShape, noElements, element, behindShape⟩ :=
      List.filter_eq_cons_iff.mp rest
    have split : tree.children parent = (upTo ++ skipped) ++ node :: later := by
      rw [children, furtherShape, List.append_assoc]
    have place := placedBetween element (linked.preceding_of_split split)
      (linked.following_of_split split)
    have none : skipped.filter tree.isElement = [] :=
      List.filter_eq_nil_iff.mpr noElements
    rwa [List.reverse_reverse, List.filter_append, beforeShape, none, List.append_nil,
      behindShape] at place
  placedAlone := by
    intro node element alone
    have free : tree.parent? node = none := by
      apply linked.parent?_eq_none
      intro parent member
      exact alone parent (List.mem_filter.mpr ⟨member, element⟩)
    have nobodyBefore : tree.preceding node = [] := by
      simp [preceding, siblings?, free]
    have nobodyBehind : tree.following node = [] := by
      simp [following, siblings?, free]
    exact placedBetween element nobodyBefore nobodyBehind

/-- A document tree without a way back to itself is coherent as matching sees it. -/
theorem coherent
    (linked : tree.Linked)
    (acyclic : tree.Acyclic) :
    tree.view.Coherent where
  elementSmall := linked.ordered.elementSmall
  childElement := linked.ordered.childElement
  parentElement := by
    intro node parent parented
    exact (elementParent?_eq_some_iff.mp parented).2
  childOfParent := by
    intro node parent element parented
    have inChildren := linked.mem_of_parent? (elementParent?_eq_some_iff.mp parented).1
    exact List.mem_filter.mpr ⟨inChildren, element⟩
  parentOfChild := by
    intro parent child member element
    have parented := linked.parent?_of_mem (List.mem_filter.mp member).1
    exact elementParent?_eq_some_iff.mpr ⟨parented, element⟩
  childrenNodup := linked.ordered.childrenNodup
  oneParent := linked.ordered.oneParent
  placed := linked.ordered.placed
  placedAlone := linked.ordered.placedAlone
  acyclic := by
    intro node above
    refine acyclic node (above.mono ?_)
    intro id parent parented
    exact (elementParent?_eq_some_iff.mp parented).1

end Linked

end TreeSelectors.DocumentTree
