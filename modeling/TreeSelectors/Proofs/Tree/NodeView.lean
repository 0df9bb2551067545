import TreeSelectors.Proofs.Tree.Bounds
import TreeSelectors.Proofs.Tree.DocumentCoherence
import TreeSelectors.Proofs.Tree.VisitOrder

namespace TreeSelectors.DocumentTree

/-!
# Every node of a document tree

Matching sees only the elements of a tree. `nodeView` shows texts, comments and
documents as well, each as a node without properties. Parents, children and
siblings are then those of the tree itself, so what is known of coherent views
is known of them, and of the walk over all that is below a node:
`Linked.drained_inclusiveDescendants`.
-/

/-- The tree with each of its nodes taken for an element. -/
def nodeView (tree : DocumentTree) : TreeView where
  size := tree.size
  isElement id := decide (id < tree.size)
  name _ := ""
  qualifier? _ := none
  parent? := tree.parent?
  previous? := tree.previousSibling?
  next? := tree.nextSibling?
  index? id := some (tree.preceding id).length
  indexOfType? id := some (tree.preceding id).length
  children := tree.children
  attribute? _ _ := none
  hasIdentifier _ _ := false
  hasClass _ _ := false
  isRoot id := id == root
  isEmpty id := (tree.children id).isEmpty

/-- The nodes that come off a stack until it is empty, each leaving its children on it. -/
inductive Drained (tree : DocumentTree) : List NodeId → List NodeId → Prop where
  | nil :
      Drained tree [] []
  | cons {node : NodeId} {stack order : List NodeId} :
      Drained tree (tree.children node ++ stack) order →
      Drained tree (node :: stack) (node :: order)

namespace Drained

variable {tree : DocumentTree}

/-- A walk takes the nodes that come off the stack, as many of them as it may take. -/
theorem descendantsOfStack_eq_take
    {stack order : List NodeId}
    (drained : tree.Drained stack order)
    (limit : Nat) :
    tree.descendantsOfStack limit stack = order.take limit := by
  induction drained generalizing limit with
  | nil =>
      cases limit <;> rfl
  | cons _ inductionHypothesis =>
      cases limit with
      | zero => rfl
      | succ limit => rw [descendantsOfStack, inductionHypothesis limit, List.take_succ_cons]

/-- A walk that may take as many nodes as come off the stack takes them all. -/
theorem descendantsOfStack_eq
    {stack order : List NodeId}
    (drained : tree.Drained stack order)
    {limit : Nat}
    (enough : order.length ≤ limit) :
    tree.descendantsOfStack limit stack = order := by
  rw [drained.descendantsOfStack_eq_take, List.take_of_length_le enough]

/-- An unbounded visit of all nodes drains its stack. -/
theorem of_visitOrder
    {stack : List (NodeId × Nat)}
    {order : List NodeId}
    (visited : tree.nodeView.VisitOrder none stack order) :
    tree.Drained (stack.map Prod.fst) order := by
  induction visited with
  | nil =>
      exact .nil
  | cons _ inductionHypothesis =>
      refine .cons ?_
      simpa [TreeView.pushChildren, TreeView.goesBelow, nodeView, Function.comp_def]
        using inductionHypothesis

end Drained

namespace Linked

variable {tree : DocumentTree}

theorem placedBetween_of_siblings
    {before behind : List NodeId}
    {node : NodeId}
    (preceding : tree.preceding node = before.reverse)
    (previous : tree.previousSibling? node = before.getLast?)
    (next : tree.nextSibling? node = behind.head?) :
    tree.nodeView.PlacedBetween before node behind where
  previous := previous
  next := next
  index := by simp [nodeView, preceding]
  indexOfType := by simp [nodeView, preceding, TreeView.sameType]

/-- All nodes together are coherent if they lead nobody back to itself. -/
theorem coherent_nodeView
    (linked : tree.Linked)
    (acyclic : tree.Acyclic) :
    tree.nodeView.Coherent where
  elementSmall := of_decide_eq_true
  childElement := by
    intro parent child member
    exact decide_eq_true (lt_size_of_parent? (linked.parent?_of_mem member))
  parentElement := by
    intro node parent parented
    exact decide_eq_true (linked.parent_lt_size parented)
  childOfParent := by
    intro node parent _ parented
    exact linked.mem_of_parent? parented
  parentOfChild := by
    intro parent child member _
    exact linked.parent?_of_mem member
  childrenNodup := linked.children_nodup
  oneParent := linked.parent_unique
  placed := by
    intro parent before node behind shape
    have siblings := linked.siblings?_of_split shape
    refine placedBetween_of_siblings (linked.preceding_of_split shape) ?_ ?_
    · simp [previousSibling?, siblings]
    · simp [nextSibling?, siblings, List.getElem?_append_right, List.head?_eq_getElem?]
  placedAlone := by
    intro node _ alone
    have nobody : tree.siblings? node = none := by
      simp [siblings?, linked.parent?_eq_none alone]
    refine placedBetween_of_siblings ?_ ?_ ?_
    · simp [preceding, nobody]
    · simp [previousSibling?, nobody]
    · simp [nextSibling?, nobody]
  acyclic := acyclic

/-- There is room among the nodes for one more than all that is below a node. -/
theorem length_descendants_lt
    (linked : tree.Linked)
    (acyclic : tree.Acyclic)
    (filled : 0 < tree.size)
    (node : NodeId) :
    (tree.nodeView.descendants node).length < tree.size := by
  have coherent := linked.coherent_nodeView acyclic
  by_cases small : node < tree.size
  · refine length_le_of_nodup_of_lt (coherent.nodup_listing node) ?_
    intro other member
    rcases List.mem_cons.mp member with same | below
    · rw [same]
      exact small
    · have reaches := coherent.mem_descendants_iff.mp below
      exact coherent.elementSmall (reaches.isElement coherent)
  -- Beyond the nodes nothing is below, and there is room for the number itself.
  · have childless : tree.nodeView.children node = [] := by
      apply List.eq_nil_iff_forall_not_mem.mpr
      intro child member
      exact small (lt_size_of_mem_children member)
    have below := coherent.preorder_descendants node
    rw [childless] at below
    rw [below.unique .nil]
    exact filled

/-- A node and all that is listed below it come off the stack that the node is put on. -/
theorem drained_listing
    (linked : tree.Linked)
    (acyclic : tree.Acyclic)
    (node : NodeId) :
    tree.Drained [node] (node :: tree.nodeView.descendants node) :=
  Drained.of_visitOrder ((linked.coherent_nodeView acyclic).visitOrder_none node)

/-- The walk over a node and all below it ends with an empty stack, not by its limit. -/
theorem drained_inclusiveDescendants
    (linked : tree.Linked)
    (acyclic : tree.Acyclic)
    (filled : 0 < tree.size)
    (node : NodeId) :
    tree.Drained [node] (tree.inclusiveDescendants tree.size node) := by
  have drained := linked.drained_listing acyclic node
  rw [inclusiveDescendants, drained.descendantsOfStack_eq]
  · exact drained
  · exact linked.length_descendants_lt acyclic filled node

end Linked

end TreeSelectors.DocumentTree
