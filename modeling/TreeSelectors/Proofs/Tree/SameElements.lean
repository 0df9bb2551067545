import TreeSelectors.Proofs.Tree.Kinship

namespace TreeSelectors

/-!
# Trees with the same elements

Two coherent views that have the same elements below each other agree on every
walk that matching takes: siblings, positions and ancestors all follow from the
lists of children. So it is enough to compare the views node by node.
-/

/-- Links that agree where a walk can come lead along the same nodes. -/
theorem follow_congr
    {left right : NodeId → Option NodeId}
    {inside : NodeId → Prop}
    (same : ∀ node, inside node → left node = right node)
    (stays : ∀ node next, inside node → left node = some next → inside next)
    {limit : Nat}
    {start : NodeId}
    (starts : inside start) :
    follow left limit start = follow right limit start := by
  induction limit generalizing start with
  | zero => rfl
  | succ limit inductionHypothesis =>
      rw [follow, follow, ← same start starts]
      cases step : left start with
      | none => rfl
      | some next =>
          exact congrArg (next :: ·) (inductionHypothesis (stays start next starts step))

/-- A walk along links that stay inside stays inside. -/
theorem inside_of_mem_follow
    {link : NodeId → Option NodeId}
    {inside : NodeId → Prop}
    (stays : ∀ node next, inside node → link node = some next → inside next)
    (limit : Nat)
    {start : NodeId}
    (starts : inside start) :
    ∀ node ∈ follow link limit start, inside node := by
  induction limit generalizing start with
  | zero => exact List.forall_mem_nil _
  | succ limit inductionHypothesis =>
      rw [follow]
      cases step : link start with
      | none => exact List.forall_mem_nil _
      | some next =>
          have reached := stays start next starts step
          exact List.forall_mem_cons.mpr ⟨reached, inductionHypothesis reached⟩

namespace TreeView

/--
Two coherent views show the same elements. Identifiers, classes and roots may
differ.
-/
structure SameElements (left right : TreeView) : Prop where
  leftCoherent :
    left.Coherent
  rightCoherent :
    right.Coherent
  size :
    left.size = right.size
  isElement :
    ∀ node, left.isElement node = right.isElement node
  children :
    ∀ node, left.children node = right.children node
  strayParent :
    ∀ node, left.isElement node = false → left.parent? node = right.parent? node
  name :
    ∀ node, left.isElement node = true → left.name node = right.name node
  qualifier :
    ∀ node, left.isElement node = true → left.qualifier? node = right.qualifier? node
  value :
    ∀ node, left.isElement node = true →
      ∀ key, left.attribute? node key = right.attribute? node key
  isEmpty :
    ∀ node, left.isElement node = true → left.isEmpty node = right.isEmpty node

namespace SameElements

variable {left right : TreeView}

/-- Two trees have the same elements in either order. -/
theorem symm
    (same : left.SameElements right) :
    right.SameElements left where
  leftCoherent := same.rightCoherent
  rightCoherent := same.leftCoherent
  size := same.size.symm
  isElement node := (same.isElement node).symm
  children node := (same.children node).symm
  strayParent node stray :=
    (same.strayParent node ((same.isElement node).trans stray)).symm
  name node element :=
    (same.name node ((same.isElement node).trans element)).symm
  qualifier node element :=
    (same.qualifier node ((same.isElement node).trans element)).symm
  value node element key :=
    (same.value node ((same.isElement node).trans element) key).symm
  isEmpty node element :=
    (same.isEmpty node ((same.isElement node).trans element)).symm

variable {node : NodeId}

/-- An element stands between the same siblings in both views, and these are elements. -/
theorem exists_place
    (same : left.SameElements right)
    (element : left.isElement node = true) :
    ∃ before behind,
      left.PlacedBetween before node behind ∧
        right.PlacedBetween before node behind ∧
        ∀ sibling ∈ before ++ behind, left.isElement sibling = true := by
  by_cases hasParent : ∃ parent, node ∈ left.children parent
  · obtain ⟨parent, member⟩ := hasParent
    obtain ⟨before, behind, shape⟩ := List.append_of_mem member
    refine ⟨before, behind, same.leftCoherent.placed shape,
      same.rightCoherent.placed ((same.children parent).symm.trans shape), ?_⟩
    intro sibling isSibling
    have isChild : sibling ∈ left.children parent := by
      rw [shape, List.mem_append, List.mem_cons]
      exact (List.mem_append.mp isSibling).imp_right Or.inr
    exact same.leftCoherent.childElement isChild
  · have alone : ∀ parent, node ∉ left.children parent := by
      intro parent member
      exact hasParent ⟨parent, member⟩
    have aloneRight : ∀ parent, node ∉ right.children parent := by
      intro parent
      rw [← same.children]
      exact alone parent
    exact ⟨[], [], same.leftCoherent.placedAlone element alone,
      same.rightCoherent.placedAlone ((same.isElement node).symm.trans element) aloneRight,
      List.forall_mem_nil _⟩

/-- Both trees name the same element before a node. -/
theorem previous?_eq
    (same : left.SameElements right)
    (element : left.isElement node = true) :
    left.previous? node = right.previous? node := by
  obtain ⟨before, behind, place, other, _⟩ := same.exists_place element
  rw [place.previous, other.previous]

/-- Both trees name the same element behind a node. -/
theorem next?_eq
    (same : left.SameElements right)
    (element : left.isElement node = true) :
    left.next? node = right.next? node := by
  obtain ⟨before, behind, place, other, _⟩ := same.exists_place element
  rw [place.next, other.next]

/-- Both trees count the same number of elements before a node. -/
theorem index?_eq
    (same : left.SameElements right)
    (element : left.isElement node = true) :
    left.index? node = right.index? node := by
  obtain ⟨before, behind, place, other, _⟩ := same.exists_place element
  rw [place.index, other.index]

/-- Two elements have the same type in both trees or in neither. -/
theorem sameType_eq
    (same : left.SameElements right)
    {other : NodeId}
    (element : left.isElement node = true)
    (otherElement : left.isElement other = true) :
    left.sameType other node = right.sameType other node := by
  rw [sameType, sameType, same.name node element, same.name other otherElement,
    same.qualifier node element, same.qualifier other otherElement]

/-- Both trees count the same number of elements of its type before a node. -/
theorem indexOfType?_eq
    (same : left.SameElements right)
    (element : left.isElement node = true) :
    left.indexOfType? node = right.indexOfType? node := by
  obtain ⟨before, behind, place, other, elements⟩ := same.exists_place element
  have alike : before.filter (fun sibling => left.sameType sibling node) =
      before.filter fun sibling => right.sameType sibling node := by
    refine List.filter_congr fun sibling member => ?_
    exact same.sameType_eq element (elements sibling (List.mem_append_left behind member))
  rw [place.indexOfType, other.indexOfType, alike]

theorem hasAttribute_eq
    (same : left.SameElements right)
    (element : left.isElement node = true)
    (key : String) :
    left.hasAttribute node key = right.hasAttribute node key := by
  rw [hasAttribute, hasAttribute, same.value node element]

/-- The parent of an element is the element in whose list it is. -/
theorem parent?_of_parent?
    (same : left.SameElements right)
    {parent : NodeId}
    (parented : left.parent? node = some parent) :
    right.parent? node = some parent := by
  by_cases element : left.isElement node = true
  · have member := same.leftCoherent.childOfParent element parented
    have parentElement := same.leftCoherent.parentElement parented
    rw [same.children] at member
    rw [same.isElement] at parentElement
    exact same.rightCoherent.parentOfChild member parentElement
  · rw [← same.strayParent node (by simpa using element)]
    exact parented

/-- Both trees have the same parents, for only elements are given as such. -/
theorem parent?_eq
    (same : left.SameElements right) :
    left.parent? = right.parent? := by
  funext node
  apply Option.ext
  intro parent
  exact ⟨same.parent?_of_parent?, same.symm.parent?_of_parent?⟩

/-- The walk upwards is the same in both trees. -/
theorem ancestors_eq
    (same : left.SameElements right)
    (node : NodeId) :
    left.ancestors node = right.ancestors node := by
  rw [ancestors, ancestors, same.parent?_eq, same.size]

/-- What is linked backwards from an element is an element. -/
theorem isElement_of_previous?
    (same : left.SameElements right)
    (node next : NodeId)
    (element : left.isElement node = true)
    (linked : left.previous? node = some next) :
    left.isElement next = true := by
  obtain ⟨before, behind, place, _, elements⟩ := same.exists_place element
  rw [place.previous] at linked
  exact elements next (List.mem_append_left behind (List.mem_of_getLast? linked))

/-- What is linked forwards from an element is an element. -/
theorem isElement_of_next?
    (same : left.SameElements right)
    (node next : NodeId)
    (element : left.isElement node = true)
    (linked : left.next? node = some next) :
    left.isElement next = true := by
  obtain ⟨before, behind, place, _, elements⟩ := same.exists_place element
  rw [place.next] at linked
  exact elements next (List.mem_append_right before (List.mem_of_head? linked))

/-- The walk backwards among siblings is the same. -/
theorem preceding_eq
    (same : left.SameElements right)
    (element : left.isElement node = true) :
    left.preceding node = right.preceding node := by
  rw [preceding, preceding, same.size]
  exact follow_congr (fun _ => same.previous?_eq) same.isElement_of_previous? element

/-- The walk forwards among siblings is the same. -/
theorem following_eq
    (same : left.SameElements right)
    (element : left.isElement node = true) :
    left.following node = right.following node := by
  rw [following, following, same.size]
  exact follow_congr (fun _ => same.next?_eq) same.isElement_of_next? element

/-- Elements are searched for one of a type with the same answer. -/
theorem any_sameType_eq
    (same : left.SameElements right)
    (element : left.isElement node = true)
    {siblings : List NodeId}
    (elements : ∀ sibling ∈ siblings, left.isElement sibling = true) :
    (siblings.any fun sibling => left.sameType sibling node) =
      siblings.any fun sibling => right.sameType sibling node := by
  rw [Bool.eq_iff_iff, List.any_eq_true, List.any_eq_true]
  refine exists_congr fun sibling => and_congr_right fun member => ?_
  rw [same.sameType_eq element (elements sibling member)]

theorem isFirstOfType_eq
    (same : left.SameElements right)
    (element : left.isElement node = true) :
    PseudoClass.isFirstOfType left node = PseudoClass.isFirstOfType right node := by
  have elements := inside_of_mem_follow same.isElement_of_previous? left.size element
  rw [PseudoClass.isFirstOfType, PseudoClass.isFirstOfType, ← same.preceding_eq element]
  exact congrArg (!·) (same.any_sameType_eq element elements)

theorem isLastOfType_eq
    (same : left.SameElements right)
    (element : left.isElement node = true) :
    PseudoClass.isLastOfType left node = PseudoClass.isLastOfType right node := by
  have elements := inside_of_mem_follow same.isElement_of_next? left.size element
  rw [PseudoClass.isLastOfType, PseudoClass.isLastOfType, ← same.following_eq element]
  exact congrArg (!·) (same.any_sameType_eq element elements)

/-- What is listed below a node is the same to every depth. -/
theorem below_eq
    (same : left.SameElements right)
    (depth : Nat)
    (node : NodeId) :
    left.below depth node = right.below depth node := by
  induction depth generalizing node with
  | zero => rfl
  | succ depth inductionHypothesis =>
      rw [below, below, same.children]
      congr 1
      funext child
      rw [inductionHypothesis]

theorem descendants_eq
    (same : left.SameElements right)
    (node : NodeId) :
    left.descendants node = right.descendants node := by
  rw [descendants, descendants, same.size, same.below_eq]

theorem within_eq
    (same : left.SameElements right)
    (depth? : Option Nat)
    (node : NodeId) :
    left.within depth? node = right.within depth? node := by
  rw [within, within, same.size, same.below_eq]

/-- The candidates on the left of a combinator are the same. -/
theorem leftOf_eq
    (same : left.SameElements right)
    (element : left.isElement node = true)
    (combinator : Combinator) :
    left.leftOf combinator node = right.leftOf combinator node := by
  cases combinator with
  | descendant => exact same.ancestors_eq node
  | child => rw [leftOf, leftOf, same.parent?_eq]
  | nextSibling => rw [leftOf, leftOf, same.previous?_eq element]
  | subsequentSibling => exact same.preceding_eq element

end SameElements

end TreeView

end TreeSelectors
