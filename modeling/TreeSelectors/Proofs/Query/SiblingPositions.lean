import TreeSelectors.Proofs.Query.Descent
import TreeSelectors.Proofs.Tree.Histories

namespace TreeSelectors

/-!
# Positions among siblings

A position can be counted, or found by stepping back from sibling to sibling
until there is none. In every tree that can be built both give the same,
whatever stands between the elements and wherever their parents lead:
`TreeView.Built.positions_agree`. So the pseudo-classes that look for an elder
sibling hold exactly where the position is zero.
-/

/-- The node that a number of steps along links lead to. -/
def stepAlong? (link : NodeId → Option NodeId) : Nat → NodeId → Option NodeId
  | 0, node => some node
  | count + 1, node => (link node).bind (stepAlong? link count)

/-- There are as many steps along links as there are nodes on the trail. -/
theorem Trail.isSome_stepAlong?_iff
    {link : NodeId → Option NodeId}
    {start : NodeId}
    {nodes : List NodeId}
    (trail : Trail link start nodes)
    (count : Nat) :
    (stepAlong? link count start).isSome = true ↔ count ≤ nodes.length := by
  induction trail generalizing count with
  | done ends =>
      cases count <;> simp [stepAlong?, ends]
  | next linked _ inductionHypothesis =>
      cases count with
      | zero => simp [stepAlong?]
      | succ count => simp [stepAlong?, linked, inductionHypothesis]

/-- A pseudo-class is found by its name. -/
theorem PseudoClass.ofName?_name
    (pseudoClass : PseudoClass) :
    PseudoClass.ofName? pseudoClass.name = some pseudoClass := by
  cases pseudoClass <;> decide +kernel

namespace TreeView

section PseudoClasses

variable {view : TreeView} {rules : ArgumentRules} {subject : Subject} {node : NodeId}
  {pseudoClass : PseudoClass} {argument : Argument}

/-- A pseudo-class without selectors in it is asked about as it is. -/
theorem selects_pseudoClass
    (read : subject.read rules = .ok [.pseudo .pseudoClass pseudoClass.name argument])
    (noSelectors : Selector.argumentMembers argument = [])
    (element : view.isElement node = true) :
    view.selects rules node subject =
      (Selector.argumentHoldsAt view pseudoClass.meaning pseudoClass.name argument node).mapError
        .unmatchable := by
  have free : (Selector.pseudo .pseudoClass pseudoClass.name argument).RelativeFree := by
    refine Selector.RelativeFree.of_children rfl ?_
    rw [Selector.children, noSelectors]
    exact List.forall_mem_nil _
  rw [selects_alone read free, Selector.holdsAt, if_pos element]
  simp only [PseudoClass.ofName?_name]

/-- A pseudo-class that asks for a property answers with it. -/
theorem selects_condition
    {holds : TreeView → NodeId → Bool}
    (read : subject.read rules = .ok [.pseudo .pseudoClass pseudoClass.name .absent])
    (meaning : pseudoClass.meaning = .condition holds)
    (element : view.isElement node = true) :
    view.selects rules node subject = .ok (holds view node) := by
  rw [selects_pseudoClass read rfl element, meaning, Selector.argumentHoldsAt]
  rfl

/-- A pseudo-class that asks for a position compares it with the integer in its argument. -/
theorem selects_position
    {index? : TreeView → NodeId → Option Nat}
    {tokens : List Token}
    (read : subject.read rules = .ok [.pseudo .pseudoClass pseudoClass.name (.anPlusB tokens)])
    (meaning : pseudoClass.meaning = .position index?)
    (element : view.isElement node = true) :
    view.selects rules node subject =
      (Argument.positionHolds pseudoClass.name (index? view node) tokens).mapError
        .unmatchable := by
  rw [selects_pseudoClass read rfl element, meaning, Selector.argumentHoldsAt]

/-- Asked for the position zero, a pseudo-class says whether nothing is counted. -/
theorem selects_zero
    {index? : TreeView → NodeId → Option Nat}
    {counted : List NodeId}
    (read :
      subject.read rules =
        .ok [.pseudo .pseudoClass pseudoClass.name (.anPlusB [.number ⟨"0"⟩])])
    (meaning : pseudoClass.meaning = .position index?)
    (index : index? view node = some counted.length)
    (element : view.isElement node = true) :
    view.selects rules node subject = .ok counted.isEmpty := by
  have zero : Argument.singleInteger? [.number ⟨"0"⟩] = some 0 := by
    decide +kernel
  rw [selects_position read meaning element, index, Argument.positionHolds, zero]
  cases counted <;> rfl

end PseudoClasses

/--
What counting says of the position of an element, and what the elements say that
are met on stepping back from it, nearest first.
-/
structure PositionsAgree
    (view : TreeView)
    (node : NodeId)
    (elders : List NodeId) : Prop where
  steps :
    Trail view.previous? node elders
  walked :
    view.preceding node = elders
  index :
    view.index? node = some elders.length
  indexOfType :
    view.indexOfType? node = some (elders.filter fun elder => view.sameType elder node).length
  reach :
    ∀ count, (stepAlong? view.previous? count node).isSome = true ↔ count ≤ elders.length
  firstChild :
    view.selects .standard node (.text ":first-child") = .ok elders.isEmpty
  zerothChild :
    view.selects .standard node (.text ":nth-child(0)") = .ok elders.isEmpty
  firstOfType :
    view.selects .standard node (.text ":first-of-type") =
      .ok (elders.filter fun elder => view.sameType elder node).isEmpty
  zerothOfType :
    view.selects .standard node (.text ":nth-child-of(0)") =
      .ok (elders.filter fun elder => view.sameType elder node).isEmpty

/-- An element is as far from its first sibling as it is counted to be. -/
theorem Built.positions_agree
    {view : TreeView}
    (built : view.Built)
    {node : NodeId}
    (element : view.isElement node = true) :
    ∃ elders, view.PositionsAgree node elders := by
  obtain ⟨before, behind, stands⟩ := built.ordered.exists_standsBetween element
  have index : view.index? node = some before.reverse.length := by
    rw [stands.place.index, List.length_reverse]
  have indexOfType : view.indexOfType? node =
      some (before.reverse.filter fun elder => view.sameType elder node).length := by
    rw [stands.place.indexOfType, List.filter_reverse, List.length_reverse]
  refine ⟨before.reverse, {
    steps := stands.back
    walked := stands.preceding
    index := index
    indexOfType := indexOfType
    reach := stands.back.isSome_stepAlong?_iff
    firstChild := ?_
    zerothChild := ?_
    firstOfType := ?_
    zerothOfType := ?_
  }⟩
  · have read : (Subject.text ":first-child").read .standard =
        .ok [.pseudo .pseudoClass PseudoClass.firstChild.name .absent] := by
      decide +kernel
    rw [selects_condition read rfl element, stands.place.previous, List.isEmpty_reverse]
    cases before <;> rfl
  · have read : (Subject.text ":nth-child(0)").read .standard =
        .ok [.pseudo .pseudoClass PseudoClass.nthChild.name (.anPlusB [.number ⟨"0"⟩])] := by
      decide +kernel
    exact selects_zero read rfl index element
  · have read : (Subject.text ":first-of-type").read .standard =
        .ok [.pseudo .pseudoClass PseudoClass.firstOfType.name .absent] := by
      decide +kernel
    rw [selects_condition read rfl element, PseudoClass.isFirstOfType, stands.preceding]
    refine congrArg Except.ok (Bool.eq_iff_iff.mpr ?_)
    simp
  · have read : (Subject.text ":nth-child-of(0)").read .standard =
        .ok [.pseudo .pseudoClass PseudoClass.nthChildOf.name (.anPlusB [.number ⟨"0"⟩])] := by
      decide +kernel
    exact selects_zero read rfl indexOfType element

/-- Two items with a text between them, in a list that has been moved below the first of them. -/
def circlingList : DocumentTree :=
  .build
    [.appendElement DocumentTree.root ⟨"ul", none, []⟩,
      .appendElement 1 ⟨"li", none, []⟩,
      .appendText 1 "and",
      .appendElement 1 ⟨"li", none, []⟩,
      .appendChild 2 1]

theorem positions_agree_circlingList :
    circlingList.view.Built ∧
      circlingList.view.isElement 4 = true ∧
      ∃ elders, circlingList.view.PositionsAgree 4 elders := by
  have built : circlingList.view.Built := .document (DocumentTree.reachable_build _)
  have element : circlingList.view.isElement 4 = true := by
    decide
  exact ⟨built, element, built.positions_agree element⟩

end TreeView

end TreeSelectors
