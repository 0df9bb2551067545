import TreeSelectors.Proofs.Selector.Occurrence
import TreeSelectors.Proofs.Tree.SameElements

namespace TreeSelectors

/-!
# Matching in trees with the same elements

Where two views show the same elements, a selector gives the same answer or the
same error in both: `Selector.holdsAt_eq`. What the views can differ in, which
is identifiers, classes and roots, must not be asked for: `Selector.Portable`.
-/

namespace Selector

/--
A selector asks for no identifier and no class, and for the root only where
that is allowed.
-/
structure Portable (rooted : Prop) (selector : Selector) : Prop where
  noIdentifier :
    ∀ name, ¬ Occurs (.identifier name) selector
  noClass :
    ∀ name, ¬ Occurs (.className name) selector
  root :
    ∀ {name argument},
      Occurs (.pseudo .pseudoClass name argument) selector →
      PseudoClass.ofName? name = some .root →
      rooted

/-- What stands in a portable selector is portable. -/
theorem Portable.child
    {rooted : Prop}
    {selector child : Selector}
    (portable : selector.Portable rooted)
    (member : child ∈ selector.children) :
    child.Portable rooted where
  noIdentifier name occurs := portable.noIdentifier name (.inside member occurs)
  noClass name occurs := portable.noClass name (.inside member occurs)
  root occurs := portable.root (.inside member occurs)

end Selector

variable {left right : TreeView} {node : NodeId} {pseudoClass : PseudoClass} {argument : Argument}

section PseudoClasses

/-- A pseudo-class with a condition holds alike, the root apart. -/
theorem PseudoClass.condition_eq
    (same : left.SameElements right)
    (element : left.isElement node = true)
    (root : pseudoClass = .root → left.isRoot node = right.isRoot node)
    {holds : TreeView → NodeId → Bool}
    (meaning : pseudoClass.meaning = .condition holds) :
    holds left node = holds right node := by
  cases pseudoClass <;> cases meaning
  case root => exact root rfl
  all_goals
    simp only [same.previous?_eq element, same.next?_eq element, same.isFirstOfType_eq element,
      same.isLastOfType_eq element, same.isEmpty node element, same.name node element,
      same.hasAttribute_eq element]

/-- A pseudo-class with a position counts alike. -/
theorem PseudoClass.position_eq
    (same : left.SameElements right)
    (element : left.isElement node = true)
    {index? : TreeView → NodeId → Option Nat}
    (meaning : pseudoClass.meaning = .position index?) :
    index? left node = index? right node := by
  cases pseudoClass <;> cases meaning
  case nthChild => exact same.index?_eq element
  case nthChildOf => exact same.indexOfType?_eq element

/-- A pseudo-class gives the same once the selectors of its argument do. -/
theorem Selector.argumentHoldsAt_eq
    (same : left.SameElements right)
    (element : left.isElement node = true)
    (root : pseudoClass = .root → left.isRoot node = right.isRoot node)
    (name : String)
    (inside :
      ∀ members, argument = .selectors members →
        anyHoldsAt left members = anyHoldsAt right members) :
    argumentHoldsAt left pseudoClass.meaning name argument node =
      argumentHoldsAt right pseudoClass.meaning name argument node := by
  cases meaning : pseudoClass.meaning with
  | condition holds =>
      rw [argumentHoldsAt, argumentHoldsAt, PseudoClass.condition_eq same element root meaning]
  | unsupported => rw [argumentHoldsAt, argumentHoldsAt]
  | position index? =>
      have position := PseudoClass.position_eq same element meaning
      cases argument <;> simp only [argumentHoldsAt, position]
  | anyOf =>
      cases argument with
      | selectors members => rw [argumentHoldsAt, argumentHoldsAt, inside members rfl]
      | _ => simp only [argumentHoldsAt]
  | noneOf =>
      cases argument with
      | selectors members => rw [argumentHoldsAt, argumentHoldsAt, inside members rfl]
      | _ => simp only [argumentHoldsAt]
  | below =>
      cases argument with
      | selectors members =>
          rw [argumentHoldsAt, argumentHoldsAt, inside members rfl, same.within_eq]
      | _ => simp only [argumentHoldsAt]

end PseudoClasses

/-- An attribute is compared alike. -/
theorem AttributeTest.holdsAt_eq
    (same : left.SameElements right)
    (element : left.isElement node = true)
    (test : AttributeTest) :
    test.holdsAt left node = test.holdsAt right node := by
  rw [holdsAt, holdsAt, same.hasAttribute_eq element, same.value node element]

namespace Selector

/-- Names and namespaces are compared alike. -/
theorem typeHoldsAt_eq
    (same : left.SameElements right)
    (element : left.isElement node = true)
    (name : String)
    (qualifier : Option String) :
    typeHoldsAt left name qualifier node = typeHoldsAt right name qualifier node := by
  unfold typeHoldsAt
  rw [same.name node element, same.qualifier node element]

/-- No selector matches what is no element. -/
theorem holdsAt_of_not_isElement
    (selector : Selector)
    (noElement : ¬ left.isElement node = true) :
    holdsAt left selector node = .ok false := by
  rw [holdsAt.eq_def, if_neg noElement]

/-- What agrees at the elements agrees everywhere. -/
theorem holdsAt_eq_of_isElement
    (same : left.SameElements right)
    {selector : Selector}
    (each :
      ∀ node, left.isElement node = true → right.isElement node = true →
        holdsAt left selector node = holdsAt right selector node) :
    holdsAt left selector = holdsAt right selector := by
  funext node
  by_cases element : left.isElement node = true
  · exact each node element ((same.isElement node).symm.trans element)
  · have noElement : ¬ right.isElement node = true := same.isElement node ▸ element
    rw [holdsAt_of_not_isElement selector element, holdsAt_of_not_isElement selector noElement]

variable {rooted : Prop}

mutual

/-- A portable selector gives the same in both trees. -/
theorem holdsAt_eq
    (same : left.SameElements right)
    (roots : rooted → left.isRoot = right.isRoot) :
    (selector : Selector) → selector.Portable rooted →
      holdsAt left selector = holdsAt right selector
  | .list members, portable => by
      have inMembers := anyHoldsAt_eq same roots members fun _ member => portable.child member
      refine holdsAt_eq_of_isElement same fun node element otherElement => ?_
      rw [holdsAt, holdsAt, if_pos element, if_pos otherElement, inMembers]
  | .complex further combinator nearest, portable => by
      have onFurther := holdsAt_eq same roots further (portable.child (by simp [children]))
      have onNearest := holdsAt_eq same roots nearest (portable.child (by simp [children]))
      refine holdsAt_eq_of_isElement same fun node element otherElement => ?_
      rw [holdsAt, holdsAt, if_pos element, if_pos otherElement, onFurther, onNearest,
        same.leftOf_eq element]
  | .relative combinator nearest, _ => by
      refine holdsAt_eq_of_isElement same fun node element otherElement => ?_
      rw [holdsAt, holdsAt, if_pos element, if_pos otherElement]
  | .compound members, portable => by
      have inMembers := allHoldAt_eq same roots members fun _ member => portable.child member
      refine holdsAt_eq_of_isElement same fun node element otherElement => ?_
      rw [holdsAt, holdsAt, if_pos element, if_pos otherElement, inMembers]
  | .typeName name qualifier, _ => by
      refine holdsAt_eq_of_isElement same fun node element otherElement => ?_
      rw [holdsAt, holdsAt, if_pos element, if_pos otherElement, typeHoldsAt_eq same element]
  | .identifier name, portable => absurd .self (portable.noIdentifier name)
  | .className name, portable => absurd .self (portable.noClass name)
  | .attribute test, _ => by
      refine holdsAt_eq_of_isElement same fun node element otherElement => ?_
      rw [holdsAt, holdsAt, if_pos element, if_pos otherElement, test.holdsAt_eq same element]
  | .pseudo .pseudoElement name argument, _ => by
      refine holdsAt_eq_of_isElement same fun node element otherElement => ?_
      rw [holdsAt, holdsAt, if_pos element, if_pos otherElement]
  | .pseudo .pseudoClass name argument, portable => by
      have inArgument := argumentMembers_eq same roots argument
        fun _ member => portable.child member
      refine holdsAt_eq_of_isElement same fun node element otherElement => ?_
      rw [holdsAt, holdsAt, if_pos element, if_pos otherElement]
      cases known : PseudoClass.ofName? name with
      | none => rfl
      | some pseudoClass =>
          refine argumentHoldsAt_eq same element (fun isRoot => ?_) name inArgument
          subst isRoot
          exact congrFun (roots (portable.root .self known)) node

/-- The members of an argument match alike. -/
theorem argumentMembers_eq
    (same : left.SameElements right)
    (roots : rooted → left.isRoot = right.isRoot) :
    (argument : Argument) → (∀ member ∈ argumentMembers argument, member.Portable rooted) →
      ∀ members, argument = .selectors members →
        anyHoldsAt left members = anyHoldsAt right members
  | .selectors members, portable, others, shape => by
      cases shape
      exact anyHoldsAt_eq same roots members portable

/-- Alternatives match alike, by induction on the list. -/
theorem anyHoldsAt_eq
    (same : left.SameElements right)
    (roots : rooted → left.isRoot = right.isRoot) :
    (members : List Selector) → (∀ member ∈ members, member.Portable rooted) →
      anyHoldsAt left members = anyHoldsAt right members
  | [], _ => rfl
  | member :: rest, portable => by
      have first := holdsAt_eq same roots member (portable member List.mem_cons_self)
      have later := anyHoldsAt_eq same roots rest
        fun other inRest => portable other (List.mem_cons_of_mem member inRest)
      funext node
      rw [anyHoldsAt, anyHoldsAt, first, later]

/-- Conditions on one node match alike, by induction on the list. -/
theorem allHoldAt_eq
    (same : left.SameElements right)
    (roots : rooted → left.isRoot = right.isRoot) :
    (members : List Selector) → (∀ member ∈ members, member.Portable rooted) →
      allHoldAt left members = allHoldAt right members
  | [], _ => rfl
  | member :: rest, portable => by
      have first := holdsAt_eq same roots member (portable member List.mem_cons_self)
      have later := allHoldAt_eq same roots rest
        fun other inRest => portable other (List.mem_cons_of_mem member inRest)
      funext node
      rw [allHoldAt, allHoldAt, first, later]

end

end Selector

end TreeSelectors
