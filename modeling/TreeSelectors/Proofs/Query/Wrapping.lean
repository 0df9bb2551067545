import Mathlib
import TreeSelectors.Proofs.Query.Descent
import TreeSelectors.Proofs.Selector.Wrapping

namespace TreeSelectors

/-!
# Selectors inside `:is` and `:not`

Some selectors and the pseudo-class `:is` around them give the same answer at
every element of a tree, and the same error where there is one; with `:not`
around them they give the opposite answer. Nothing is asked of the links of the
tree: `TreeView.wrapping_agrees`.
-/

namespace Selector

variable {view : TreeView} {members : List Selector} {node : NodeId}

/-- The pseudo-class that asks whether one of some selectors matches. -/
def isAnyOf (members : List Selector) : Selector :=
  .pseudo .pseudoClass "is" (.selectors members)

/-- The pseudo-class that asks whether none of some selectors matches. -/
def notAnyOf (members : List Selector) : Selector :=
  .pseudo .pseudoClass "not" (.selectors members)

theorem holdsAt_isAnyOf
    (element : view.isElement node = true) :
    holdsAt view (isAnyOf members) node = anyHoldsAt view members node := by
  have known : PseudoClass.ofName? "is" = some .isAny := by
    decide +kernel
  exact (StandsFor.anyOf known rfl).holdsAt_eq element

theorem holdsAt_notAnyOf
    (element : view.isElement node = true) :
    holdsAt view (notAnyOf members) node = (anyHoldsAt view members node).map (!·) := by
  have known : PseudoClass.ofName? "not" = some .notAny := by
    decide +kernel
  rw [notAnyOf, holdsAt, if_pos element]
  simp only [known, PseudoClass.meaning]
  rw [argumentHoldsAt]

/-- What is around some selectors holds something relative exactly if they do. -/
theorem relativeFree_iff_of_children
    {wrapper : Selector}
    (notRelative : wrapper.isRelative = false)
    (inside : wrapper.children = members) :
    (∀ selector ∈ [wrapper], selector.RelativeFree) ↔
      ∀ member ∈ members, member.RelativeFree := by
  subst inside
  rw [List.forall_mem_singleton]
  exact ⟨fun free _ isChild => free.child isChild, RelativeFree.of_children notRelative⟩

end Selector

namespace Parser

/-- The tokens of a pseudo-class with others in its parentheses. -/
def wrapped (name : String) (inside : List Token) : List Token :=
  .colon :: .function name :: (inside ++ [.rightParen])

end Parser

namespace TreeView

open TreeSelectors.Selector
open TreeSelectors.Parser

/-- A list of selectors, read from tokens, without and with `:is` and `:not` around it. -/
structure WrappingAgrees
    (view : TreeView)
    (rules : ArgumentRules)
    (inside : List Token)
    (members : List Selector) : Prop where
  readIs :
    (parseTokens rules (wrapped "is" inside)).outcome = .ok [isAnyOf members]
  readNot :
    (parseTokens rules (wrapped "not" inside)).outcome = .ok [notAnyOf members]
  selectsIs :
    ∀ node, view.isElement node = true →
      view.selects rules node (.selectors [isAnyOf members]) =
        view.selects rules node (.selectors members)
  selectsNot :
    ∀ node, view.isElement node = true →
      view.selects rules node (.selectors [notAnyOf members]) =
        (view.selects rules node (.selectors members)).map (!·)
  selectsIsTokens :
    ∀ node, view.isElement node = true →
      view.selects rules node (.tokens (wrapped "is" inside)) =
        view.selects rules node (.tokens inside)
  selectsNotTokens :
    ∀ node, view.isElement node = true →
      view.selects rules node (.tokens (wrapped "not" inside)) =
        (view.selects rules node (.tokens inside)).map (!·)

section Subjects

variable {view : TreeView} {rules : ArgumentRules} {node : NodeId} {inner outer : Subject}
  {members : List Selector}

/-- A selector that changes the answers of those in it is asked about by asking about them. -/
theorem selects_of_children
    {wrapper : Selector}
    {change : Bool → Bool}
    (notRelative : wrapper.isRelative = false)
    (inside : wrapper.children = members)
    (holds : holdsAt view wrapper node = (anyHoldsAt view members node).map change)
    (readInner : inner.read rules = .ok members)
    (readOuter : outer.read rules = .ok [wrapper]) :
    view.selects rules node outer = (view.selects rules node inner).map change := by
  have same := relativeFree_iff_of_children notRelative inside
  by_cases free : ∀ member ∈ members, member.RelativeFree
  · have wrapperFree : wrapper.RelativeFree := same.mpr free wrapper (List.mem_singleton_self _)
    rw [selects_alone readOuter wrapperFree, holds, selects, ask_eq readInner free]
    cases anyHoldsAt view members node with
    | error error => rfl
    | ok answer => rfl
  · have refused : ∀ {selectors : List Selector},
        (¬ ∀ selector ∈ selectors, selector.RelativeFree) →
          ∃ selector ∈ selectors, ¬ selector.RelativeFree := by
      intro selectors notFree
      simpa using notFree
    have outerRelative := refused (mt same.mp free)
    rw [selects, selects, ask_refused readInner (refused free), ask_refused readOuter outerRelative]
    rfl

theorem selects_isAnyOf
    (element : view.isElement node = true)
    (readInner : inner.read rules = .ok members)
    (readOuter : outer.read rules = .ok [isAnyOf members]) :
    view.selects rules node outer = view.selects rules node inner := by
  have holds : holdsAt view (isAnyOf members) node = (anyHoldsAt view members node).map id := by
    rw [holdsAt_isAnyOf element, Except.map_id, id]
  rw [selects_of_children rfl rfl holds readInner readOuter, Except.map_id, id]

theorem selects_notAnyOf
    (element : view.isElement node = true)
    (readInner : inner.read rules = .ok members)
    (readOuter : outer.read rules = .ok [notAnyOf members]) :
    view.selects rules node outer = (view.selects rules node inner).map (!·) :=
  selects_of_children rfl rfl (holdsAt_notAnyOf element) readInner readOuter

end Subjects

/-- Around any list that can be read, `:is` changes no answer and `:not` turns each one over. -/
theorem wrapping_agrees
    (view : TreeView)
    {rules : ArgumentRules}
    (isRule : rules.get? ":is" = some .selectorList)
    (notRule : rules.get? ":not" = some .selectorList)
    {inside : List Token}
    {members : List Selector}
    (read : (parseTokens rules inside).outcome = .ok members) :
    view.WrappingAgrees rules inside members := by
  have isKey : ruleKey .pseudoClass "is" = ":is" := by
    decide +kernel
  have notKey : ruleKey .pseudoClass "not" = ":not" := by
    decide +kernel
  have readIs : (parseTokens rules (wrapped "is" inside)).outcome = .ok [isAnyOf members] :=
    Grammar.parseTokens_function .pseudoClass (by rw [isKey, isRule]) read
  have readNot : (parseTokens rules (wrapped "not" inside)).outcome = .ok [notAnyOf members] :=
    Grammar.parseTokens_function .pseudoClass (by rw [notKey, notRule]) read
  exact {
    readIs := readIs
    readNot := readNot
    selectsIs := fun node element => selects_isAnyOf element rfl rfl
    selectsNot := fun node element => selects_notAnyOf element rfl rfl
    selectsIsTokens := fun node element => selects_isAnyOf element read readIs
    selectsNotTokens := fun node element => selects_notAnyOf element read readNot
  }

/-- The list `li, :x(())`, which selects the items and fails at the list around them. -/
theorem wrapping_agrees_itemList :
    ArgumentRules.standard.get? ":is" = some .selectorList ∧
      ArgumentRules.standard.get? ":not" = some .selectorList ∧
      (parseTokens .standard
        [.ident "li", .comma, .whitespace, .colon, .function "x", .leftParen, .rightParen,
          .rightParen]).outcome =
        .ok [.typeName "li" none, .pseudo .pseudoClass "x" (.raw [.leftParen, .rightParen])] ∧
      itemList.view.WrappingAgrees .standard
        [.ident "li", .comma, .whitespace, .colon, .function "x", .leftParen, .rightParen,
          .rightParen]
        [.typeName "li" none, .pseudo .pseudoClass "x" (.raw [.leftParen, .rightParen])] := by
  have isRule : ArgumentRules.standard.get? ":is" = some .selectorList := by
    cbv
  have notRule : ArgumentRules.standard.get? ":not" = some .selectorList := by
    cbv
  have read : (parseTokens .standard
      [.ident "li", .comma, .whitespace, .colon, .function "x", .leftParen, .rightParen,
        .rightParen]).outcome =
      .ok [.typeName "li" none, .pseudo .pseudoClass "x" (.raw [.leftParen, .rightParen])] := by
    cbv
  exact ⟨isRule, notRule, read, wrapping_agrees itemList.view isRule notRule read⟩

end TreeView

end TreeSelectors
