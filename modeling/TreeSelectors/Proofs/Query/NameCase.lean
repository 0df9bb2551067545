import Mathlib
import TreeSelectors.Proofs.Matching.Agreement
import TreeSelectors.Proofs.Query.Searches
import TreeSelectors.Proofs.Selector.NameCase

namespace TreeSelectors

/-!
# Pseudo selectors in any case

The name of a pseudo selector is looked at twice: the parser goes by it to read
the argument, and matching goes by it to tell what is asked. Neither minds its
case, so that tokens that differ in nothing else are read alike and match
alike: `SameButNameCase.readAlike`.
-/

open TreeSelectors.Text

/-- The error with the name that it reports in lower case. -/
def MatchError.lowerName : MatchError → MatchError
  | .unsupportedPseudoClass name => .unsupportedPseudoClass (asciiLower name)
  | .unsupportedPseudoElement name => .unsupportedPseudoElement (asciiLower name)
  | .relativeSelector => .relativeSelector
  | .unsupportedAttributeMatcher char => .unsupportedAttributeMatcher char
  | .argumentShape name expected => .argumentShape (asciiLower name) expected

/-- The error with the name that it reports in lower case. -/
def SelectorError.lowerName : SelectorError → SelectorError
  | .malformed error => .malformed error
  | .unmatchable error => .unmatchable error.lowerName
  | .unprintable error => .unprintable error

/-- A pseudo-class is found by its name in any case. -/
theorem PseudoClass.ofName?_asciiLower
    (name : String) :
    ofName? (asciiLower name) = ofName? name := by
  rw [ofName?, ofName?, asciiLower_asciiLower]

theorem Token.isWhitespace_lowerName
    (token : Token) :
    token.lowerName.isWhitespace = token.isWhitespace := by
  cases token <;> rfl

/-- Lowering a name twice is lowering it once. -/
theorem Token.lowerName_lowerName
    (token : Token) :
    token.lowerName.lowerName = token.lowerName := by
  cases token <;> simp [lowerName, asciiLower_asciiLower]

/-- Lowering some names and then all of them is lowering all of them. -/
theorem map_lowerName_lowerNames
    {behindColon : Bool}
    (tokens : List Token) :
    (lowerNames behindColon tokens).map Token.lowerName = tokens.map Token.lowerName := by
  induction tokens generalizing behindColon with
  | nil => rfl
  | cons token rest inductionHypothesis =>
      cases behindColon <;>
        simp [lowerNames, inductionHypothesis, Token.lowerName_lowerName]

namespace Argument

/-- Lowering names leaves the numbers among the tokens. -/
theorem singleInteger?_map_lowerName
    (tokens : List Token) :
    singleInteger? (tokens.map Token.lowerName) = singleInteger? tokens := by
  rw [singleInteger?, singleInteger?, List.filter_map]
  simp only [Function.comp_def, Token.isWhitespace_lowerName]
  generalize List.filter _ tokens = kept
  rcases kept with _ | ⟨first, _ | ⟨second, rest⟩⟩
  · rfl
  · cases first <;> rfl
  · cases first <;> rfl

theorem singleInteger?_lowerNames
    {behindColon : Bool}
    (tokens : List Token) :
    singleInteger? (lowerNames behindColon tokens) = singleInteger? tokens := by
  rw [← singleInteger?_map_lowerName, map_lowerName_lowerNames, singleInteger?_map_lowerName]

/--
A position is compared alike under the lowered name, errors up to the case of the name in them.
-/
theorem positionHolds_lowerNames
    (name : String)
    (index? : Option Nat)
    (tokens : List Token) :
    positionHolds (asciiLower name) index? (lowerNames false tokens) =
      (positionHolds name index? tokens).mapError MatchError.lowerName := by
  rw [positionHolds, positionHolds, singleInteger?_lowerNames]
  cases singleInteger? tokens <;> rfl

end Argument

/-- An attribute test reports no name. -/
theorem AttributeTest.mapError_holdsAt
    (test : AttributeTest)
    (view : TreeView)
    (node : NodeId) :
    (test.holdsAt view node).mapError MatchError.lowerName = test.holdsAt view node := by
  rw [holdsAt]
  split
  · rfl
  · next matcher _ =>
      split
      · rfl
      · rw [acceptsValue]
        cases matcher <;> rfl

namespace Selector

variable {view : TreeView}

/-- A pseudo-class gives the same up to the case of names once the selectors in it do. -/
theorem argumentHoldsAt_nameCase
    (meaning : PseudoClass.Meaning)
    (name : String)
    {argument : Argument}
    (inside :
      ∀ members, argument = .selectors members → ∀ node,
        anyHoldsAt view (members.map (translate .nameCase)) node =
          (anyHoldsAt view members node).mapError MatchError.lowerName)
    (node : NodeId) :
    argumentHoldsAt view meaning (asciiLower name) (argument.translate .nameCase) node =
      (argumentHoldsAt view meaning name argument node).mapError MatchError.lowerName := by
  cases meaning with
  | condition holds => simp only [argumentHoldsAt, Except.mapError]
  | unsupported => simp only [argumentHoldsAt, Except.mapError, MatchError.lowerName]
  | position index? =>
      cases argument with
      | raw tokens =>
          rw [Argument.translate, argumentHoldsAt, argumentHoldsAt]
          exact Argument.positionHolds_lowerNames name (index? view node) tokens
      | anPlusB tokens =>
          rw [Argument.translate, argumentHoldsAt, argumentHoldsAt]
          exact Argument.positionHolds_lowerNames name (index? view node) tokens
      | _ => simp [Argument.translate, argumentHoldsAt, Except.mapError, MatchError.lowerName]
  | anyOf =>
      cases argument with
      | selectors members =>
          rw [Argument.translate, argumentHoldsAt, argumentHoldsAt, translateAll_eq_map]
          exact inside members rfl node
      | _ => simp [Argument.translate, argumentHoldsAt, Except.mapError, MatchError.lowerName]
  | noneOf =>
      cases argument with
      | selectors members =>
          rw [Argument.translate, argumentHoldsAt, argumentHoldsAt, translateAll_eq_map,
            inside members rfl node]
          cases anyHoldsAt view members node <;> rfl
      | _ => simp [Argument.translate, argumentHoldsAt, Except.mapError, MatchError.lowerName]
  | below =>
      cases argument with
      | selectors members =>
          rw [Argument.translate, argumentHoldsAt, argumentHoldsAt, translateAll_eq_map,
            ← anyPasses_mapError]
          simp only [inside members rfl]
      | _ => simp [Argument.translate, argumentHoldsAt, Except.mapError, MatchError.lowerName]

/-- What holds at the elements up to the case of names holds everywhere. -/
theorem nameCase_of_isElement
    {selector : Selector}
    (each :
      ∀ node, view.isElement node = true →
        holdsAt view (selector.translate .nameCase) node =
          (holdsAt view selector node).mapError MatchError.lowerName)
    (node : NodeId) :
    holdsAt view (selector.translate .nameCase) node =
      (holdsAt view selector node).mapError MatchError.lowerName := by
  by_cases element : view.isElement node = true
  · exact each node element
  · rw [holdsAt_of_not_isElement _ element, holdsAt_of_not_isElement _ element]
    rfl

mutual

/-- Matching gives the same up to the case of the name that it may report. -/
theorem holdsAt_nameCase :
    (selector : Selector) → ∀ node,
      holdsAt view (selector.translate .nameCase) node =
        (holdsAt view selector node).mapError MatchError.lowerName
  | .list members => by
      have inMembers := anyHoldsAt_nameCase members
      refine nameCase_of_isElement fun node element => ?_
      rw [translate, holdsAt, holdsAt, if_pos element, if_pos element, translateAll_eq_map]
      exact inMembers node
  | .complex left combinator right => by
      have onLeft := holdsAt_nameCase left
      have onRight := holdsAt_nameCase right
      refine nameCase_of_isElement fun node element => ?_
      rw [translate, holdsAt, holdsAt, if_pos element, if_pos element, onRight node]
      rcases holdsAt view right node with error | answer
      · rfl
      · cases answer with
        | false => rfl
        | true =>
            simp only [Except.mapError, onLeft]
            exact anyPasses_mapError MatchError.lowerName (view.leftOf combinator node)
  | .relative combinator right =>
      nameCase_of_isElement fun node element => by
        simp [translate, holdsAt, element, Except.mapError, MatchError.lowerName]
  | .compound members => by
      have inMembers := allHoldAt_nameCase members
      refine nameCase_of_isElement fun node element => ?_
      rw [translate, holdsAt, holdsAt, if_pos element, if_pos element, translateAll_eq_map]
      exact inMembers node
  | .typeName name qualifier =>
      nameCase_of_isElement fun node element => by
        simp [translate, holdsAt, element, Except.mapError]
  | .identifier name =>
      nameCase_of_isElement fun node element => by
        simp [translate, holdsAt, element, Except.mapError]
  | .className name =>
      nameCase_of_isElement fun node element => by
        simp [translate, holdsAt, element, Except.mapError]
  | .attribute test => by
      refine nameCase_of_isElement fun node element => ?_
      rw [translate, holdsAt, if_pos element, test.mapError_holdsAt]
  | .pseudo .pseudoElement name argument =>
      nameCase_of_isElement fun node element => by
        simp [translate, holdsAt, element, Except.mapError, MatchError.lowerName,
          Translation.nameCase]
  | .pseudo .pseudoClass name argument => by
      have inArgument := argumentMembers_nameCase argument
      refine nameCase_of_isElement fun node element => ?_
      have sameMeaning := PseudoClass.ofName?_asciiLower name
      rw [translate, holdsAt, holdsAt, if_pos element, if_pos element]
      simp only [Translation.nameCase] at sameMeaning ⊢
      rw [sameMeaning]
      cases PseudoClass.ofName? name with
      | none => rfl
      | some pseudoClass =>
          exact argumentHoldsAt_nameCase pseudoClass.meaning name inArgument node

/-- The members of an argument match alike. -/
theorem argumentMembers_nameCase :
    (argument : Argument) → ∀ members, argument = .selectors members → ∀ node,
      anyHoldsAt view (members.map (translate .nameCase)) node =
        (anyHoldsAt view members node).mapError MatchError.lowerName
  | .selectors members, others, shape => by
      cases shape
      exact anyHoldsAt_nameCase members

/-- Alternatives match alike, by induction on the list. -/
theorem anyHoldsAt_nameCase :
    (members : List Selector) → ∀ node,
      anyHoldsAt view (members.map (translate .nameCase)) node =
        (anyHoldsAt view members node).mapError MatchError.lowerName
  | [] => fun node => rfl
  | member :: rest => by
      have first := holdsAt_nameCase member
      have later := anyHoldsAt_nameCase rest
      intro node
      rw [List.map_cons, anyHoldsAt, anyHoldsAt, first node, later node]
      rcases holdsAt view member node with error | answer
      · rfl
      · cases answer <;> rfl

/-- Conditions on one node match alike, by induction on the list. -/
theorem allHoldAt_nameCase :
    (members : List Selector) → ∀ node,
      allHoldAt view (members.map (translate .nameCase)) node =
        (allHoldAt view members node).mapError MatchError.lowerName
  | [] => fun node => rfl
  | member :: rest => by
      have first := holdsAt_nameCase member
      have later := allHoldAt_nameCase rest
      intro node
      rw [List.map_cons, allHoldAt, allHoldAt, first node, later node]
      rcases holdsAt view member node with error | answer
      · rfl
      · cases answer <;> rfl

end

section Relatives

variable (translation : Translation)

/-- The children of a translated selector are its translated children. -/
theorem children_translate
    (selector : Selector) :
    (selector.translate translation).children =
      selector.children.map (translate translation) := by
  cases selector with
  | list members => rw [translate, children, children, translateAll_eq_map]
  | compound members => rw [translate, children, children, translateAll_eq_map]
  | pseudo form name argument =>
      cases argument with
      | selectors members =>
          rw [translate, Argument.translate, children, children, argumentMembers, argumentMembers,
            translateAll_eq_map]
      | _ => rfl
  | _ => rfl

/-- A translated selector is walked in the same order. -/
theorem walkQueue_translate
    (queue : List Selector) :
    walkQueue (queue.map (translate translation)) =
      (walkQueue queue).map (translate translation) := by
  induction queue using walkQueue.induct with
  | case1 => simp [walkQueue]
  | case2 node queue inductionHypothesis =>
      rw [List.map_cons, walkQueue, walkQueue, children_translate, ← List.map_append,
        inductionHypothesis, List.map_cons]

theorem isRelative_translate
    (selector : Selector) :
    (selector.translate translation).isRelative = selector.isRelative := by
  cases selector <;> rfl

/-- A translation keeps whether there is a relative selector inside. -/
theorem hasRelative_translate
    (selector : Selector) :
    (selector.translate translation).hasRelative = selector.hasRelative := by
  have walked : (selector.translate translation).walk = selector.walk.map (translate translation) :=
    walkQueue_translate translation [selector]
  rw [hasRelative, hasRelative, walked, List.any_map]
  simp only [Function.comp_def, isRelative_translate]

end Relatives

end Selector

namespace TreeView

/-- A query answers the same about names in another case, errors up to that. -/
theorem selects_nameCase
    (view : TreeView)
    (rules : ArgumentRules)
    (node : NodeId)
    (members : List Selector) :
    view.selects rules node (.selectors (members.map (Selector.translate .nameCase))) =
      (view.selects rules node (.selectors members)).mapError SelectorError.lowerName := by
  have relatives : (members.map (Selector.translate .nameCase)).any Selector.hasRelative =
      members.any Selector.hasRelative := by
    rw [List.any_map]
    simp only [Function.comp_def, Selector.hasRelative_translate]
  simp only [selects, ask, Subject.resolve, Subject.read, Subject.checked, relatives]
  cases members.any Selector.hasRelative with
  | true => rfl
  | false =>
      simp only [Bool.false_eq_true, if_false, Except.mapError, Selector.anyHoldsAt_nameCase]
      cases Selector.anyHoldsAt view members node <;> rfl

end TreeView

/--
Two rows of tokens are refused with the same error, or read as selectors that are the same up to
the case of names and that match the same nodes or fail with errors that are the same up to it.
-/
inductive ReadAlike (rules : ArgumentRules) (left right : List Token) : Prop where
  | refused {error : SyntaxError} :
      (parseTokens rules left).outcome = .error error →
      (parseTokens rules right).outcome = .error error →
      ReadAlike rules left right
  | read {members others : List Selector} :
      (parseTokens rules left).outcome = .ok members →
      (parseTokens rules right).outcome = .ok others →
      members.map (Selector.translate .nameCase) = others.map (Selector.translate .nameCase) →
      (∀ (view : TreeView) (node : NodeId),
        (view.selects rules node (.selectors members)).mapError SelectorError.lowerName =
          (view.selects rules node (.selectors others)).mapError SelectorError.lowerName) →
      ReadAlike rules left right

/-- Two results that are the same after a change of their values are both errors or both values. -/
theorem cases_of_map_eq_map
    {α β ε : Type}
    {change : α → β}
    {left right : Except ε α}
    (same : left.map change = right.map change) :
    (∃ error, left = .error error ∧ right = .error error) ∨
      ∃ value other, left = .ok value ∧ right = .ok other ∧ change value = change other := by
  rcases left with error | value
  · rcases right with error' | other
    · cases same
      exact Or.inl ⟨error, rfl, rfl⟩
    · cases same
  · rcases right with error | other
    · cases same
    · exact Or.inr ⟨value, other, rfl, rfl, Except.ok.inj same⟩

/-- Tokens that differ only in the case of names behind colons are read and matched alike. -/
theorem SameButNameCase.readAlike
    {rules : ArgumentRules}
    (plain : rules.Plain)
    {left right : List Token}
    (alike : SameButNameCase false left right) :
    ReadAlike rules left right := by
  have lowered : (parseTokens rules left).outcome.map (List.map (Selector.translate .nameCase)) =
      (parseTokens rules right).outcome.map (List.map (Selector.translate .nameCase)) := by
    rw [← Reading.outcome_map, ← Reading.outcome_map,
      ← parseTokens_translate faithful_nameCase plain.customless,
      ← parseTokens_translate faithful_nameCase plain.customless]
    exact congrArg (fun tokens => (parseTokens rules tokens).outcome) alike.lowerNames_eq
  rcases cases_of_map_eq_map lowered with
    ⟨error, onLeft, onRight⟩ | ⟨members, others, onLeft, onRight, same⟩
  · exact .refused onLeft onRight
  · refine .read onLeft onRight same fun view node => ?_
    rw [← view.selects_nameCase, ← view.selects_nameCase, same]

/-- The usual rules and one more, put in under a name in capitals. -/
def ArgumentRules.withFoo : ArgumentRules :=
  standard.withRule ":FOO" .selectorList

/-- A selector list inside another one, and an argument whose tokens are kept. -/
def nested (foo is x y : String) : List Token :=
  [.colon, .function foo, .colon, .function is, .ident "b", .rightParen, .rightParen,
    .colon, .colon, .function x, .colon, .ident y, .rightParen]

/-- A function in a function, and kept tokens behind two colons, with names in other cases. -/
theorem readAlike_nested :
    ArgumentRules.withFoo.Plain ∧
      SameButNameCase false (nested "Foo" "IS" "x" "Y") (nested "fOO" "is" "X" "y") ∧
      ReadAlike .withFoo (nested "Foo" "IS" "x" "Y") (nested "fOO" "is" "X" "y") := by
  have plain : ArgumentRules.withFoo.Plain := .withRule .standard (by simp)
  have alike : SameButNameCase false (nested "Foo" "IS" "x" "Y") (nested "fOO" "is" "X" "y") := by
    refine .same (.function ?_ (.same (.function ?_ (.same (.same (.same (.same (.same
      (.function ?_ (.same (.ident ?_ (.same .nil))))))))))))
    all_goals simp [eqIgnoringAsciiCase, asciiLower, ← String.toList_inj]
  exact ⟨plain, alike, alike.readAlike plain⟩

end TreeSelectors
