import TreeSelectors.Matching.AttributeComparison
import TreeSelectors.Proofs.Selector.Occurrence
import TreeSelectors.Proofs.Text.Words
import TreeSelectors.Proofs.Tree.Kinship
import TreeSelectors.Selector.Parser

namespace TreeSelectors

/-!
# The meaning of selectors

What it means for a selector to match an element, said without a search:
`Selector.Matches`. Combinators and structural pseudo-classes speak of the
kinship of elements, attribute tests of how two texts are related.

`Selector.Supported` names the selectors that have a meaning here, by a
condition on each of their nodes.
-/

namespace TreeView

/-- Exactly so many nodes have a property. -/
def HasExactly (count : Nat) (property : NodeId → Prop) : Prop :=
  ∃ nodes : List NodeId, nodes.Nodup ∧ (∀ node, node ∈ nodes ↔ property node) ∧
    nodes.length = count

/-- Two nodes have the same name and namespace. -/
def SameType
    (view : TreeView)
    (left right : NodeId) : Prop :=
  view.name left = view.name right ∧ view.qualifier? left = view.qualifier? right

end TreeView

/-- How the node on the left of a combinator is related to the one on its right. -/
def Combinator.Relates
    (view : TreeView)
    (left right : NodeId) : Combinator → Prop
  | .descendant => view.Above left right
  | .child => view.parent? right = some left
  | .nextSibling => view.DirectlyPrecedes left right
  | .subsequentSibling => view.Precedes left right

/-- How the value of an attribute is related to the expected one. -/
def AttributeMatcher.Relates
    (actual expected : List Char) : AttributeMatcher → Prop
  | .equals => actual = expected
  | .includes => Text.IsWord Text.isWhiteSpace actual expected
  | .dashMatch => actual = expected ∨ ∃ behind, actual = expected ++ '-' :: behind
  | .startsWith => ∃ behind, actual = expected ++ behind
  | .endsWith => ∃ before, actual = before ++ expected
  | .contains => ∃ before behind, actual = before ++ expected ++ behind
  | .other _ => False

/--
A value is related to the expected one: as they stand under the flag that says that case counts, and
without it in lower case, both as whole texts.
-/
def AttributeMatcher.RelatesUnder
    (modifier : Option CaseModifier)
    (actual expected : List Char)
    (matcher : AttributeMatcher) : Prop :=
  (modifier = some .sensitive → matcher.Relates actual expected) ∧
    (modifier ≠ some .sensitive →
      matcher.Relates (Text.lowerCase actual) (Text.lowerCase expected))

/-- The matcher relates the two texts as it compares them. -/
theorem AttributeMatcher.relatesUnder_iff
    {matcher : AttributeMatcher}
    {modifier : Option CaseModifier}
    {actual expected : List Char} :
    matcher.RelatesUnder modifier actual expected ↔
      matcher.Relates (CaseModifier.fold modifier actual)
        (CaseModifier.fold modifier expected) := by
  rcases modifier with _ | _ | _ <;> simp [RelatesUnder, CaseModifier.fold]

/-- A node has the attribute, and its value is related to the expected one. -/
def AttributeTest.Accepts
    (view : TreeView)
    (test : AttributeTest)
    (node : NodeId) : Prop :=
  ∃ value, view.attribute? node test.name = some value ∧
    ∀ matcher, test.matcher = some matcher →
      matcher.RelatesUnder test.modifier value.toList (test.value.getD "").toList

namespace Argument

/-- An argument is one integer, with blanks around it. -/
def IsInteger (argument : Argument) (value : Int) : Prop :=
  ∃ before numeral behind,
    (argument = .raw (before ++ .number numeral :: behind) ∨
      argument = .anPlusB (before ++ .number numeral :: behind)) ∧
    (∀ token ∈ before, token.isWhitespace = true) ∧
    (∀ token ∈ behind, token.isWhitespace = true) ∧
    numeral.integer? = some value

end Argument

/--
What a pseudo-class says of an element. `inside` is what the selectors of its
argument say of a node.
-/
def PseudoClass.Holds
    (view : TreeView)
    (argument : Argument)
    (inside : NodeId → Prop)
    (node : NodeId) : PseudoClass → Prop
  | .isAny | .matchesAny | .mozAny | .webkitAny | .whereAny =>
      inside node
  | .notAny =>
      ¬ inside node
  | .hasBelow =>
      ∃ other, view.isElement other = true ∧ view.Above node other ∧ inside other
  | .firstChild =>
      ∀ elder, ¬ view.Precedes elder node
  | .lastChild =>
      ∀ younger, ¬ view.Precedes node younger
  | .onlyChild =>
      (∀ elder, ¬ view.Precedes elder node) ∧ ∀ younger, ¬ view.Precedes node younger
  | .firstOfType =>
      ∀ elder, view.Precedes elder node → ¬ view.SameType elder node
  | .lastOfType =>
      ∀ younger, view.Precedes node younger → ¬ view.SameType younger node
  | .onlyOfType =>
      (∀ elder, view.Precedes elder node → ¬ view.SameType elder node) ∧
        ∀ younger, view.Precedes node younger → ¬ view.SameType younger node
  | .root =>
      view.isRoot node = true
  | .empty =>
      view.isEmpty node = true
  | .enabled =>
      view.attribute? node "disabled" = none
  | .disabled =>
      view.attribute? node "disabled" ≠ none
  | .link =>
      view.name node ∈ ["a", "area", "link"] ∧ view.attribute? node "href" ≠ none
  | .visited =>
      False
  | .checked =>
      view.attribute? node "checked" ≠ none ∨ view.attribute? node "selected" ≠ none
  | .indeterminate =>
      view.attribute? node "indeterminate" ≠ none
  | .nthChild =>
      ∃ count : Nat, argument.IsInteger count ∧
        TreeView.HasExactly count fun elder => view.Precedes elder node
  | .nthChildOf =>
      ∃ count : Nat, argument.IsInteger count ∧
        TreeView.HasExactly count fun elder =>
          view.Precedes elder node ∧ view.SameType elder node
  | .defaultChoice | .defined | .active | .hover | .focus | .target | .nthOfType
  | .nthLastChild | .nthLastOfType | .scope =>
      False

/-- The arguments that a pseudo-class can be asked with; some cannot be asked at all. -/
def PseudoClass.Takes (argument : Argument) : PseudoClass → Prop
  | .isAny | .matchesAny | .mozAny | .webkitAny | .whereAny | .notAny | .hasBelow =>
      argument = .absent ∨ ∃ members, argument = .selectors members
  | .nthChild | .nthChildOf =>
      ∃ value, argument.IsInteger value
  | .defaultChoice | .defined | .active | .hover | .focus | .target | .nthOfType
  | .nthLastChild | .nthLastOfType | .scope =>
      False
  | _ =>
      True

namespace Selector

/-- A node has the name and the namespace of a type selector. -/
def IsType
    (view : TreeView)
    (name : String)
    (qualifier : Option String)
    (node : NodeId) : Prop :=
  (name = "*" ∨ view.name node = name) ∧
    ∀ wanted, qualifier = some wanted → wanted ≠ "*" →
      view.qualifier? node = if wanted = "" then none else some wanted

mutual

/-- A selector matches an element. -/
def Matches (view : TreeView) (selector : Selector) (node : NodeId) : Prop :=
  match selector with
  | .list members => AnyMatches view members node
  | .complex left combinator right =>
      Matches view right node ∧
        ∃ other, combinator.Relates view other node ∧ Matches view left other
  | .relative _ _ => False
  | .compound members => AllMatch view members node
  | .typeName name qualifier => IsType view name qualifier node
  | .identifier name => view.hasIdentifier node name = true
  | .className name => view.hasClass node name = true
  | .attribute test => test.Accepts view node
  | .pseudo .pseudoElement _ _ => False
  | .pseudo .pseudoClass name argument =>
      ∃ pseudoClass, PseudoClass.ofName? name = some pseudoClass ∧
        pseudoClass.Holds view argument (fun other => ArgumentMatches view argument other) node

/-- One of the selectors of an argument matches. -/
def ArgumentMatches (view : TreeView) (argument : Argument) (node : NodeId) : Prop :=
  match argument with
  | .selectors members => AnyMatches view members node
  | _ => False

/-- One of some selectors matches. -/
def AnyMatches (view : TreeView) (members : List Selector) (node : NodeId) : Prop :=
  match members with
  | [] => False
  | member :: rest => Matches view member node ∨ AnyMatches view rest node

/-- All of some selectors match. -/
def AllMatch (view : TreeView) (members : List Selector) (node : NodeId) : Prop :=
  match members with
  | [] => True
  | member :: rest => Matches view member node ∧ AllMatch view rest node

end

/-- What a supported selector has to be at each of its nodes. -/
def Usable : Selector → Prop
  | .relative _ _ => False
  | .attribute test => ∀ char, test.matcher ≠ some (.other char)
  | .pseudo .pseudoElement _ _ => False
  | .pseudo .pseudoClass name argument =>
      ∃ pseudoClass, PseudoClass.ofName? name = some pseudoClass ∧ pseudoClass.Takes argument
  | _ => True

/-- Everything in a selector has a meaning. -/
def Supported (selector : Selector) : Prop :=
  ∀ part, Occurs part selector → part.Usable

namespace Supported

variable {selector : Selector}

theorem usable
    (supported : selector.Supported) :
    selector.Usable :=
  supported selector .self

theorem child
    (supported : selector.Supported)
    {child : Selector}
    (member : child ∈ selector.children) :
    child.Supported := by
  intro part occurs
  exact supported part (.inside member occurs)

theorem relativeFree
    (supported : selector.Supported) :
    selector.RelativeFree := by
  intro combinator right occurs
  exact supported _ occurs

end Supported

end Selector

end TreeSelectors
