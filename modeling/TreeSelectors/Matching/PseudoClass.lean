import TreeSelectors.Text.CharClass
import TreeSelectors.Tree.View

namespace TreeSelectors

/-!
# Pseudo-classes

The names of pseudo-classes, in which the case of ASCII letters does not
count, and what each of them asks of a node.
-/

/-- The pseudo-classes that are known by name. -/
inductive PseudoClass where
  | isAny
  | matchesAny
  | mozAny
  | webkitAny
  | whereAny
  | notAny
  | hasBelow
  | firstChild
  | lastChild
  | onlyChild
  | firstOfType
  | lastOfType
  | onlyOfType
  | root
  | empty
  | enabled
  | disabled
  | link
  | visited
  | checked
  | indeterminate
  | nthChild
  | nthChildOf
  | defaultChoice
  | defined
  | active
  | hover
  | focus
  | target
  | nthOfType
  | nthLastChild
  | nthLastOfType
  | scope
deriving Repr, DecidableEq

namespace PseudoClass

/-- The name of a pseudo-class, in lower case. -/
def name : PseudoClass → String
  | .isAny => "is"
  | .matchesAny => "matches"
  | .mozAny => "-moz-any"
  | .webkitAny => "-webkit-any"
  | .whereAny => "where"
  | .notAny => "not"
  | .hasBelow => "has"
  | .firstChild => "first-child"
  | .lastChild => "last-child"
  | .onlyChild => "only-child"
  | .firstOfType => "first-of-type"
  | .lastOfType => "last-of-type"
  | .onlyOfType => "only-of-type"
  | .root => "root"
  | .empty => "empty"
  | .enabled => "enabled"
  | .disabled => "disabled"
  | .link => "link"
  | .visited => "visited"
  | .checked => "checked"
  | .indeterminate => "indeterminate"
  | .nthChild => "nth-child"
  | .nthChildOf => "nth-child-of"
  | .defaultChoice => "default"
  | .defined => "defined"
  | .active => "active"
  | .hover => "hover"
  | .focus => "focus"
  | .target => "target"
  | .nthOfType => "nth-of-type"
  | .nthLastChild => "nth-last-child"
  | .nthLastOfType => "nth-last-of-type"
  | .scope => "scope"

/-- All pseudo-classes. -/
def all : List PseudoClass :=
  [.isAny, .matchesAny, .mozAny, .webkitAny, .whereAny, .notAny, .hasBelow, .firstChild,
    .lastChild, .onlyChild, .firstOfType, .lastOfType, .onlyOfType, .root, .empty, .enabled,
    .disabled, .link, .visited, .checked, .indeterminate, .nthChild, .nthChildOf,
    .defaultChoice, .defined, .active, .hover, .focus, .target, .nthOfType, .nthLastChild,
    .nthLastOfType, .scope]

/-- The pseudo-class with a name, in any case of its ASCII letters. -/
def ofName? (text : String) : Option PseudoClass :=
  all.find? fun pseudoClass => pseudoClass.name == Text.asciiLower text

/-- Whether a name is one of those that can be links. -/
def isLinkName (name : String) : Bool :=
  name == "a" || name == "area" || name == "link"

/-- What a pseudo-class asks. -/
inductive Meaning where
  /-- One of the selectors of its argument matches the node. -/
  | anyOf
  /-- None of them does. -/
  | noneOf
  /-- One of them matches an element below the node. -/
  | below
  /-- The place of the node among its siblings is the number in the argument. -/
  | position (index? : TreeView → NodeId → Option Nat)
  /-- The node has a property. -/
  | condition (holds : TreeView → NodeId → Bool)
  /-- It is known by name only. -/
  | unsupported

/-- Whether no sibling before a node has its type. -/
def isFirstOfType (view : TreeView) (node : NodeId) : Bool :=
  !(view.preceding node).any fun sibling => view.sameType sibling node

/-- Whether no sibling behind a node has its type. -/
def isLastOfType (view : TreeView) (node : NodeId) : Bool :=
  !(view.following node).any fun sibling => view.sameType sibling node

/-- What a pseudo-class asks. -/
def meaning : PseudoClass → Meaning
  | .isAny => .anyOf
  | .matchesAny => .anyOf
  | .mozAny => .anyOf
  | .webkitAny => .anyOf
  | .whereAny => .anyOf
  | .notAny => .noneOf
  | .hasBelow => .below
  | .firstChild => .condition fun view node => (view.previous? node).isNone
  | .lastChild => .condition fun view node => (view.next? node).isNone
  | .onlyChild =>
      .condition fun view node => (view.previous? node).isNone && (view.next? node).isNone
  | .firstOfType => .condition isFirstOfType
  | .lastOfType => .condition isLastOfType
  | .onlyOfType => .condition fun view node => isFirstOfType view node && isLastOfType view node
  | .root => .condition fun view node => view.isRoot node
  | .empty => .condition fun view node => view.isEmpty node
  | .enabled => .condition fun view node => !view.hasAttribute node "disabled"
  | .disabled => .condition fun view node => view.hasAttribute node "disabled"
  | .link =>
      .condition fun view node => isLinkName (view.name node) && view.hasAttribute node "href"
  | .visited => .condition fun _ _ => false
  | .checked =>
      .condition fun view node =>
        view.hasAttribute node "checked" || view.hasAttribute node "selected"
  | .indeterminate => .condition fun view node => view.hasAttribute node "indeterminate"
  | .nthChild => .position fun view node => view.index? node
  | .nthChildOf => .position fun view node => view.indexOfType? node
  | .defaultChoice => .unsupported
  | .defined => .unsupported
  | .active => .unsupported
  | .hover => .unsupported
  | .focus => .unsupported
  | .target => .unsupported
  | .nthOfType => .unsupported
  | .nthLastChild => .unsupported
  | .nthLastOfType => .unsupported
  | .scope => .unsupported

end PseudoClass

end TreeSelectors
