import TreeSelectors.Matching.AttributeComparison
import TreeSelectors.Matching.PseudoClass
import TreeSelectors.Matching.Search

namespace TreeSelectors

/-!
# Matching a selector against a node

Nothing but an element matches anything. A complex selector is matched from
the right: its right side against the node, then its left side against the
nodes that its combinator leads to, nearest first, until one of them matches.

Matching fails where it meets something that is not supported; what it does
not need to look at cannot make it fail.
-/

namespace TreeView

/-- The nodes on the left of a combinator, for the node on its right, nearest first. -/
def leftOf (view : TreeView) (combinator : Combinator) (node : NodeId) : List NodeId :=
  match combinator with
  | .descendant => view.ancestors node
  | .child => (view.parent? node).toList
  | .nextSibling => (view.previous? node).toList
  | .subsequentSibling => view.preceding node

/--
The elements below a node, at most so many levels if there is a limit, parents
before children. The node itself is never among them.
-/
def within (view : TreeView) (depth? : Option Nat) (node : NodeId) : List NodeId :=
  (view.below (depth?.getD view.size) node).filter fun other => other != node

end TreeView

namespace Argument

/-- The one integer among the tokens of an argument, blanks aside. -/
def singleInteger? (tokens : List Token) : Option Int :=
  match tokens.filter fun token => !token.isWhitespace with
  | [.number numeral] => numeral.integer?
  | _ => none

/-- Whether the place of a node is the integer that the tokens stand for. -/
def positionHolds (name : String) (index? : Option Nat) (tokens : List Token) :
    Except MatchError Bool :=
  match singleInteger? tokens with
  | none => .error (.argumentShape name .singleInteger)
  | some position => .ok (index?.any fun index => (index : Int) == position)

end Argument

namespace Selector

/-- Whether a node has the name and namespace of a type selector. -/
def typeHoldsAt
    (view : TreeView)
    (name : String)
    (qualifier : Option String)
    (node : NodeId) : Bool :=
  (name == "*" || view.name node == name) &&
    match qualifier with
    | none => true
    | some wanted =>
        if wanted = "*" then true
        else if wanted = "" then (view.qualifier? node).isNone
        else view.qualifier? node == some wanted

mutual

/-- Whether a selector matches a node. -/
def holdsAt (view : TreeView) (selector : Selector) (node : NodeId) :
    Except MatchError Bool :=
  if view.isElement node then
    match selector with
    | .list members =>
        anyHoldsAt view members node
    | .complex left combinator right =>
        match holdsAt view right node with
        | .error error => .error error
        | .ok false => .ok false
        | .ok true =>
            anyPasses (fun candidate => holdsAt view left candidate) (view.leftOf combinator node)
    | .relative _ _ =>
        .error .relativeSelector
    | .compound members =>
        allHoldAt view members node
    | .typeName name qualifier =>
        .ok (typeHoldsAt view name qualifier node)
    | .identifier name =>
        .ok (view.hasIdentifier node name)
    | .className name =>
        .ok (view.hasClass node name)
    | .attribute test =>
        test.holdsAt view node
    | .pseudo .pseudoElement name _ =>
        .error (.unsupportedPseudoElement name)
    | .pseudo .pseudoClass name argument =>
        match PseudoClass.ofName? name with
        | none => .error (.unsupportedPseudoClass name)
        | some pseudoClass => argumentHoldsAt view pseudoClass.meaning name argument node
  else
    .ok false

/-- Whether a pseudo-class with a meaning and an argument holds at a node. -/
def argumentHoldsAt
    (view : TreeView)
    (meaning : PseudoClass.Meaning)
    (name : String)
    (argument : Argument)
    (node : NodeId) : Except MatchError Bool :=
  match meaning with
  | .condition holds =>
      .ok (holds view node)
  | .unsupported =>
      .error (.unsupportedPseudoClass name)
  | .position index? =>
      match argument with
      | .raw tokens => Argument.positionHolds name (index? view node) tokens
      | .anPlusB tokens => Argument.positionHolds name (index? view node) tokens
      | _ => .error (.argumentShape name .singleInteger)
  | .anyOf =>
      match argument with
      | .absent => .ok false
      | .selectors members => anyHoldsAt view members node
      | _ => .error (.argumentShape name .selectorList)
  | .noneOf =>
      match argument with
      | .absent => .ok true
      | .selectors members => (anyHoldsAt view members node).map (!·)
      | _ => .error (.argumentShape name .selectorList)
  | .below =>
      match argument with
      | .absent => .ok false
      | .selectors members =>
          anyPasses (fun other => anyHoldsAt view members other) (view.within none node)
      | _ => .error (.argumentShape name .selectorList)

/-- Whether one of some selectors matches a node; the first that does decides. -/
def anyHoldsAt (view : TreeView) (members : List Selector) (node : NodeId) :
    Except MatchError Bool :=
  match members with
  | [] => .ok false
  | member :: rest =>
      match holdsAt view member node with
      | .error error => .error error
      | .ok true => .ok true
      | .ok false => anyHoldsAt view rest node

/-- Whether all of some selectors match a node; the first that does not decides. -/
def allHoldAt (view : TreeView) (members : List Selector) (node : NodeId) :
    Except MatchError Bool :=
  match members with
  | [] => .ok true
  | member :: rest =>
      match holdsAt view member node with
      | .error error => .error error
      | .ok false => .ok false
      | .ok true => allHoldAt view rest node

end

end Selector

end TreeSelectors
