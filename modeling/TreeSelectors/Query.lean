import TreeSelectors.Matching.Evaluation
import TreeSelectors.Selector.Parser
import TreeSelectors.Selector.Walk
import TreeSelectors.Tree.Visit

namespace TreeSelectors

/-!
# Querying a tree

A query takes a selector as text, as tokens or as it is, and asks which nodes
it matches. A selector list with a relative selector anywhere in it is refused
before any node is looked at, so that the answer does not depend on the tree.

The queries below a node share one visitor. A visitor has no way to fail, so
this one keeps the error it meets and accepts the node as if it matched; asked
whether to stop there, it sees the error and does.
-/

/-- A selector handed to a query. -/
inductive Subject where
  | text (value : String)
  | tokens (value : List Token)
  | selectors (members : List Selector)

namespace Subject

/-- No selector at all, which matches nothing. -/
def absent : Subject :=
  .selectors []

/-- The selectors of a subject, as far as they can be read. -/
def read (rules : ArgumentRules) : Subject → Except SyntaxError (List Selector)
  | .text value => parse rules value
  | .tokens value => (parseTokens rules value).outcome
  | .selectors members => .ok members

/-- Selectors without a relative one anywhere. -/
def checked (members : List Selector) : Except MatchError (List Selector) :=
  if members.any Selector.hasRelative then .error .relativeSelector else .ok members

/-- The selectors that a query runs. -/
def resolve (rules : ArgumentRules) (subject : Subject) :
    Except SelectorError (List Selector) :=
  match subject.read rules with
  | .error error => .error (.malformed error)
  | .ok members => (checked members).mapError .unmatchable

end Subject

namespace TreeView

/-- The result of a question about the selectors of a subject. -/
def ask
    {α : Type}
    (rules : ArgumentRules)
    (subject : Subject)
    (question : List Selector → Except MatchError α) : Except SelectorError α :=
  match subject.resolve rules with
  | .error error => .error error
  | .ok members => (question members).mapError .unmatchable

/-- Whether a node matches. -/
def selects (view : TreeView) (rules : ArgumentRules) (node : NodeId) (subject : Subject) :
    Except SelectorError Bool :=
  ask rules subject fun members => Selector.anyHoldsAt view members node

/-- What a search has found so far, and the error that it has met. -/
structure Findings where
  found : List NodeId
  error? : Option MatchError

namespace Findings

/-- The findings with one more node. -/
def add (findings : Findings) (node : NodeId) : Findings :=
  { findings with found := findings.found ++ [node] }

/-- The findings once an error has been met. -/
def fail (findings : Findings) (error : MatchError) : Findings :=
  { findings with error? := some error }

/-- What a search answers in the end. -/
def outcome (findings : Findings) : Except MatchError (List NodeId) :=
  match findings.error? with
  | some error => .error error
  | none => .ok findings.found

end Findings

/-- The visitor that finds the nodes that pass a test, the root never being one. -/
def finder (test : NodeId → Except MatchError Bool) (root : NodeId) (firstOnly : Bool) :
    Visitor (StateM Findings) where
  accept node :=
    if node = root then
      return false
    else
      match test node with
      | .ok passes => return passes
      | .error error => do
          modify fun findings => findings.fail error
          return true
  stopAt node := do
    let findings ← get
    if findings.error?.isSome then
      return true
    else
      set (findings.add node)
      return firstOnly

/--
The elements below a node that pass a test, parents before children, only the
first one if that is enough.
-/
def find
    (view : TreeView)
    (test : NodeId → Except MatchError Bool)
    (root : NodeId)
    (depth? : Option Nat)
    (firstOnly : Bool) : Except MatchError (List NodeId) :=
  ((view.visit root depth? (finder test root firstOnly)).run ⟨[], none⟩).2.outcome

/-- The first element below a node that matches, parents before children. -/
def first (view : TreeView) (rules : ArgumentRules) (root : NodeId) (subject : Subject) :
    Except SelectorError (Option NodeId) :=
  ask rules subject fun members =>
    (view.find (Selector.anyHoldsAt view members) root none true).map List.head?

/-- All elements below a node that match, parents before children. -/
def all (view : TreeView) (rules : ArgumentRules) (root : NodeId) (subject : Subject) :
    Except SelectorError (List NodeId) :=
  ask rules subject fun members =>
    view.find (Selector.anyHoldsAt view members) root none false

/-- The children of a node that match, in order. -/
def matchingChildren
    (view : TreeView)
    (rules : ArgumentRules)
    (parent : NodeId)
    (subject : Subject) : Except SelectorError (List NodeId) :=
  ask rules subject fun members =>
    view.find (Selector.anyHoldsAt view members) parent (some 1) false

/-- The nearest node that matches, going up from a node that is looked at itself. -/
def closest (view : TreeView) (rules : ArgumentRules) (node : NodeId) (subject : Subject) :
    Except SelectorError (Option NodeId) :=
  ask rules subject fun members =>
    firstPassing (Selector.anyHoldsAt view members) (node :: view.ancestors node)

end TreeView

end TreeSelectors
