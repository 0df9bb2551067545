import TreeSelectors.Tree.View

namespace TreeSelectors.TreeView

/-!
# Visiting a tree

A visit goes over a node and the elements below it, parents before children,
and asks two questions on the way: whether a node is accepted, and of each
accepted one whether to stop there. The answers may depend on all questions
before. The nodes still to be visited are kept on a stack, each with its level
below the start.
-/

/-- What a visit asks. -/
structure Visitor (m : Type → Type) where
  /-- Whether a node is accepted. -/
  accept : NodeId → m Bool
  /-- Whether to stop at an accepted node. -/
  stopAt : NodeId → m Bool

/-- Whether the children of a node at a level are visited. -/
def goesBelow (depth? : Option Nat) (level : Nat) : Bool :=
  match depth? with
  | none => true
  | some depth => decide (level < depth)

/-- The stack once a node has been taken from it. -/
def pushChildren
    (view : TreeView)
    (depth? : Option Nat)
    (node : NodeId)
    (level : Nat)
    (stack : List (NodeId × Nat)) : List (NodeId × Nat) :=
  if goesBelow depth? level then
    (view.children node).map (fun child => (child, level + 1)) ++ stack
  else
    stack

/-- A visit to the nodes on a stack and below, `limit` of them at most. -/
def visitStack
    {m : Type → Type}
    [Monad m]
    (view : TreeView)
    (depth? : Option Nat)
    (visitor : Visitor m) : Nat → List (NodeId × Nat) → m Unit
  | 0, _ =>
      pure ()
  | _, [] =>
      pure ()
  | limit + 1, (node, level) :: stack => do
      let accepted ← visitor.accept node
      let stops ← if accepted then visitor.stopAt node else pure false
      if stops then
        pure ()
      else
        visitStack view depth? visitor limit (pushChildren view depth? node level stack)

/--
The number of nodes that a visit can take: on each level below the start no
node occurs twice, and no path is longer than the tree.
-/
def visitLimit (view : TreeView) (depth? : Option Nat) : Nat :=
  (view.size + 1) * (depth?.getD view.size + 1)

/-- A visit to a node and the elements at most so many levels below it. -/
def visit
    {m : Type → Type}
    [Monad m]
    (view : TreeView)
    (start : NodeId)
    (depth? : Option Nat)
    (visitor : Visitor m) : m Unit :=
  visitStack view depth? visitor (visitLimit view depth?) [(start, 0)]

/-- The questions asked in a visit so far. -/
structure Trace where
  asked : List NodeId
  accepted : List NodeId
deriving Repr, DecidableEq

namespace Trace

/-- The trace with one more node that was asked about. -/
def ask (trace : Trace) (node : NodeId) : Trace :=
  { trace with asked := trace.asked ++ [node] }

/-- The trace with one more node that was accepted. -/
def accept (trace : Trace) (node : NodeId) : Trace :=
  { trace with accepted := trace.accepted ++ [node] }

end Trace

/--
A visitor that notes all questions. It accepts the nodes with a name, or all
nodes, and stops at the given number of accepted ones, or never.
-/
def tracer (view : TreeView) (only? : Option String) (stopAfter? : Option Nat) :
    Visitor (StateM Trace) where
  accept node := do
    modify fun trace => trace.ask node
    return only?.all fun only => view.name node == only
  stopAt node := do
    modify fun trace => trace.accept node
    let trace ← get
    return stopAfter?.any fun count => decide (count ≤ trace.accepted.length)

/--
The questions asked in a visit with `tracer`. Where links run in a circle the
visit goes round until enough nodes have been accepted, each time with at least
one more of them.
-/
def trace
    (view : TreeView)
    (start : NodeId)
    (depth? : Option Nat)
    (only? : Option String)
    (stopAfter? : Option Nat) : Trace :=
  let limit := visitLimit view depth? * (stopAfter?.getD 0 + 1)
  ((visitStack view depth? (view.tracer only? stopAfter?) limit [(start, 0)]).run ⟨[], []⟩).2

end TreeSelectors.TreeView
