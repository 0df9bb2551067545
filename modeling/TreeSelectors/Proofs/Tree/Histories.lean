import TreeSelectors.Proofs.Tree.DocumentLinks

namespace TreeSelectors.DocumentTree

/-!
# Histories of document trees

A history is a list of calls, made one after the other on a new tree. Nothing
is asked of the numbers in them: a call may name a node that does not exist, the
document node, a node that is attached already, or one that lies above the
other.
-/

/-- A call that changes a tree. -/
inductive Call where
  | alloc (content : Content)
  | appendChild (parent child : NodeId)
  | appendElement (parent : NodeId) (data : Element)
  | appendText (parent : NodeId) (value : String)
deriving Repr, DecidableEq

/-- The tree after a call. -/
def Call.perform (tree : DocumentTree) : Call → DocumentTree
  | .alloc content => (tree.alloc content).2
  | .appendChild parent child => tree.appendChild parent child
  | .appendElement parent data => (tree.appendNew parent (.element data)).2
  | .appendText parent value => (tree.appendNew parent (.text value)).2

/-- The tree after some calls. -/
def performAll (tree : DocumentTree) (calls : List Call) : DocumentTree :=
  calls.foldl Call.perform tree

/-- The tree that a history makes out of a new one. -/
def build (calls : List Call) : DocumentTree :=
  performAll .empty calls

theorem Reachable.perform
    {tree : DocumentTree}
    (reachable : tree.Reachable)
    (call : Call) :
    (call.perform tree).Reachable := by
  cases call with
  | alloc content => exact .alloc content reachable
  | appendChild parent child => exact .appendChild parent child reachable
  | appendElement parent data => exact reachable.appendNew parent _
  | appendText parent value => exact reachable.appendNew parent _

theorem Reachable.performAll
    {tree : DocumentTree}
    (reachable : tree.Reachable)
    (calls : List Call) :
    (tree.performAll calls).Reachable := by
  induction calls generalizing tree with
  | nil => exact reachable
  | cons call rest inductionHypothesis => exact inductionHypothesis (reachable.perform call)

theorem reachable_build
    (calls : List Call) :
    (build calls).Reachable :=
  Reachable.empty.performAll calls

theorem Reachable.size_pos
    {tree : DocumentTree}
    (reachable : tree.Reachable) :
    0 < tree.size := by
  induction reachable with
  | empty => exact Nat.zero_lt_one
  | alloc content _ _ => simp [DocumentTree.alloc, size]
  | appendChild parent child _ inductionHypothesis =>
      unfold DocumentTree.appendChild
      split
      · simpa [attach] using inductionHypothesis
      · exact inductionHypothesis

end TreeSelectors.DocumentTree
