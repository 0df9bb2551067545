import TreeSelectors.Selector.Basic

namespace TreeSelectors.Selector

/-!
# Walking over a selector

`walk` lists the nodes of a selector breadth first: it takes nodes from the
front of a queue and puts their children at its end. It ends because the queue
holds fewer and fewer nodes, those below its members included.
-/

/-- The selectors in the parentheses of a pseudo selector. -/
def argumentMembers : Argument → List Selector
  | .selectors members => members
  | _ => []

/-- The nodes directly below a node, in order. -/
def children : Selector → List Selector
  | .list members => members
  | .complex left _ right => [left, right]
  | .relative _ right => [right]
  | .compound members => members
  | .pseudo _ _ argument => argumentMembers argument
  | _ => []

mutual

/-- The number of nodes of a selector, itself included. -/
def nodeCount : Selector → Nat
  | .list members => 1 + memberCount members
  | .complex left _ right => 1 + (nodeCount left + nodeCount right)
  | .relative _ right => 1 + nodeCount right
  | .compound members => 1 + memberCount members
  | .pseudo _ _ argument => 1 + argumentCount argument
  | _ => 1

/-- The number of nodes of an argument. -/
def argumentCount : Argument → Nat
  | .selectors members => memberCount members
  | _ => 0

/-- The number of nodes of some selectors. -/
def memberCount : List Selector → Nat
  | [] => 0
  | member :: rest => nodeCount member + memberCount rest

end

theorem memberCount_append
    (left right : List Selector) :
    memberCount (left ++ right) = memberCount left + memberCount right := by
  induction left with
  | nil => simp [memberCount]
  | cons member rest inductionHypothesis =>
      simp only [List.cons_append, memberCount, inductionHypothesis]
      omega

/-- A selector is one node and what is below it. -/
theorem nodeCount_eq
    (selector : Selector) :
    nodeCount selector = 1 + memberCount selector.children := by
  cases selector with
  | pseudo form name argument =>
      cases argument <;> simp [nodeCount, children, argumentMembers, argumentCount, memberCount]
  | _ => simp [nodeCount, children, memberCount]

/-- The nodes of a queue of selectors, breadth first. -/
def walkQueue : List Selector → List Selector
  | [] => []
  | node :: queue => node :: walkQueue (queue ++ node.children)
termination_by queue => memberCount queue
decreasing_by
  rw [memberCount_append, memberCount, nodeCount_eq]
  omega

/-- The nodes of a selector, breadth first. -/
def walk (selector : Selector) : List Selector :=
  walkQueue [selector]

/-- Whether a node is a complex selector without a left side. -/
def isRelative : Selector → Bool
  | .relative _ _ => true
  | _ => false

/-- Whether there is a relative selector anywhere in a selector. -/
def hasRelative (selector : Selector) : Bool :=
  selector.walk.any isRelative

end TreeSelectors.Selector
