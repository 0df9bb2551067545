namespace TreeSelectors

/-!
# What matching sees of a tree

Selectors are matched against the elements of a tree: nodes with a name,
attributes, a place among their siblings and a parent. `TreeView` is that view;
any tree that offers one can be queried. Nodes are numbers, and numbers
without a node are answered like nodes without properties.

Walks go along links from node to node. They are cut after as many steps as
the tree has nodes: a longer walk would come back to a node it has seen.
-/

/-- A node of a tree, by its number. -/
abbrev NodeId :=
  Nat

/-- A tree as matching sees it. -/
structure TreeView where
  /-- The number of nodes; all of them are smaller. -/
  size : Nat
  /-- Whether there is such a node and selectors can match it. -/
  isElement : NodeId → Bool
  /-- The name of a node, empty if it has none. -/
  name : NodeId → String
  /-- The namespace of a node. -/
  qualifier? : NodeId → Option String
  /-- The parent of a node, if it is an element. -/
  parent? : NodeId → Option NodeId
  /-- The nearest element before a node among its siblings. -/
  previous? : NodeId → Option NodeId
  /-- The nearest element behind a node among its siblings. -/
  next? : NodeId → Option NodeId
  /-- The number of elements before a node among its siblings. -/
  index? : NodeId → Option Nat
  /-- The number of those with the same name and namespace. -/
  indexOfType? : NodeId → Option Nat
  /-- The elements directly below a node, in order. -/
  children : NodeId → List NodeId
  /-- The value of an attribute of a node. -/
  attribute? : NodeId → String → Option String
  /-- Whether a node has an identifier. -/
  hasIdentifier : NodeId → String → Bool
  /-- Whether a node has a class. -/
  hasClass : NodeId → String → Bool
  /-- Whether a node is at the top. -/
  isRoot : NodeId → Bool
  /-- Whether a node has no content. -/
  isEmpty : NodeId → Bool

/-- The nodes met by following links from a node, `limit` of them at most. -/
def follow (link : NodeId → Option NodeId) : Nat → NodeId → List NodeId
  | 0, _ =>
      []
  | limit + 1, node =>
      match link node with
      | none => []
      | some next => next :: follow link limit next

namespace TreeView

/-- Whether a node has an attribute. -/
def hasAttribute (view : TreeView) (node : NodeId) (name : String) : Bool :=
  (view.attribute? node name).isSome

/-- The elements above a node, from its parent upwards. -/
def ancestors (view : TreeView) (node : NodeId) : List NodeId :=
  follow view.parent? view.size node

/-- The elements before a node among its siblings, nearest first. -/
def preceding (view : TreeView) (node : NodeId) : List NodeId :=
  follow view.previous? view.size node

/-- The elements behind a node among its siblings, nearest first. -/
def following (view : TreeView) (node : NodeId) : List NodeId :=
  follow view.next? view.size node

/-- The elements at most `depth` levels below a node, parents before children. -/
def below (view : TreeView) : Nat → NodeId → List NodeId
  | 0, _ => []
  | depth + 1, node => (view.children node).flatMap fun child => child :: view.below depth child

/-- The elements below a node, parents before children; no path is longer than the tree. -/
def descendants (view : TreeView) (node : NodeId) : List NodeId :=
  view.below view.size node

/-- Whether two nodes have the same name and namespace. -/
def sameType (view : TreeView) (left right : NodeId) : Bool :=
  view.name left == view.name right && view.qualifier? left == view.qualifier? right

end TreeView

end TreeSelectors
