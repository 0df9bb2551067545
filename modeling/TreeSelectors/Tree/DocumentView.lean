import TreeSelectors.Tree.Document

namespace TreeSelectors.DocumentTree

/-!
# Document trees as matching sees them

Only elements are seen: texts and comments do not come between siblings, and a
document node is nobody's parent, so that the first element below it is the
root.
-/

/-- The parent of a node, if it is an element. -/
def elementParent? (tree : DocumentTree) (id : NodeId) : Option NodeId :=
  (tree.parent? id).filter tree.isElement

/-- The number of elements before an element among its siblings. -/
def elementIndex? (tree : DocumentTree) (id : NodeId) : Option Nat :=
  (tree.element? id).map fun _ => ((tree.preceding id).filter tree.isElement).length

/-- Whether a node is an element of the same type as another. -/
def isOfType (tree : DocumentTree) (data : Element) (id : NodeId) : Bool :=
  (tree.element? id).any fun other => other.sameType data

/-- The number of elements of its type before an element among its siblings. -/
def elementIndexOfType? (tree : DocumentTree) (id : NodeId) : Option Nat :=
  (tree.element? id).map fun data => ((tree.preceding id).filter (tree.isOfType data)).length

/-- Whether a text is nothing but white space. -/
def isBlankText (tree : DocumentTree) (id : NodeId) : Bool :=
  (tree.text? id).any fun value => (Text.trim value.toList).isEmpty

/-- Whether a node has no children but, at most, one text of white space. -/
def hasNoContent (tree : DocumentTree) (id : NodeId) : Bool :=
  match tree.children id with
  | [] => true
  | [only] => tree.isBlankText only
  | _ => false

/-- The tree as matching sees it. -/
def view (tree : DocumentTree) : TreeView where
  size := tree.size
  isElement := tree.isElement
  name id := ((tree.element? id).map (·.name)).getD ""
  qualifier? id := (tree.element? id).bind (·.qualifier)
  parent? := tree.elementParent?
  previous? := tree.previousElement?
  next? := tree.nextElement?
  index? := tree.elementIndex?
  indexOfType? := tree.elementIndexOfType?
  children := tree.elementChildren
  attribute? id name := (tree.element? id).bind (·.attribute? name)
  hasIdentifier id value := (tree.element? id).bind (·.identifier?) == some value
  hasClass id value := (tree.element? id).any fun data => data.classes.contains value
  isRoot id := tree.documentElement? == some id
  isEmpty := tree.hasNoContent

end TreeSelectors.DocumentTree
