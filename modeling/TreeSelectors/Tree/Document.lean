import TreeSelectors.Text.WhiteSpace
import TreeSelectors.Tree.View

namespace TreeSelectors

/-!
# Document trees

A document tree holds its nodes in the order in which they were allocated;
node 0 is a document node. A new node is attached nowhere. Appending a node to
a parent takes it, with everything below it, from where it was before.

Every node knows its parent, its children and its slot, which is its place
among the children of its parent. A node may be moved below itself; walks along
the links therefore take a limit.
-/

/-- The data of an element. -/
structure Element where
  name : String
  qualifier : Option String
  attributes : List (String × String)
deriving Repr, DecidableEq

namespace Element

/-- The value of an attribute. -/
def attribute? (element : Element) (name : String) : Option String :=
  (element.attributes.find? fun entry => entry.1 == name).map Prod.snd

/-- The element with a value for an attribute, in place of any it had. -/
def withAttribute (element : Element) (name value : String) : Element :=
  { element with
    attributes := (name, value) :: element.attributes.filter fun entry => entry.1 != name }

/-- The element with the given attributes set in order. -/
def withAttributes (element : Element) (entries : List (String × String)) : Element :=
  entries.foldl (fun result entry => result.withAttribute entry.1 entry.2) element

/-- The attributes in the order of their names. -/
def sortedAttributes (element : Element) : List (String × String) :=
  element.attributes.mergeSort fun left right => decide (left.1 ≤ right.1)

/-- The identifier of an element. -/
def identifier? (element : Element) : Option String :=
  element.attribute? "id"

/-- The classes of an element: the words of its class attribute. -/
def classes (element : Element) : List String :=
  match element.attribute? "class" with
  | none => []
  | some value => (Text.asciiWords value.toList).map String.ofList

/-- Whether two elements have the same name and namespace. -/
def sameType (left right : Element) : Bool :=
  left.name == right.name && left.qualifier == right.qualifier

theorem attribute?_withAttribute
    (element : Element)
    (name value : String) :
    (element.withAttribute name value).attribute? name = some value := by
  simp [withAttribute, attribute?]

end Element

/-- What a node is. -/
inductive Content where
  | document
  | element (data : Element)
  | text (value : String)
  | comment (value : String)
deriving Repr, DecidableEq

/-- A node and its links. -/
structure DocumentNode where
  content : Content
  parent : Option NodeId
  children : List NodeId
  /-- The place among the children of the parent, 0 for a node without one. -/
  slot : Nat
deriving Repr, DecidableEq

/-- A tree of documents, elements, texts and comments. -/
structure DocumentTree where
  nodes : Array DocumentNode
deriving Repr, DecidableEq

namespace DocumentNode

/-- A node that is attached nowhere. -/
def detached (content : Content) : DocumentNode :=
  ⟨content, none, [], 0⟩

end DocumentNode

namespace DocumentTree

/-- The document node that every tree starts with. -/
def root : NodeId :=
  0

/-- The tree with nothing but its document node. -/
def empty : DocumentTree :=
  ⟨#[.detached .document]⟩

/-- The number of nodes. -/
def size (tree : DocumentTree) : Nat :=
  tree.nodes.size

/-- Whether the tree has no nodes at all. -/
def isEmpty (tree : DocumentTree) : Bool :=
  tree.nodes.isEmpty

/-- The node with a number. -/
def node? (tree : DocumentTree) (id : NodeId) : Option DocumentNode :=
  tree.nodes[id]?

/-- What a node is, if there is one. -/
def content? (tree : DocumentTree) (id : NodeId) : Option Content :=
  (tree.node? id).map (·.content)

/-- The parent of a node. -/
def parent? (tree : DocumentTree) (id : NodeId) : Option NodeId :=
  (tree.node? id).bind (·.parent)

/-- The children of a node, in order. -/
def children (tree : DocumentTree) (id : NodeId) : List NodeId :=
  match tree.node? id with
  | some node => node.children
  | none => []

/-- The place of a node among the children of its parent. -/
def slot (tree : DocumentTree) (id : NodeId) : Nat :=
  match tree.node? id with
  | some node => node.slot
  | none => 0

/-- The element with a number. -/
def element? (tree : DocumentTree) (id : NodeId) : Option Element :=
  match tree.content? id with
  | some (.element data) => some data
  | _ => none

/-- The text of a text node. -/
def text? (tree : DocumentTree) (id : NodeId) : Option String :=
  match tree.content? id with
  | some (.text value) => some value
  | _ => none

/-- Whether there is an element with a number. -/
def isElement (tree : DocumentTree) (id : NodeId) : Bool :=
  (tree.element? id).isSome

/-- The tree with one node changed. -/
def modify (tree : DocumentTree) (id : NodeId) (change : DocumentNode → DocumentNode) :
    DocumentTree :=
  ⟨tree.nodes.modify id change⟩

/-- The tree with one more node, attached nowhere. -/
def alloc (tree : DocumentTree) (content : Content) : NodeId × DocumentTree :=
  (tree.size, ⟨tree.nodes.push (.detached content)⟩)

/-- The tree with slots counted up along a list of nodes. -/
def renumber (tree : DocumentTree) (start : Nat) : List NodeId → DocumentTree
  | [] =>
      tree
  | id :: rest =>
      (tree.modify id fun node => { node with slot := start }).renumber (start + 1) rest

/-- The tree with a node taken from its parent; later siblings move up. -/
def detach (tree : DocumentTree) (child : NodeId) : DocumentTree :=
  match tree.parent? child with
  | none =>
      tree
  | some parent =>
      let slot := tree.slot child
      let remaining := (tree.children parent).eraseIdx slot
      ((tree.modify child fun node => { node with parent := none, slot := 0 }).modify
        parent fun node => { node with children := remaining }).renumber
        slot (remaining.drop slot)

/-- The tree with a node put behind the children of another. -/
def attach (tree : DocumentTree) (parent child : NodeId) : DocumentTree :=
  let slot := (tree.children parent).length
  (tree.modify parent fun node => { node with children := node.children ++ [child] }).modify
    child fun node => { node with parent := some parent, slot := slot }

/--
The tree with a node moved behind the children of another. Nothing happens if
one of them does not exist or both are the same.
-/
def appendChild (tree : DocumentTree) (parent child : NodeId) : DocumentTree :=
  if child < tree.size ∧ parent < tree.size ∧ parent ≠ child then
    (tree.detach child).attach parent child
  else
    tree

/-- A new node, appended to a parent. -/
def appendNew (tree : DocumentTree) (parent : NodeId) (content : Content) :
    NodeId × DocumentTree :=
  let (id, grown) := tree.alloc content
  (id, grown.appendChild parent id)

/-- The siblings of a node, itself included, and its slot among them. -/
def siblings? (tree : DocumentTree) (id : NodeId) : Option (List NodeId × Nat) :=
  (tree.parent? id).map fun parent => (tree.children parent, tree.slot id)

/-- The siblings before a node, nearest first. -/
def preceding (tree : DocumentTree) (id : NodeId) : List NodeId :=
  match tree.siblings? id with
  | some (siblings, slot) => (siblings.take slot).reverse
  | none => []

/-- The siblings behind a node, nearest first. -/
def following (tree : DocumentTree) (id : NodeId) : List NodeId :=
  match tree.siblings? id with
  | some (siblings, slot) => siblings.drop (slot + 1)
  | none => []

/-- The sibling directly before a node. -/
def previousSibling? (tree : DocumentTree) (id : NodeId) : Option NodeId :=
  match tree.siblings? id with
  | some (siblings, slot) => (siblings.take slot).getLast?
  | none => none

/-- The sibling directly behind a node. -/
def nextSibling? (tree : DocumentTree) (id : NodeId) : Option NodeId :=
  match tree.siblings? id with
  | some (siblings, slot) => siblings[slot + 1]?
  | none => none

/-- The nearest element before a node among its siblings. -/
def previousElement? (tree : DocumentTree) (id : NodeId) : Option NodeId :=
  (tree.preceding id).find? tree.isElement

/-- The nearest element behind a node among its siblings. -/
def nextElement? (tree : DocumentTree) (id : NodeId) : Option NodeId :=
  (tree.following id).find? tree.isElement

/-- The children of a node that are elements. -/
def elementChildren (tree : DocumentTree) (id : NodeId) : List NodeId :=
  (tree.children id).filter tree.isElement

/-- The first element below the document node. -/
def documentElement? (tree : DocumentTree) : Option NodeId :=
  (tree.elementChildren root).head?

/-- The nodes above a node, from its parent upwards, `limit` of them at most. -/
def ancestors (tree : DocumentTree) (limit : Nat) (id : NodeId) : List NodeId :=
  follow tree.parent? limit id

/-- The nodes of a stack and below, parents before children, `limit` of them at most. -/
def descendantsOfStack (tree : DocumentTree) : Nat → List NodeId → List NodeId
  | 0, _ => []
  | _, [] => []
  | limit + 1, id :: stack => id :: tree.descendantsOfStack limit (tree.children id ++ stack)

/-- A node and all below it, parents before children, `limit` of them at most. -/
def inclusiveDescendants (tree : DocumentTree) (limit : Nat) (id : NodeId) : List NodeId :=
  tree.descendantsOfStack limit [id]

@[simp] theorem size_modify
    (tree : DocumentTree)
    (id : NodeId)
    (change : DocumentNode → DocumentNode) :
    (tree.modify id change).size = tree.size := by
  simp [size, modify]

theorem node?_modify
    (tree : DocumentTree)
    (id other : NodeId)
    (change : DocumentNode → DocumentNode) :
    (tree.modify id change).node? other =
      if id = other then (tree.node? other).map change else tree.node? other := by
  simp [node?, modify, Array.getElem?_modify]

end DocumentTree

end TreeSelectors
