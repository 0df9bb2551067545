import TreeSelectors.Json.Number
import TreeSelectors.Tree.View

namespace TreeSelectors

/-!
# JSON documents as trees

Every object of a JSON document is a node. Its name is the string in its
`type` field, its attributes are its other values, and the objects found in
its fields, also inside arrays, are its children. Nodes are numbered in the
order of the text; node 0 stands for the document and is nobody's parent.
-/

/-- An object and its links. -/
structure ObjectEntry where
  /-- The fields of the object, none for the document. -/
  fields : Option (List (String × Json))
  name : String
  parent : Option NodeId
  children : List NodeId
  /-- The place among the children of the parent. -/
  position : Nat
deriving Repr, DecidableEq

/-- The objects of a JSON document. -/
structure ObjectTree where
  entries : Array ObjectEntry
deriving Repr, DecidableEq

namespace ObjectTree

/-- The node that stands for the document. -/
def document : NodeId :=
  0

/-- The name of the document node. -/
def documentName : String :=
  "#document"

/-- The name of an object without a type. -/
def untypedName : String :=
  "Object"

/-- The string of a JSON value that is one. -/
def stringOf? : Json → Option String
  | .string value => some value
  | _ => none

/-- The name of an object with the given fields. -/
def nameOf (fields : List (String × Json)) : String :=
  ((Json.lookup? fields "type").bind stringOf?).getD untypedName

/-- The tree with nothing but its document node. -/
def empty : ObjectTree :=
  ⟨#[⟨none, documentName, none, [], 0⟩]⟩

/-- The number of nodes. -/
def size (tree : ObjectTree) : Nat :=
  tree.entries.size

/-- The entry of a node. -/
def entry? (tree : ObjectTree) (id : NodeId) : Option ObjectEntry :=
  tree.entries[id]?

/-- The nodes directly below a node, in order. -/
def children (tree : ObjectTree) (id : NodeId) : List NodeId :=
  match tree.entry? id with
  | some entry => entry.children
  | none => []

/-- The tree with a new object behind the children of a node. -/
def addEntry (tree : ObjectTree) (parent : NodeId) (fields : List (String × Json)) :
    ObjectTree :=
  let position := (tree.children parent).length
  let grown := tree.entries.modify parent fun entry =>
    { entry with children := entry.children ++ [tree.size] }
  ⟨grown.push ⟨some fields, nameOf fields, some parent, [], position⟩⟩

mutual

/-- The tree with the objects of a value put below a node. -/
def addValue (tree : ObjectTree) (parent : NodeId) : Json → ObjectTree
  | .object fields => addFields (tree.addEntry parent fields) tree.size fields
  | .array items => addItems tree parent items
  | _ => tree

/-- The tree with the objects of some values put below a node. -/
def addItems (tree : ObjectTree) (parent : NodeId) : List Json → ObjectTree
  | [] => tree
  | item :: rest => addItems (addValue tree parent item) parent rest

/-- The tree with the objects of some fields put below a node. -/
def addFields (tree : ObjectTree) (parent : NodeId) : List (String × Json) → ObjectTree
  | [] => tree
  | (_, value) :: rest => addFields (addValue tree parent value) parent rest

end

/-- The tree of a JSON document. -/
def ofJson (value : Json) : ObjectTree :=
  addValue empty document value

/-- The nodes directly below the document. -/
def roots (tree : ObjectTree) : List NodeId :=
  tree.children document

/-- The fields of the object behind a node. -/
def fields? (tree : ObjectTree) (id : NodeId) : Option (List (String × Json)) :=
  (tree.entry? id).bind (·.fields)

/-- The name of a node, empty for a number without one. -/
def name (tree : ObjectTree) (id : NodeId) : String :=
  ((tree.entry? id).map (·.name)).getD ""

/-- Whether a node is an object of the tree. -/
def isElement (tree : ObjectTree) (id : NodeId) : Bool :=
  decide (id ≠ document) && decide (id < tree.size)

/-- The text of a value that is neither an array nor an object. -/
def scalarText? : Json → Option String
  | .null => some ""
  | .bool value => some (if value then "true" else "false")
  | .number value => some value.text
  | .string value => some value
  | .array _ => none
  | .object _ => none

/-- The text of the scalars among some values, with spaces between them. -/
def scalarsText? (items : List Json) : Option String :=
  match items.filterMap scalarText? with
  | [] => none
  | texts => some (" ".intercalate texts)

/-- The text of a value as an attribute; objects are no attributes. -/
def attributeText? : Json → Option String
  | .array items => scalarsText? items
  | value => scalarText? value

/-- The value of an attribute of a node. -/
def attribute? (tree : ObjectTree) (id : NodeId) (key : String) : Option String := do
  let fields ← tree.fields? id
  let value ← Json.lookup? fields key
  attributeText? value

/-- The parent of a node, unless it is the document. -/
def objectParent? (tree : ObjectTree) (id : NodeId) : Option NodeId :=
  ((tree.entry? id).bind (·.parent)).filter fun parent => decide (parent ≠ document)

/-- The siblings of a node, itself included, and its place among them. -/
def siblings? (tree : ObjectTree) (id : NodeId) : Option (List NodeId × Nat) := do
  let entry ← tree.entry? id
  let parent ← entry.parent
  let above ← tree.entry? parent
  some (above.children, entry.position)

/-- The sibling directly before a node. -/
def previousSibling? (tree : ObjectTree) (id : NodeId) : Option NodeId :=
  match tree.siblings? id with
  | some (siblings, position + 1) => siblings[position]?
  | _ => none

/-- The sibling directly behind a node. -/
def nextSibling? (tree : ObjectTree) (id : NodeId) : Option NodeId :=
  match tree.siblings? id with
  | some (siblings, position) => siblings[position + 1]?
  | none => none

/-- The place of a node among its siblings. -/
def index? (tree : ObjectTree) (id : NodeId) : Option Nat :=
  (tree.entry? id).map (·.position)

/-- The number of siblings with the same name before a node. -/
def indexOfType? (tree : ObjectTree) (id : NodeId) : Option Nat :=
  (tree.siblings? id).map fun (siblings, position) =>
    ((siblings.take position).filter fun sibling => tree.name sibling == tree.name id).length

/-- Whether the document is directly above a node. -/
def isRoot (tree : ObjectTree) (id : NodeId) : Bool :=
  (tree.entry? id).any fun entry => entry.parent == some document

/-- Whether a node has no children. -/
def isEmpty (tree : ObjectTree) (id : NodeId) : Bool :=
  (tree.entry? id).any fun entry => entry.children.isEmpty

/-- The tree as matching sees it: objects have no identifiers, classes or namespaces. -/
def view (tree : ObjectTree) : TreeView where
  size := tree.size
  isElement := tree.isElement
  name := tree.name
  qualifier? _ := none
  parent? := tree.objectParent?
  previous? := tree.previousSibling?
  next? := tree.nextSibling?
  index? := tree.index?
  indexOfType? := tree.indexOfType?
  children := tree.children
  attribute? := tree.attribute?
  hasIdentifier _ _ := false
  hasClass _ _ := false
  isRoot := tree.isRoot
  isEmpty := tree.isEmpty

end ObjectTree

end TreeSelectors
