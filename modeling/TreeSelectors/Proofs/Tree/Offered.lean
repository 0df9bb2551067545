import TreeSelectors.Proofs.Tree.DocumentCoherence
import TreeSelectors.Proofs.Tree.ObjectCoherence

namespace TreeSelectors.TreeView

/-!
# The trees that are queried

Matching sees a document tree that has been built or the objects of a JSON
document. The siblings of both are ordered; both are coherent if the document
tree leads no node back to itself.
-/

/-- The views of all trees that can be built, also of documents with a node above itself. -/
inductive Built : TreeView → Prop where
  | document {tree : DocumentTree} :
      tree.Reachable →
      Built tree.view
  | objects (value : Json) :
      Built (ObjectTree.ofJson value).view

/-- The views that queries are made for. -/
inductive Offered : TreeView → Prop where
  | document {tree : DocumentTree} :
      tree.Reachable →
      tree.Acyclic →
      Offered tree.view
  | objects (value : Json) :
      Offered (ObjectTree.ofJson value).view

theorem Built.ordered
    {view : TreeView}
    (built : view.Built) :
    view.Ordered := by
  cases built with
  | document reachable => exact reachable.linked.ordered
  | objects value => exact (ObjectTree.linked_ofJson value).coherent.ordered

theorem Offered.coherent
    {view : TreeView}
    (offered : view.Offered) :
    view.Coherent := by
  cases offered with
  | document reachable acyclic => exact reachable.linked.coherent acyclic
  | objects value => exact (ObjectTree.linked_ofJson value).coherent

end TreeSelectors.TreeView
