import TreeSelectors.Proofs.Tree.Rooting

namespace TreeSelectors.DocumentTree

/-!
# Down from a node and up to it

The walk down goes by lists of children and keeps what is still to come on a
stack; the walk up goes by the stored parents. In a tree that leads nobody back
to itself both come to an end, neither meets a node twice, and a node is met on
the way down from another exactly if the other is met on the way up from it:
`Reachable.walks_converse`.
-/

/-- What the walk down from a node meets, for as long as it is followed. -/
structure WalksDown (tree : DocumentTree) (node : NodeId) (listing : List NodeId) : Prop where
  /-- The stack is empty behind the last node. -/
  ends :
    tree.Drained [node] listing
  preorder :
    tree.nodeView.Preorder [node] listing
  distinct :
    listing.Nodup
  stepwise :
    ∀ limit, tree.inclusiveDescendants limit node = listing.take limit

/-- What the walk up from a node meets, for as long as it is followed. -/
structure WalksUp (tree : DocumentTree) (node : NodeId) (chain : List NodeId) : Prop where
  /-- The last node has no parent. -/
  ends :
    Trail tree.parent? node chain
  distinct :
    chain.Nodup
  stepwise :
    ∀ limit, tree.ancestors limit node = chain.take limit

section Walks

variable {tree : DocumentTree}

theorem Linked.walksDown
    (linked : tree.Linked)
    (acyclic : tree.Acyclic)
    (node : NodeId) :
    tree.WalksDown node (node :: tree.nodeView.descendants node) := by
  have coherent := linked.coherent_nodeView acyclic
  have drained := linked.drained_listing acyclic node
  exact ⟨drained, coherent.preorder_singleton node, coherent.nodup_listing node,
    drained.descendantsOfStack_eq_take⟩

theorem Linked.walksUp
    (linked : tree.Linked)
    (acyclic : tree.Acyclic)
    (node : NodeId) :
    tree.WalksUp node (tree.ancestors tree.size node) := by
  have trail : Trail tree.parent? node (tree.ancestors tree.size node) :=
    trail_follow acyclic linked.parent_lt_size node
  exact ⟨trail, follow_nodup acyclic tree.size node, trail.follow_eq_take⟩

/-- A node is listed below another exactly if it leads up to the other. -/
theorem Linked.mem_listing_iff
    (linked : tree.Linked)
    (acyclic : tree.Acyclic)
    {upper lower : NodeId}
    (small : upper < tree.size) :
    lower ∈ upper :: tree.nodeView.descendants upper ↔
      lower = upper ∨ Leads tree.parent? lower upper := by
  have coherent := linked.coherent_nodeView acyclic
  have element : tree.nodeView.isElement upper = true := decide_eq_true small
  rw [(coherent.preorder_singleton upper).mem_iff]
  simp only [List.mem_singleton, exists_eq_left]
  refine or_congr_right ((coherent.reaches_iff_above element).trans ?_)
  refine and_iff_right_of_imp fun above => ?_
  -- What leads up to a node has a parent, so that it is a node of the tree.
  cases above with
  | step parented => exact decide_eq_true (lt_size_of_parent? parented)
  | further parented _ => exact decide_eq_true (lt_size_of_parent? parented)

/-- The walk down from a node meets the node and those whose walks up meet it, each once. -/
theorem Reachable.walks_converse
    (reachable : tree.Reachable)
    (acyclic : tree.Acyclic)
    {upper : NodeId}
    (small : upper < tree.size) :
    ∃ listing, tree.WalksDown upper listing ∧
      ∀ lower, ∃ chain, tree.WalksUp lower chain ∧
        (lower ∈ listing ↔ lower = upper ∨ upper ∈ chain) := by
  have linked := reachable.linked
  refine ⟨_, linked.walksDown acyclic upper, fun lower => ?_⟩
  have up := linked.walksUp acyclic lower
  refine ⟨_, up, ?_⟩
  rw [linked.mem_listing_iff acyclic small, up.ends.mem_iff_leads]

end Walks

/-- A list of two items, of which the first, with a text in it, is moved into the second. -/
def nestedItems : List Call :=
  [.appendElement root ⟨"ul", none, []⟩,
    .appendElement 1 ⟨"li", none, []⟩,
    .appendText 2 "one",
    .appendElement 1 ⟨"li", none, []⟩,
    .appendChild 4 2]

theorem nestedItems_acyclic :
    (build nestedItems).Acyclic := by
  intro node circle
  have small : node < 5 := by
    cases circle with
    | step parented => exact lt_size_of_parent? parented
    | further parented _ => exact lt_size_of_parent? parented
  have short : ∀ node < 5, (follow (build nestedItems).parent? 5 node).length < 5 := by
    decide +kernel
  exact (trail_follow_of_length_lt (short node small)).not_leads_self circle

/-- The item that has been moved comes behind the one that it is in now, and its text last. -/
theorem walks_converse_nestedItems :
    (build nestedItems).Reachable ∧
      (build nestedItems).Acyclic ∧
      1 < (build nestedItems).size ∧
      (build nestedItems).inclusiveDescendants 5 1 = [1, 4, 2, 3] ∧
      (build nestedItems).ancestors 5 3 = [2, 4, 1, 0] ∧
      ∃ listing, (build nestedItems).WalksDown 1 listing ∧
        ∀ lower, ∃ chain, (build nestedItems).WalksUp lower chain ∧
          (lower ∈ listing ↔ lower = 1 ∨ 1 ∈ chain) := by
  have reachable : (build nestedItems).Reachable := reachable_build nestedItems
  have small : 1 < (build nestedItems).size := by
    decide +kernel
  exact ⟨reachable, nestedItems_acyclic, small, by decide +kernel, by decide +kernel,
    reachable.walks_converse nestedItems_acyclic small⟩

end TreeSelectors.DocumentTree
