import TreeSelectors.Proofs.Tree.Histories

namespace TreeSelectors.DocumentTree

/-!
# Places that are read and written

The operations on a tree look up nodes by number and siblings by place, and what
is not there is passed over. Here the same operations are written so that they
give up where a number or a place is out of bounds. On a tree that has been
built they never do, and give the same tree: `Reachable.performAll?_eq`.
-/

/-- A list without the entry at a place, which has to be there. -/
def removeAt? (nodes : List NodeId) (place : Nat) : Option (List NodeId) :=
  if place < nodes.length then some (nodes.eraseIdx place) else none

/-- A list from a place on, which must not lie behind its end. -/
def dropUpTo? (nodes : List NodeId) (place : Nat) : Option (List NodeId) :=
  if place ≤ nodes.length then some (nodes.drop place) else none

/-- The tree with one node changed, which has to be there. -/
def modify? (tree : DocumentTree) (id : NodeId) (change : DocumentNode → DocumentNode) :
    Option DocumentTree :=
  if id < tree.size then some (tree.modify id change) else none

/-- The tree with slots counted up along a list of nodes, which all have to be there. -/
def renumber? (tree : DocumentTree) (start : Nat) : List NodeId → Option DocumentTree
  | [] =>
      some tree
  | id :: rest => do
      let changed ← tree.modify? id fun node => { node with slot := start }
      changed.renumber? (start + 1) rest

/-- The tree with a node taken from its parent, where its slot has to lead to it. -/
def detach? (tree : DocumentTree) (child : NodeId) : Option DocumentTree := do
  let node ← tree.node? child
  match node.parent with
  | none =>
      some tree
  | some parent =>
      let freed ← tree.modify? child fun node => { node with parent := none, slot := 0 }
      let above ← freed.node? parent
      let remaining ← removeAt? above.children node.slot
      let shortened ← freed.modify? parent fun node => { node with children := remaining }
      let later ← dropUpTo? remaining node.slot
      shortened.renumber? node.slot later

/-- The tree with a node put behind the children of another; both have to be there. -/
def attach? (tree : DocumentTree) (parent child : NodeId) : Option DocumentTree := do
  let above ← tree.node? parent
  let grown ← tree.modify? parent fun node => { node with children := node.children ++ [child] }
  grown.modify? child fun node =>
    { node with parent := some parent, slot := above.children.length }

/-- The tree with a node moved behind the children of another, within bounds throughout. -/
def appendChild? (tree : DocumentTree) (parent child : NodeId) : Option DocumentTree :=
  if child < tree.size ∧ parent < tree.size ∧ parent ≠ child then do
    let freed ← tree.detach? child
    freed.attach? parent child
  else
    some tree

/-- The tree after a call that stays within bounds. -/
def Call.perform? (tree : DocumentTree) : Call → Option DocumentTree
  | .alloc content => some (tree.alloc content).2
  | .appendChild parent child => tree.appendChild? parent child
  | .appendElement parent data =>
      let (id, grown) := tree.alloc (.element data)
      grown.appendChild? parent id
  | .appendText parent value =>
      let (id, grown) := tree.alloc (.text value)
      grown.appendChild? parent id

/-- The tree after some calls that all stay within bounds. -/
def performAll? (tree : DocumentTree) (calls : List Call) : Option DocumentTree :=
  calls.foldlM Call.perform? tree

section Bounds

variable {tree : DocumentTree}

theorem exists_node
    {id : NodeId}
    (small : id < tree.size) :
    ∃ node, tree.node? id = some node := by
  apply Option.ne_none_iff_exists'.mp
  intro absent
  exact absurd (node?_eq_none_iff.mp absent) (Nat.not_le_of_lt small)

theorem modify?_eq
    {id : NodeId}
    (small : id < tree.size)
    (change : DocumentNode → DocumentNode) :
    tree.modify? id change = some (tree.modify id change) :=
  if_pos small

theorem renumber?_eq
    {start : Nat}
    {nodes : List NodeId}
    (small : ∀ id ∈ nodes, id < tree.size) :
    tree.renumber? start nodes = some (tree.renumber start nodes) := by
  induction nodes generalizing tree start with
  | nil => rfl
  | cons node rest inductionHypothesis =>
      have nodeSmall := small node List.mem_cons_self
      rw [renumber?, modify?_eq nodeSmall, renumber, Option.bind_eq_bind, Option.bind_some]
      apply inductionHypothesis
      intro other member
      rw [size_modify]
      exact small other (List.mem_cons_of_mem node member)

namespace Linked

variable {parent child : NodeId}

theorem parent_lt_size
    (linked : tree.Linked)
    (parented : tree.parent? child = some parent) :
    parent < tree.size :=
  lt_size_of_mem_children (linked.mem_of_parent? parented)

/-- The slot of a node leads to a place in the list of its parent. -/
theorem slot_lt_length
    (linked : tree.Linked)
    (parented : tree.parent? child = some parent) :
    tree.slot child < (tree.children parent).length :=
  (List.getElem?_eq_some_iff.mp (linked.ownPlace parented)).1

/-- Taking an attached node from its parent stays within bounds. -/
theorem detach?_of_parent?
    (linked : tree.Linked)
    (parented : tree.parent? child = some parent) :
    tree.detach? child = some (tree.detach child) := by
  obtain ⟨node, found⟩ := exists_node (lt_size_of_parent? parented)
  have hasParent : node.parent = some parent := by
    simpa [parent?, found] using parented
  have slot : tree.slot child = node.slot := by
    simp [DocumentTree.slot, found]
  have parentSmall := linked.parent_lt_size parented
  have inside := linked.slot_lt_length parented
  let freed := tree.modify child fun node => { node with parent := none, slot := 0 }
  obtain ⟨above, aboveFound⟩ : ∃ above, freed.node? parent = some above :=
    exists_node (by simpa [freed] using parentSmall)
  have aboveChildren : above.children = tree.children parent := by
    have kept : freed.children parent = tree.children parent := by
      rw [children_modify]
      split
      · rw [children_eq_getD]
      · rfl
    rw [← kept, children, aboveFound]
  have remaining :
      removeAt? above.children node.slot = some ((tree.children parent).eraseIdx node.slot) := by
    rw [removeAt?, aboveChildren, if_pos (by rwa [← slot])]
  have later :
      dropUpTo? ((tree.children parent).eraseIdx node.slot) node.slot =
        some (((tree.children parent).eraseIdx node.slot).drop node.slot) := by
    rw [dropUpTo?, List.length_eraseIdx_of_lt (by rwa [← slot]), if_pos (by omega)]
  rw [detach?, found, Option.bind_eq_bind, Option.bind_some]
  simp only [hasParent, modify?_eq (lt_size_of_parent? parented), Option.bind_eq_bind,
    Option.bind_some]
  rw [aboveFound, Option.bind_some, remaining, Option.bind_some,
    modify?_eq (by simpa [freed] using parentSmall), Option.bind_some, later, Option.bind_some,
    renumber?_eq]
  · simp only [DocumentTree.detach, parented, slot]
  · intro other member
    have inParent := List.mem_of_mem_eraseIdx (List.mem_of_mem_drop member)
    simpa using lt_size_of_parent? (linked.parent?_of_mem inParent)

theorem detach?_eq
    (linked : tree.Linked)
    (small : child < tree.size) :
    tree.detach? child = some (tree.detach child) := by
  cases parented : tree.parent? child with
  | some parent => exact linked.detach?_of_parent? parented
  | none =>
      obtain ⟨node, found⟩ := exists_node small
      have free : node.parent = none := by
        simpa [parent?, found] using parented
      rw [detach_of_parent?_eq_none parented, detach?, found, Option.bind_eq_bind,
        Option.bind_some, free]

end Linked

theorem attach?_eq
    {parent child : NodeId}
    (parentSmall : parent < tree.size)
    (childSmall : child < tree.size) :
    tree.attach? parent child = some (tree.attach parent child) := by
  obtain ⟨above, found⟩ := exists_node parentSmall
  have children : tree.children parent = above.children := by
    rw [DocumentTree.children, found]
  rw [attach?, found, Option.bind_eq_bind, Option.bind_some, modify?_eq parentSmall,
    Option.bind_eq_bind, Option.bind_some, modify?_eq (by simpa using childSmall), attach,
    children]

theorem Linked.appendChild?_eq
    (linked : tree.Linked)
    (parent child : NodeId) :
    tree.appendChild? parent child = some (tree.appendChild parent child) := by
  unfold appendChild? appendChild
  split
  · next valid =>
      obtain ⟨childSmall, parentSmall, _⟩ := valid
      rw [linked.detach?_eq childSmall, Option.bind_eq_bind, Option.bind_some]
      exact attach?_eq (by simpa using parentSmall) (by simpa using childSmall)
  · rfl

/-- A call on a tree that has been built stays within bounds. -/
theorem Reachable.perform?_eq
    (reachable : tree.Reachable)
    (call : Call) :
    call.perform? tree = some (call.perform tree) := by
  cases call with
  | alloc content => rfl
  | appendChild parent child => exact reachable.linked.appendChild?_eq parent child
  | appendElement parent data =>
      exact (Reachable.alloc _ reachable).linked.appendChild?_eq parent _
  | appendText parent value =>
      exact (Reachable.alloc _ reachable).linked.appendChild?_eq parent _

/-- Calls on a tree that has been built stay within bounds, whatever numbers they are given. -/
theorem Reachable.performAll?_eq
    (reachable : tree.Reachable)
    (calls : List Call) :
    tree.performAll? calls = some (tree.performAll calls) := by
  induction calls generalizing tree with
  | nil => rfl
  | cons call rest inductionHypothesis =>
      have later := inductionHypothesis (reachable.perform call)
      rw [performAll?, List.foldlM_cons, reachable.perform?_eq call, Option.bind_eq_bind,
        Option.bind_some]
      exact later

end Bounds

end TreeSelectors.DocumentTree
