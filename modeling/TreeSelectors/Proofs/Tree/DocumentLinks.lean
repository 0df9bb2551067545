import TreeSelectors.Proofs.Tree.Trails
import TreeSelectors.Tree.DocumentView
import Mathlib.Data.List.Nodup

namespace TreeSelectors.DocumentTree

/-!
# The links of a document tree

Parents, children and slots of a document tree are stored apart. `Linked` says
that they describe one tree: a node has the parent in whose list it is, and its
slot is its place there. Every operation keeps this, so every reachable tree
has it: `Reachable.linked`.
-/

/-- The trees that can be built. -/
inductive Reachable : DocumentTree → Prop where
  | empty :
      Reachable .empty
  | alloc {tree : DocumentTree} (content : Content) :
      Reachable tree →
      Reachable (tree.alloc content).2
  | appendChild {tree : DocumentTree} (parent child : NodeId) :
      Reachable tree →
      Reachable (tree.appendChild parent child)

/-- The links of a tree agree with each other. -/
structure Linked (tree : DocumentTree) : Prop where
  childPlace :
    ∀ {parent child place},
      (tree.children parent)[place]? = some child →
      tree.parent? child = some parent ∧ tree.slot child = place
  ownPlace :
    ∀ {node parent},
      tree.parent? node = some parent →
      (tree.children parent)[tree.slot node]? = some node

/-- No node is above itself. -/
def Acyclic (tree : DocumentTree) : Prop :=
  ∀ node, ¬ Leads tree.parent? node node

/-- Nobody is above itself where parents are older than their children. -/
theorem acyclic_of_parent_lt
    {tree : DocumentTree}
    (older : ∀ node parent, tree.parent? node = some parent → parent < node) :
    tree.Acyclic := by
  have before : ∀ {node target}, Leads tree.parent? node target → target < node := by
    intro node target leads
    induction leads with
    | step parented => exact older _ _ parented
    | further parented _ inductionHypothesis =>
        exact Nat.lt_trans inductionHypothesis (older _ _ parented)
  intro node leads
  exact Nat.lt_irrefl node (before leads)

/-- A tree that can be built can be given one more node. -/
theorem Reachable.appendNew
    {tree : DocumentTree}
    (reachable : tree.Reachable)
    (parent : NodeId)
    (content : Content) :
    (tree.appendNew parent content).2.Reachable :=
  .appendChild parent _ (.alloc content reachable)

section Observations

variable (tree : DocumentTree) (id other : NodeId)

theorem children_eq_getD :
    tree.children id = ((tree.node? id).map (·.children)).getD [] := by
  cases node : tree.node? id <;> simp [children, node]

theorem slot_eq_getD :
    tree.slot id = ((tree.node? id).map (·.slot)).getD 0 := by
  cases node : tree.node? id <;> simp [slot, node]

/-- Changing a node changes its own parent link and no other. -/
theorem parent?_modify
    (change : DocumentNode → DocumentNode) :
    (tree.modify id change).parent? other =
      if id = other then (tree.node? other).bind fun node => (change node).parent
      else tree.parent? other := by
  by_cases same : id = other
  · subst same
    cases node : tree.node? id <;> simp [parent?, node?_modify, node]
  · simp [parent?, node?_modify, same]

/-- Changing a node changes its own list of children and no other. -/
theorem children_modify
    (change : DocumentNode → DocumentNode) :
    (tree.modify id change).children other =
      if id = other then ((tree.node? other).map fun node => (change node).children).getD []
      else tree.children other := by
  by_cases same : id = other
  · simp [children_eq_getD, node?_modify, same, Function.comp_def]
  · simp [children_eq_getD, node?_modify, same]

/-- Changing a node changes its own place and no other. -/
theorem slot_modify
    (change : DocumentNode → DocumentNode) :
    (tree.modify id change).slot other =
      if id = other then ((tree.node? other).map fun node => (change node).slot).getD 0
      else tree.slot other := by
  by_cases same : id = other
  · simp [slot_eq_getD, node?_modify, same, Function.comp_def]
  · simp [slot_eq_getD, node?_modify, same]

/-- A change of links leaves what the nodes are. -/
theorem content?_modify
    {change : DocumentNode → DocumentNode}
    (keeps : ∀ node, (change node).content = node.content) :
    (tree.modify id change).content? other = tree.content? other := by
  rw [content?, content?, node?_modify]
  split
  · cases tree.node? other <;> simp [keeps]
  · rfl

variable {tree id}

/-- A number that is too large belongs to no node. -/
theorem node?_eq_none_iff :
    tree.node? id = none ↔ tree.size ≤ id := by
  simp [node?, size]

/-- A node with a parent is a node of the tree. -/
theorem lt_size_of_parent?
    {parent : NodeId}
    (linked : tree.parent? id = some parent) :
    id < tree.size := by
  apply Nat.lt_of_not_le
  intro beyond
  simp [parent?, node?_eq_none_iff.mpr beyond] at linked

/-- A child is a node of the tree, for it has a parent. -/
theorem lt_size_of_mem_children
    {child : NodeId}
    (member : child ∈ tree.children id) :
    id < tree.size := by
  apply Nat.lt_of_not_le
  intro beyond
  simp [children, node?_eq_none_iff.mpr beyond] at member

end Observations

section Alloc

variable (tree : DocumentTree) (content : Content) (id : NodeId)

theorem node?_size :
    tree.node? tree.size = none :=
  node?_eq_none_iff.mpr (Nat.le_refl tree.size)

/-- The new node gets the next number, and nothing is linked to it. -/
theorem node?_alloc_size :
    (tree.alloc content).2.node? tree.size = some (.detached content) := by
  simp [node?, alloc, size]

theorem node?_alloc_of_ne
    {id : NodeId}
    (different : id ≠ tree.size) :
    (tree.alloc content).2.node? id = tree.node? id := by
  rw [size] at different
  simp [node?, alloc, Array.getElem?_push, different]

/-- A new node changes no parent. -/
@[simp] theorem parent?_alloc :
    (tree.alloc content).2.parent? id = tree.parent? id := by
  by_cases same : id = tree.size
  · simp [parent?, same, node?_alloc_size, node?_size, DocumentNode.detached]
  · simp [parent?, node?_alloc_of_ne tree content same]

/-- A new node changes no list of children. -/
@[simp] theorem children_alloc :
    (tree.alloc content).2.children id = tree.children id := by
  by_cases same : id = tree.size
  · simp [children, same, node?_alloc_size, node?_size, DocumentNode.detached]
  · simp [children, node?_alloc_of_ne tree content same]

@[simp] theorem slot_alloc :
    (tree.alloc content).2.slot id = tree.slot id := by
  by_cases same : id = tree.size
  · simp [slot, same, node?_alloc_size, node?_size, DocumentNode.detached]
  · simp [slot, node?_alloc_of_ne tree content same]

end Alloc

section Renumber

variable (tree : DocumentTree)

@[simp] theorem size_renumber
    (start : Nat)
    (nodes : List NodeId) :
    (tree.renumber start nodes).size = tree.size := by
  induction nodes generalizing tree start with
  | nil => rfl
  | cons node rest inductionHypothesis => simp [renumber, inductionHypothesis]

/-- Numbering children anew changes no parent. -/
@[simp] theorem parent?_renumber
    (start : Nat)
    (nodes : List NodeId)
    (id : NodeId) :
    (tree.renumber start nodes).parent? id = tree.parent? id := by
  induction nodes generalizing tree start with
  | nil => rfl
  | cons node rest inductionHypothesis =>
      rw [renumber, inductionHypothesis, parent?_modify]
      split <;> rfl

/-- Numbering children anew changes no list of children. -/
@[simp] theorem children_renumber
    (start : Nat)
    (nodes : List NodeId)
    (id : NodeId) :
    (tree.renumber start nodes).children id = tree.children id := by
  induction nodes generalizing tree start with
  | nil => rfl
  | cons node rest inductionHypothesis =>
      rw [renumber, inductionHypothesis, children_modify]
      split
      · rw [children_eq_getD]
      · rfl

theorem content?_renumber
    (start : Nat)
    (nodes : List NodeId)
    (id : NodeId) :
    (tree.renumber start nodes).content? id = tree.content? id := by
  induction nodes generalizing tree start with
  | nil => rfl
  | cons node rest inductionHypothesis =>
      rw [renumber, inductionHypothesis, content?_modify]
      exact fun _ => rfl

/-- Renumbering changes no slot but those of the nodes it goes along. -/
theorem slot_renumber_of_notMem
    {start : Nat}
    {nodes : List NodeId}
    {id : NodeId}
    (absent : id ∉ nodes) :
    (tree.renumber start nodes).slot id = tree.slot id := by
  induction nodes generalizing tree start with
  | nil => rfl
  | cons node rest inductionHypothesis =>
      rw [List.mem_cons, not_or] at absent
      rw [renumber, inductionHypothesis _ absent.2, slot_modify, if_neg (Ne.symm absent.1)]

/-- Renumbering counts up from its start. -/
theorem slot_renumber_getElem?
    {start place : Nat}
    {nodes : List NodeId}
    {id : NodeId}
    (distinct : nodes.Nodup)
    (found : nodes[place]? = some id)
    (small : id < tree.size) :
    (tree.renumber start nodes).slot id = start + place := by
  induction nodes generalizing tree start place with
  | nil => simp at found
  | cons node rest inductionHypothesis =>
      rw [List.nodup_cons] at distinct
      rw [renumber]
      cases place with
      | zero =>
          simp only [List.getElem?_cons_zero, Option.some.injEq] at found
          subst found
          rw [slot_renumber_of_notMem _ distinct.1, slot_modify, if_pos rfl]
          cases present : tree.node? node with
          | none => exact absurd (node?_eq_none_iff.mp present) (Nat.not_le_of_lt small)
          | some entry => rfl
      | succ place =>
          simp only [List.getElem?_cons_succ] at found
          rw [inductionHypothesis _ distinct.2 found (by simpa using small)]
          omega

end Renumber

namespace Linked

variable {tree : DocumentTree}

/-- A child in a list has the node of the list as its parent. -/
theorem parent?_of_mem
    (linked : tree.Linked)
    {parent child : NodeId}
    (member : child ∈ tree.children parent) :
    tree.parent? child = some parent := by
  obtain ⟨place, found⟩ := List.mem_iff_getElem?.mp member
  exact (linked.childPlace found).1

/-- A node with a parent is in the list of that parent. -/
theorem mem_of_parent?
    (linked : tree.Linked)
    {parent child : NodeId}
    (parented : tree.parent? child = some parent) :
    child ∈ tree.children parent :=
  List.mem_iff_getElem?.mpr ⟨_, linked.ownPlace parented⟩

/-- No child stands twice in a list, for it has only one place. -/
theorem children_nodup
    (linked : tree.Linked)
    (parent : NodeId) :
    (tree.children parent).Nodup := by
  apply List.nodup_iff_getElem?_ne_getElem?.mpr
  intro first second before inside same
  have found := List.getElem?_eq_getElem inside
  have secondPlace := (linked.childPlace found).2
  have firstPlace := (linked.childPlace (same.trans found)).2
  omega

/-- No node is in the lists of two parents. -/
theorem parent_unique
    (linked : tree.Linked)
    {first second child : NodeId}
    (inFirst : child ∈ tree.children first)
    (inSecond : child ∈ tree.children second) :
    first = second := by
  have fromFirst := linked.parent?_of_mem inFirst
  have fromSecond := linked.parent?_of_mem inSecond
  exact Option.some.inj (fromFirst.symm.trans fromSecond)

/-- A node in no list of children has no parent. -/
theorem parent?_eq_none
    (linked : tree.Linked)
    {node : NodeId}
    (alone : ∀ parent, node ∉ tree.children parent) :
    tree.parent? node = none := by
  cases parented : tree.parent? node with
  | none => rfl
  | some parent => exact absurd (linked.mem_of_parent? parented) (alone parent)

/-- Slots are found again from the lists of children. -/
theorem of_mem
    (childPlace :
      ∀ {parent child place},
        (tree.children parent)[place]? = some child →
        tree.parent? child = some parent ∧ tree.slot child = place)
    (member :
      ∀ {node parent}, tree.parent? node = some parent → node ∈ tree.children parent) :
    tree.Linked where
  childPlace := childPlace
  ownPlace := by
    intro node parent parented
    obtain ⟨place, found⟩ := List.mem_iff_getElem?.mp (member parented)
    rw [(childPlace found).2]
    exact found

end Linked

section Detach

variable {tree : DocumentTree} {child : NodeId}

/-- There is nothing to take away where a node has no parent. -/
theorem detach_of_parent?_eq_none
    (free : tree.parent? child = none) :
    tree.detach child = tree := by
  simp [detach, free]

@[simp] theorem size_detach :
    (tree.detach child).size = tree.size := by
  cases parented : tree.parent? child with
  | none => rw [detach_of_parent?_eq_none parented]
  | some parent => simp [detach, parented]

theorem content?_detach
    (id : NodeId) :
    (tree.detach child).content? id = tree.content? id := by
  cases parented : tree.parent? child with
  | none => rw [detach_of_parent?_eq_none parented]
  | some parent =>
      simp only [detach, parented]
      rw [content?_renumber, content?_modify, content?_modify]
      · exact fun _ => rfl
      · exact fun _ => rfl

/-- Taking a node away takes its parent and leaves all others. -/
theorem parent?_detach
    (id : NodeId) :
    (tree.detach child).parent? id = if id = child then none else tree.parent? id := by
  by_cases same : id = child
  · subst same
    rw [if_pos rfl]
    cases parented : tree.parent? id with
    | none => rw [detach_of_parent?_eq_none parented, parented]
    | some parent =>
        simp only [detach, parented, parent?_renumber, parent?_modify, node?_modify, if_true]
        split
        · cases tree.node? id <;> rfl
        · cases tree.node? id <;> rfl
  · rw [if_neg same]
    cases parented : tree.parent? child with
    | none => rw [detach_of_parent?_eq_none parented]
    | some parent =>
        simp only [detach, parented, parent?_renumber, parent?_modify, node?_modify]
        rw [if_neg (Ne.symm same), if_neg (Ne.symm same)]
        split <;> rfl

/-- The node is taken out of the list of its parent; all other lists stay. -/
theorem children_detach
    {parent : NodeId}
    (parented : tree.parent? child = some parent)
    (id : NodeId) :
    (tree.detach child).children id =
      if id = parent then (tree.children parent).eraseIdx (tree.slot child)
      else tree.children id := by
  simp only [detach, parented, children_renumber, children_modify, node?_modify]
  by_cases same : parent = id
  · subst same
    rw [if_pos rfl, if_pos rfl]
    by_cases self : child = parent
    · rw [if_pos self]
      cases node : tree.node? parent <;> simp [children_eq_getD, node]
    · rw [if_neg self]
      cases node : tree.node? parent <;> simp [children_eq_getD, node]
  · rw [if_neg same, if_neg (Ne.symm same)]
    split
    · rw [children_eq_getD]
    · rfl

/-- A slot changes only for the node that is taken and for its later siblings. -/
theorem slot_detach_of_notMem
    {parent id : NodeId}
    (parented : tree.parent? child = some parent)
    (different : id ≠ child)
    (notLater : id ∉ ((tree.children parent).eraseIdx (tree.slot child)).drop (tree.slot child)) :
    (tree.detach child).slot id = tree.slot id := by
  simp only [detach, parented]
  rw [slot_renumber_of_notMem _ notLater, slot_modify, node?_modify, slot_modify,
    if_neg (Ne.symm different), if_neg (Ne.symm different)]
  split
  · rw [tree.slot_eq_getD id]
  · rfl

/-- The siblings behind the node are numbered anew. -/
theorem slot_detach_getElem?
    {parent id : NodeId}
    {place : Nat}
    (parented : tree.parent? child = some parent)
    (distinct : ((tree.children parent).eraseIdx (tree.slot child)).Nodup)
    (found : ((tree.children parent).eraseIdx (tree.slot child))[place]? = some id)
    (later : tree.slot child ≤ place)
    (small : id < tree.size) :
    (tree.detach child).slot id = place := by
  simp only [detach, parented]
  have inRest :
      (((tree.children parent).eraseIdx (tree.slot child)).drop
        (tree.slot child))[place - tree.slot child]? = some id := by
    rw [List.getElem?_drop, Nat.add_sub_cancel' later]
    exact found
  have restDistinct := distinct.sublist (List.drop_sublist (tree.slot child) _)
  rw [slot_renumber_getElem? _ restDistinct inRest (by simpa using small)]
  omega

namespace Linked

variable {parent node : NodeId}

/-- A node that stays below the parent is not the one taken, and is told its new place. -/
theorem slot_detach_sibling
    (linked : tree.Linked)
    (parented : tree.parent? child = some parent)
    {place : Nat}
    (remaining : ((tree.children parent).eraseIdx (tree.slot child))[place]? = some node) :
    node ≠ child ∧ tree.parent? node = some parent ∧
      (tree.detach child).slot node = place := by
  have found := remaining
  rw [List.getElem?_eraseIdx] at found
  by_cases before : place < tree.slot child
  · rw [if_pos before] at found
    obtain ⟨nodeParent, nodeSlot⟩ := linked.childPlace found
    have different : node ≠ child := by
      intro equal
      subst equal
      omega
    refine ⟨different, nodeParent, ?_⟩
    rw [slot_detach_of_notMem parented different, nodeSlot]
    intro member
    obtain ⟨step, found⟩ := List.mem_iff_getElem?.mp member
    rw [List.getElem?_drop, List.getElem?_eraseIdx, if_neg (by omega)] at found
    have laterSlot := (linked.childPlace found).2
    omega
  · rw [if_neg before] at found
    obtain ⟨nodeParent, nodeSlot⟩ := linked.childPlace found
    have different : node ≠ child := by
      intro equal
      subst equal
      omega
    have distinct := (linked.children_nodup parent).sublist
      (List.eraseIdx_sublist (tree.children parent) (tree.slot child))
    exact ⟨different, nodeParent, slot_detach_getElem? parented distinct remaining (by omega)
      (lt_size_of_parent? nodeParent)⟩

/-- A node below another parent keeps its place. -/
theorem slot_detach_stranger
    (linked : tree.Linked)
    (parented : tree.parent? child = some parent)
    {other : NodeId}
    (nodeParent : tree.parent? node = some other)
    (elsewhere : other ≠ parent) :
    node ≠ child ∧ (tree.detach child).slot node = tree.slot node := by
  have different : node ≠ child := by
    intro equal
    subst equal
    rw [parented, Option.some.injEq] at nodeParent
    exact elsewhere nodeParent.symm
  refine ⟨different, slot_detach_of_notMem parented different ?_⟩
  intro member
  have inParent := List.mem_of_mem_eraseIdx (List.mem_of_mem_drop member)
  rw [linked.parent?_of_mem inParent, Option.some.injEq] at nodeParent
  exact elsewhere nodeParent.symm

/-- Every other child stays in the list that it is in. -/
theorem mem_children_detach
    (linked : tree.Linked)
    (parented : tree.parent? child = some parent)
    (different : node ≠ child)
    {other : NodeId}
    (nodeParent : tree.parent? node = some other) :
    node ∈ (tree.detach child).children other := by
  rw [children_detach parented]
  by_cases same : other = parent
  · subst same
    rw [if_pos rfl, List.mem_eraseIdx_iff_getElem?]
    refine ⟨tree.slot node, ?_, linked.ownPlace nodeParent⟩
    intro equalSlots
    have own := linked.ownPlace nodeParent
    rw [equalSlots, linked.ownPlace parented, Option.some.injEq] at own
    exact different own.symm
  · rw [if_neg same]
    exact linked.mem_of_parent? nodeParent

/-- Taking a node from its parent keeps the links in agreement. -/
theorem detach
    (linked : tree.Linked) :
    (tree.detach child).Linked := by
  cases parented : tree.parent? child with
  | none =>
      rw [detach_of_parent?_eq_none parented]
      exact linked
  | some parent =>
      apply Linked.of_mem
      · intro other node place found
        rw [children_detach parented] at found
        rw [parent?_detach]
        by_cases same : other = parent
        · subst same
          rw [if_pos rfl] at found
          obtain ⟨different, nodeParent, slot⟩ := linked.slot_detach_sibling parented found
          exact ⟨by rw [if_neg different, nodeParent], slot⟩
        · rw [if_neg same] at found
          obtain ⟨nodeParent, nodeSlot⟩ := linked.childPlace found
          obtain ⟨different, slot⟩ := linked.slot_detach_stranger parented nodeParent same
          exact ⟨by rw [if_neg different, nodeParent], slot.trans nodeSlot⟩
      · intro node other nodeParent
        rw [parent?_detach] at nodeParent
        by_cases equal : node = child
        · rw [if_pos equal] at nodeParent
          exact absurd nodeParent (by simp)
        · rw [if_neg equal] at nodeParent
          exact linked.mem_children_detach parented equal nodeParent

end Linked

end Detach

section Attach

variable {tree : DocumentTree} {parent child : NodeId}

theorem content?_attach
    (id : NodeId) :
    (tree.attach parent child).content? id = tree.content? id := by
  rw [attach, content?_modify, content?_modify]
  · exact fun _ => rfl
  · exact fun _ => rfl

/-- Hanging in a node gives it a parent and leaves all others. -/
theorem parent?_attach
    (small : child < tree.size)
    (id : NodeId) :
    (tree.attach parent child).parent? id =
      if id = child then some parent else tree.parent? id := by
  simp only [attach, parent?_modify, node?_modify]
  by_cases same : child = id
  · subst same
    rw [if_pos rfl, if_pos rfl]
    cases node : tree.node? child with
    | none => exact absurd (node?_eq_none_iff.mp node) (Nat.not_le_of_lt small)
    | some entry => split <;> rfl
  · rw [if_neg same, if_neg (Ne.symm same)]
    split <;> rfl

/-- The node comes last among the children of its parent; all other lists stay. -/
theorem children_attach
    (small : parent < tree.size)
    (id : NodeId) :
    (tree.attach parent child).children id =
      if id = parent then tree.children parent ++ [child] else tree.children id := by
  simp only [attach, children_modify, node?_modify]
  by_cases same : parent = id
  · subst same
    rw [if_pos rfl, if_pos rfl, if_pos rfl]
    cases node : tree.node? parent with
    | none => exact absurd (node?_eq_none_iff.mp node) (Nat.not_le_of_lt small)
    | some entry => split <;> simp [children, node]
  · rw [if_neg same, if_neg same, if_neg (Ne.symm same)]
    split
    · rw [children_eq_getD]
    · rfl

/-- Its place is behind the children that were there. -/
theorem slot_attach
    (small : child < tree.size)
    (id : NodeId) :
    (tree.attach parent child).slot id =
      if id = child then (tree.children parent).length else tree.slot id := by
  simp only [attach, slot_modify, node?_modify]
  by_cases same : child = id
  · subst same
    rw [if_pos rfl, if_pos rfl]
    cases node : tree.node? child with
    | none => exact absurd (node?_eq_none_iff.mp node) (Nat.not_le_of_lt small)
    | some entry => split <;> rfl
  · rw [if_neg same, if_neg (Ne.symm same)]
    split
    · rw [slot_eq_getD]
    · rfl

/-- Putting a free node below another keeps the links in agreement. -/
theorem Linked.attach
    (linked : tree.Linked)
    (free : tree.parent? child = none)
    (childSmall : child < tree.size)
    (parentSmall : parent < tree.size) :
    (tree.attach parent child).Linked := by
  have notChild : ∀ {other}, child ∉ tree.children other := by
    intro other member
    rw [linked.parent?_of_mem member] at free
    exact absurd free (by simp)
  apply Linked.of_mem
  · intro other node place found
    rw [children_attach parentSmall] at found
    rw [parent?_attach childSmall, slot_attach childSmall]
    have old : (tree.children other)[place]? = some node →
        (if node = child then some parent else tree.parent? node) = some other ∧
          (if node = child then (tree.children parent).length else tree.slot node) = place := by
      intro inside
      have different : node ≠ child := by
        intro equal
        subst equal
        exact notChild (List.mem_iff_getElem?.mpr ⟨place, inside⟩)
      rw [if_neg different, if_neg different]
      exact linked.childPlace inside
    by_cases same : other = parent
    · subst same
      rw [if_pos rfl] at found
      rcases getElem?_concat_cases found with inside | ⟨isNew, atEnd⟩
      · exact old inside
      · rw [if_pos isNew, if_pos isNew]
        exact ⟨rfl, atEnd.symm⟩
    · rw [if_neg same] at found
      exact old found
  · intro node other nodeParent
    rw [parent?_attach childSmall] at nodeParent
    rw [children_attach parentSmall]
    by_cases equal : node = child
    · rw [if_pos equal, Option.some.injEq] at nodeParent
      rw [if_pos nodeParent.symm, equal]
      simp
    · rw [if_neg equal] at nodeParent
      have member := linked.mem_of_parent? nodeParent
      by_cases same : other = parent
      · subst same
        rw [if_pos rfl]
        exact List.mem_append_left _ member
      · rw [if_neg same]
        exact member

end Attach

/-- The links of every tree that can be built agree with each other. -/
theorem Reachable.linked
    {tree : DocumentTree}
    (reachable : tree.Reachable) :
    tree.Linked := by
  induction reachable with
  | empty =>
      apply Linked.of_mem
      · intro parent child place found
        have member := List.mem_iff_getElem?.mpr ⟨place, found⟩
        have small := lt_size_of_mem_children member
        have root : parent = 0 := Nat.lt_one_iff.mp small
        subst root
        exact absurd member (by simp [children, node?, DocumentTree.empty, DocumentNode.detached])
      · intro node parent parented
        have root : node = 0 := Nat.lt_one_iff.mp (lt_size_of_parent? parented)
        subst root
        exact absurd parented (by simp [parent?, node?, DocumentTree.empty, DocumentNode.detached])
  | alloc content _ inductionHypothesis =>
      refine ⟨?_, ?_⟩
      · intro parent child place found
        simp only [children_alloc, parent?_alloc, slot_alloc] at found ⊢
        exact inductionHypothesis.childPlace found
      · intro node parent parented
        simp only [children_alloc, parent?_alloc, slot_alloc] at parented ⊢
        exact inductionHypothesis.ownPlace parented
  | appendChild parent child _ inductionHypothesis =>
      unfold DocumentTree.appendChild
      split
      · next valid =>
          obtain ⟨childSmall, parentSmall, _⟩ := valid
          refine inductionHypothesis.detach.attach ?_ (by simpa using childSmall)
            (by simpa using parentSmall)
          rw [parent?_detach, if_pos rfl]
      · exact inductionHypothesis

end TreeSelectors.DocumentTree
