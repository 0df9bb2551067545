import TreeSelectors.Proofs.Tree.Bounds
import TreeSelectors.Proofs.Tree.DocumentCoherence

namespace TreeSelectors.DocumentTree

/-!
# Consistency of links

Parent, children and slot say the same thing three times over. `Consistent` is
what a reader of one of them may conclude about the others, and about the
siblings that are read off them. It holds after every history, and no call of a
history reads or writes out of bounds: `build_consistent`. Nothing here needs
the tree to be without circles.
-/

/-- Links that can be relied on, whichever of them is followed. -/
structure Consistent (tree : DocumentTree) : Prop where
  childPlace :
    ∀ {parent child place},
      (tree.children parent)[place]? = some child →
      child < tree.size ∧ tree.parent? child = some parent ∧ tree.slot child = place
  ownPlace :
    ∀ {node parent},
      tree.parent? node = some parent →
      (tree.children parent)[tree.slot node]? = some node
  freeSlot :
    ∀ {node}, tree.parent? node = none → tree.slot node = 0
  distinct :
    ∀ parent, (tree.children parent).Nodup
  oneList :
    ∀ {first second child},
      child ∈ tree.children first →
      child ∈ tree.children second →
      first = second
  /-- Both slices around a node are taken from inside its list of siblings. -/
  slotInside :
    ∀ {node siblings slot},
      tree.siblings? node = some (siblings, slot) →
      slot < siblings.length
  surroundings :
    ∀ {node parent},
      tree.parent? node = some parent →
      (tree.preceding node).reverse ++ node :: tree.following node = tree.children parent
  siblingSteps :
    ∀ {elder younger},
      tree.nextSibling? elder = some younger ↔ tree.previousSibling? younger = some elder
  elementSteps :
    ∀ {elder younger},
      tree.isElement elder = true →
      tree.isElement younger = true →
      (tree.nextElement? elder = some younger ↔ tree.previousElement? younger = some elder)

/-- One node stands before another in a list of children, and nothing between them passes a test. -/
def Neighbours
    (tree : DocumentTree)
    (test : NodeId → Bool)
    (elder younger : NodeId) : Prop :=
  ∃ parent before between behind,
    tree.children parent = before ++ elder :: (between ++ younger :: behind) ∧
      ∀ node ∈ between, test node = false

section Siblings

variable {tree : DocumentTree}

theorem following_of_free
    {node : NodeId}
    (free : tree.parent? node = none) :
    tree.following node = [] := by
  simp [following, siblings?, free]

theorem preceding_of_free
    {node : NodeId}
    (free : tree.parent? node = none) :
    tree.preceding node = [] := by
  simp [preceding, siblings?, free]

/-- The next sibling is the nearest of those behind. -/
theorem nextSibling?_eq_find?
    (node : NodeId) :
    tree.nextSibling? node = (tree.following node).find? fun _ => true := by
  cases found : tree.siblings? node with
  | none => simp [nextSibling?, following, found]
  | some place =>
      simp only [nextSibling?, following, found, ← List.head?_drop]
      cases place.1.drop (place.2 + 1) <;> rfl

/-- The previous sibling is the nearest of those before. -/
theorem previousSibling?_eq_find?
    (node : NodeId) :
    tree.previousSibling? node = (tree.preceding node).find? fun _ => true := by
  cases found : tree.siblings? node with
  | none => simp [previousSibling?, preceding, found]
  | some place =>
      simp only [previousSibling?, preceding, found, ← List.head?_reverse]
      cases (place.1.take place.2).reverse <;> rfl

namespace Linked

/-- An attached node has its place in the list of its parent. -/
theorem exists_split
    (linked : tree.Linked)
    {node parent : NodeId}
    (parented : tree.parent? node = some parent) :
    ∃ before behind, tree.children parent = before ++ node :: behind :=
  List.append_of_mem (linked.mem_of_parent? parented)

/-- What a search behind a node finds is the next that passes, seen from the node. -/
theorem find?_following_iff
    (linked : tree.Linked)
    {test : NodeId → Bool}
    {elder younger : NodeId} :
    (tree.following elder).find? test = some younger ↔
      tree.Neighbours test elder younger ∧ test younger = true := by
  constructor
  · intro found
    cases parented : tree.parent? elder with
    | none => simp [following_of_free parented] at found
    | some parent =>
        obtain ⟨before, behind, shape⟩ := linked.exists_split parented
        rw [linked.following_of_split shape, List.find?_eq_some_iff_append] at found
        obtain ⟨passes, between, later, behindShape, refused⟩ := found
        refine ⟨⟨parent, before, between, later, by rw [shape, behindShape], ?_⟩, passes⟩
        intro node member
        simpa using refused node member
  · rintro ⟨⟨parent, before, between, behind, shape, refused⟩, passes⟩
    rw [linked.following_of_split shape, List.find?_eq_some_iff_append]
    refine ⟨passes, between, behind, rfl, ?_⟩
    intro node member
    simpa using refused node member

/-- What a search before a node finds is the nearest that passes, seen from the node. -/
theorem find?_preceding_iff
    (linked : tree.Linked)
    {test : NodeId → Bool}
    {elder younger : NodeId} :
    (tree.preceding younger).find? test = some elder ↔
      tree.Neighbours test elder younger ∧ test elder = true := by
  constructor
  · intro found
    cases parented : tree.parent? younger with
    | none => simp [preceding_of_free parented] at found
    | some parent =>
        obtain ⟨before, behind, shape⟩ := linked.exists_split parented
        rw [linked.preceding_of_split shape, List.find?_eq_some_iff_append] at found
        obtain ⟨passes, nearer, farther, beforeShape, refused⟩ := found
        have split : before = farther.reverse ++ elder :: nearer.reverse := by
          rw [← List.reverse_reverse before, beforeShape]
          simp
        refine ⟨⟨parent, farther.reverse, nearer.reverse, behind, by simp [shape, split], ?_⟩,
          passes⟩
        intro node member
        simpa using refused node (List.mem_reverse.mp member)
  · rintro ⟨⟨parent, before, between, behind, shape, refused⟩, passes⟩
    have split : tree.children parent = (before ++ elder :: between) ++ younger :: behind := by
      simp [shape]
    rw [linked.preceding_of_split split, List.find?_eq_some_iff_append]
    refine ⟨passes, between.reverse, before.reverse, by simp, ?_⟩
    intro node member
    simpa using refused node (List.mem_reverse.mp member)

/-- A step on and a step back undo each other between nodes that both pass the test. -/
theorem find?_following_iff_find?_preceding
    (linked : tree.Linked)
    {test : NodeId → Bool}
    {elder younger : NodeId}
    (elderPasses : test elder = true)
    (youngerPasses : test younger = true) :
    (tree.following elder).find? test = some younger ↔
      (tree.preceding younger).find? test = some elder := by
  rw [linked.find?_following_iff, linked.find?_preceding_iff]
  simp [elderPasses, youngerPasses]

/-- Linked trees are consistent once their free nodes have no slot. -/
theorem consistent
    (linked : tree.Linked)
    (freeSlot : ∀ {node}, tree.parent? node = none → tree.slot node = 0) :
    tree.Consistent where
  childPlace := by
    intro parent child place found
    obtain ⟨parented, slot⟩ := linked.childPlace found
    exact ⟨lt_size_of_parent? parented, parented, slot⟩
  ownPlace := linked.ownPlace
  freeSlot := freeSlot
  distinct := linked.children_nodup
  oneList := linked.parent_unique
  slotInside := by
    intro node siblings slot found
    obtain ⟨parent, parented, place⟩ := Option.map_eq_some_iff.mp found
    cases place
    exact linked.slot_lt_length parented
  surroundings := by
    intro node parent parented
    obtain ⟨before, behind, shape⟩ := linked.exists_split parented
    rw [linked.preceding_of_split shape, linked.following_of_split shape, List.reverse_reverse,
      shape]
  siblingSteps := by
    intro elder younger
    rw [nextSibling?_eq_find?, previousSibling?_eq_find?]
    exact linked.find?_following_iff_find?_preceding rfl rfl
  elementSteps := by
    intro elder younger elderElement youngerElement
    exact linked.find?_following_iff_find?_preceding elderElement youngerElement

end Linked

/-- Taking a node out of a list gives no slot to a node that is attached nowhere. -/
theorem Linked.slot_detach_of_free
    (linked : tree.Linked)
    (freeSlot : ∀ {node}, tree.parent? node = none → tree.slot node = 0)
    {child node : NodeId}
    (different : node ≠ child)
    (free : tree.parent? node = none) :
    (tree.detach child).slot node = 0 := by
  cases parented : tree.parent? child with
  | none =>
      rw [detach_of_parent?_eq_none parented]
      exact freeSlot free
  | some parent =>
      rw [slot_detach_of_notMem parented different]
      · exact freeSlot free
      · intro later
        have member := List.mem_of_mem_eraseIdx (List.mem_of_mem_drop later)
        simp [linked.parent?_of_mem member] at free

/-- A node that is attached nowhere has no slot. -/
theorem Reachable.slot_of_free
    (reachable : tree.Reachable)
    {node : NodeId}
    (free : tree.parent? node = none) :
    tree.slot node = 0 := by
  induction reachable generalizing node with
  | empty =>
      cases node with
      | zero => rfl
      | succ node => rfl
  | alloc content _ inductionHypothesis =>
      rw [slot_alloc]
      exact inductionHypothesis (by simpa using free)
  | @appendChild tree parent child built inductionHypothesis =>
      by_cases valid : child < tree.size ∧ parent < tree.size ∧ parent ≠ child
      · have small : child < (tree.detach child).size := by simpa using valid.1
        rw [DocumentTree.appendChild, if_pos valid] at free ⊢
        rw [parent?_attach small, parent?_detach] at free
        have different : node ≠ child := by
          intro same
          simp [same] at free
        rw [if_neg different, if_neg different] at free
        rw [slot_attach small, if_neg different]
        exact built.linked.slot_detach_of_free inductionHypothesis different free
      · rw [DocumentTree.appendChild, if_neg valid] at free ⊢
        exact inductionHypothesis free

theorem Reachable.consistent
    (reachable : tree.Reachable) :
    tree.Consistent :=
  reachable.linked.consistent reachable.slot_of_free

end Siblings

/-- A history stays within bounds and leaves consistent links, whatever numbers it is made of. -/
theorem build_consistent
    (calls : List Call) :
    performAll? .empty calls = some (build calls) ∧ (build calls).Consistent :=
  ⟨Reachable.empty.performAll?_eq calls, (reachable_build calls).consistent⟩

end TreeSelectors.DocumentTree
