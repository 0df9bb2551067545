import TreeSelectors.Proofs.Tree.Kinship
import TreeSelectors.Tree.Objects

namespace TreeSelectors.ObjectTree

/-!
# Object trees are coherent

A new object goes behind the children of an older one. `Linked` says what this
keeps: every object is in the list of one older node, at the position that it
is given. The tree of a JSON document grows object by object, `grown_ofJson`, so
that its links agree at every moment.
-/

/-- The links of a tree agree with each other, and parents come first. -/
structure Linked (tree : ObjectTree) : Prop where
  hasDocument :
    document < tree.size
  childPlace :
    ∀ {parent child place},
      (tree.children parent)[place]? = some child →
      ∃ entry, tree.entry? child = some entry ∧
        entry.parent = some parent ∧ entry.position = place
  ownPlace :
    ∀ {node entry},
      tree.entry? node = some entry →
      node ≠ document →
      ∃ parent, entry.parent = some parent ∧
        parent < node ∧ (tree.children parent)[entry.position]? = some node
  documentFree :
    ∀ {entry}, tree.entry? document = some entry → entry.parent = none

section AddEntry

variable {tree : ObjectTree} {parent : NodeId} {fields : List (String × Json)}

/-- A number that is too large belongs to no entry. -/
theorem entry?_eq_none_iff
    {id : NodeId} :
    tree.entry? id = none ↔ tree.size ≤ id := by
  simp [size, entry?]

/-- A number with an entry is a node of the tree. -/
theorem lt_size_of_entry
    {id : NodeId}
    {entry : ObjectEntry}
    (found : tree.entry? id = some entry) :
    id < tree.size := by
  apply Nat.lt_of_not_le
  intro beyond
  rw [entry?_eq_none_iff.mpr beyond] at found
  exact absurd found (by simp)

/-- An entry makes the tree larger by one. -/
@[simp] theorem size_addEntry :
    (tree.addEntry parent fields).size = tree.size + 1 := by
  simp [addEntry, size]

/-- The new entry gets the next number, and is the last child of its parent. -/
theorem entry?_addEntry_size :
    ObjectTree.entry? (tree.addEntry parent fields) tree.size =
      some ⟨some fields, nameOf fields, some parent, [], (tree.children parent).length⟩ := by
  simp [addEntry, entry?, size, Array.getElem_push]

/-- A new entry changes nothing of the others but the children of its parent. -/
theorem entry?_addEntry_of_ne
    {id : NodeId}
    (different : id ≠ tree.size) :
    ObjectTree.entry? (tree.addEntry parent fields) id =
      if parent = id then
        (tree.entry? id).map fun entry => { entry with children := entry.children ++ [tree.size] }
      else tree.entry? id := by
  have notLast : id ≠ tree.entries.size := different
  simp [addEntry, entry?, Array.getElem?_push, Array.getElem?_modify, notLast]

/-- A new entry comes last among the children of its parent; all other lists stay. -/
theorem children_addEntry
    (small : parent < tree.size)
    (id : NodeId) :
    (tree.addEntry parent fields).children id =
      if id = parent then tree.children parent ++ [tree.size] else tree.children id := by
  by_cases last : id = tree.size
  · subst last
    rw [if_neg (Nat.ne_of_gt small)]
    simp [children, entry?_addEntry_size, entry?_eq_none_iff.mpr (Nat.le_refl tree.size)]
  · by_cases same : id = parent
    · subst same
      cases found : tree.entry? id with
      | none => exact absurd (entry?_eq_none_iff.mp found) (Nat.not_le_of_lt small)
      | some entry => simp [children, entry?_addEntry_of_ne last, found]
    · rw [if_neg same]
      simp [children, entry?_addEntry_of_ne last, Ne.symm same]

/-- A node keeps its place among the children it stands with. -/
theorem getElem?_children_addEntry
    (small : parent < tree.size)
    {above node : NodeId}
    {place : Nat}
    (found : (tree.children above)[place]? = some node) :
    ((tree.addEntry parent fields).children above)[place]? = some node := by
  rw [children_addEntry small]
  by_cases same : above = parent
  · subst same
    rw [if_pos rfl, List.getElem?_append_left (List.getElem?_eq_some_iff.mp found).1]
    exact found
  · rw [if_neg same]
    exact found

/-- Nothing but the list of children changes in an entry that was there before. -/
theorem entry?_addEntry_old
    (parent : NodeId)
    (fields : List (String × Json))
    {id : NodeId}
    {entry : ObjectEntry}
    (found : tree.entry? id = some entry) :
    ∃ changed, ObjectTree.entry? (tree.addEntry parent fields) id = some changed ∧
      changed.parent = entry.parent ∧ changed.position = entry.position := by
  have different : id ≠ tree.size := Nat.ne_of_lt (lt_size_of_entry found)
  rw [entry?_addEntry_of_ne different, found]
  by_cases same : parent = id
  · exact ⟨_, if_pos same, rfl, rfl⟩
  · exact ⟨_, if_neg same, rfl, rfl⟩

/-- An entry that is not the new one was there before. -/
theorem old_of_entry?_addEntry
    {id : NodeId}
    (different : id ≠ tree.size)
    {changed : ObjectEntry}
    (found : ObjectTree.entry? (tree.addEntry parent fields) id = some changed) :
    ∃ entry, tree.entry? id = some entry ∧
      changed.parent = entry.parent ∧ changed.position = entry.position := by
  cases before : tree.entry? id with
  | none =>
      rw [entry?_addEntry_of_ne different, before] at found
      simp at found
  | some entry =>
      obtain ⟨now, nowFound, sameParent, samePlace⟩ := entry?_addEntry_old parent fields before
      rw [nowFound, Option.some.injEq] at found
      subst found
      exact ⟨entry, rfl, sameParent, samePlace⟩

/-- A new object keeps the links in agreement. -/
theorem Linked.addEntry
    (linked : tree.Linked)
    (small : parent < tree.size) :
    (tree.addEntry parent fields).Linked where
  hasDocument := by
    rw [size_addEntry]
    exact Nat.lt_succ_of_lt linked.hasDocument
  childPlace := by
    intro other child place found
    rw [children_addEntry small] at found
    have old : (tree.children other)[place]? = some child →
        ∃ entry, ObjectTree.entry? (tree.addEntry parent fields) child = some entry ∧
          entry.parent = some other ∧ entry.position = place := by
      intro inside
      obtain ⟨entry, entryFound, entryParent, entryPlace⟩ := linked.childPlace inside
      obtain ⟨changed, changedFound, sameParent, samePlace⟩ :=
        entry?_addEntry_old parent fields entryFound
      exact ⟨changed, changedFound, sameParent.trans entryParent, samePlace.trans entryPlace⟩
    by_cases same : other = parent
    · subst same
      rw [if_pos rfl] at found
      rcases getElem?_concat_cases found with inside | ⟨isNew, atEnd⟩
      · exact old inside
      · subst isNew
        exact ⟨_, entry?_addEntry_size, rfl, atEnd.symm⟩
    · rw [if_neg same] at found
      exact old found
  ownPlace := by
    intro node entry found notDocument
    by_cases last : node = tree.size
    · subst last
      rw [entry?_addEntry_size, Option.some.injEq] at found
      subst found
      refine ⟨parent, rfl, small, ?_⟩
      rw [children_addEntry small, if_pos rfl]
      simp
    · obtain ⟨before, beforeFound, sameParent, samePlace⟩ := old_of_entry?_addEntry last found
      obtain ⟨above, hasParent, first, place⟩ := linked.ownPlace beforeFound notDocument
      rw [samePlace]
      exact ⟨above, sameParent.trans hasParent, first, getElem?_children_addEntry small place⟩
  documentFree := by
    intro entry found
    have notLast : document ≠ tree.size := Nat.ne_of_lt linked.hasDocument
    obtain ⟨before, beforeFound, sameParent, _⟩ := old_of_entry?_addEntry notLast found
    exact sameParent.trans (linked.documentFree beforeFound)

end AddEntry

/-- A tree has grown out of another by new objects, each below a node that was there. -/
inductive Grown (before : ObjectTree) : ObjectTree → Prop where
  | same :
      Grown before before
  | entry {tree : ObjectTree} {parent : NodeId} (fields : List (String × Json)) :
      Grown before tree →
      parent < tree.size →
      Grown before (tree.addEntry parent fields)

namespace Grown

/-- A tree that has grown has lost no nodes. -/
theorem larger
    {before after : ObjectTree}
    (grown : before.Grown after) :
    before.size ≤ after.size := by
  induction grown with
  | same => exact Nat.le_refl _
  | entry _ _ _ inductionHypothesis =>
      rw [size_addEntry]
      exact Nat.le_succ_of_le inductionHypothesis

/-- Growing twice is growing. -/
theorem trans
    {before between after : ObjectTree}
    (first : before.Grown between)
    (second : between.Grown after) :
    before.Grown after := by
  induction second with
  | same => exact first
  | entry fields _ small inductionHypothesis => exact .entry fields inductionHypothesis small

end Grown

mutual

/-- Whatever a value puts below a node is put there object by object. -/
theorem grown_addValue
    {tree : ObjectTree}
    {parent : NodeId}
    (small : parent < tree.size) :
    (value : Json) → tree.Grown (tree.addValue parent value)
  | .object fields => by
      rw [ObjectTree.addValue]
      have entered : tree.Grown (tree.addEntry parent fields) := .entry fields .same small
      exact entered.trans (grown_addFields (by simp) fields)
  | .array items => by
      rw [ObjectTree.addValue]
      exact grown_addItems small items
  | .null => .same
  | .bool _ => .same
  | .number _ => .same
  | .string _ => .same

/-- Adding the items of an array lets the tree grow, item by item. -/
theorem grown_addItems
    {tree : ObjectTree}
    {parent : NodeId}
    (small : parent < tree.size) :
    (items : List Json) → tree.Grown (tree.addItems parent items)
  | [] => .same
  | item :: rest => by
      rw [ObjectTree.addItems]
      have first := grown_addValue small item
      exact first.trans (grown_addItems (Nat.lt_of_lt_of_le small first.larger) rest)

/-- Adding the fields of an object lets the tree grow, field by field. -/
theorem grown_addFields
    {tree : ObjectTree}
    {parent : NodeId}
    (small : parent < tree.size) :
    (fields : List (String × Json)) → tree.Grown (tree.addFields parent fields)
  | [] => .same
  | (_, value) :: rest => by
      rw [ObjectTree.addFields]
      have first := grown_addValue small value
      exact first.trans (grown_addFields (Nat.lt_of_lt_of_le small first.larger) rest)

end

/-- The tree of a value has grown out of the empty one. -/
theorem grown_ofJson
    (value : Json) :
    empty.Grown (ofJson value) :=
  grown_addValue Nat.zero_lt_one value

/-- Links that agree go on to agree as the tree grows. -/
theorem Linked.grown
    {before after : ObjectTree}
    (linked : before.Linked)
    (grown : before.Grown after) :
    after.Linked := by
  induction grown with
  | same => exact linked
  | entry _ _ small inductionHypothesis => exact inductionHypothesis.addEntry small

theorem linked_empty :
    empty.Linked where
  hasDocument := Nat.zero_lt_one
  childPlace := by
    intro parent child place found
    cases parent with
    | zero => simp [children, entry?, empty] at found
    | succ parent => simp [children, entry?, empty] at found
  ownPlace := by
    intro node entry found notDocument
    exact absurd (Nat.lt_one_iff.mp (lt_size_of_entry found)) notDocument
  documentFree := by
    intro entry found
    simp only [empty, document, entry?, List.getElem?_toArray, List.getElem?_cons_zero,
      Option.some.injEq] at found
    rw [← found]

/-- The links of the tree of a JSON document agree with each other. -/
theorem linked_ofJson
    (value : Json) :
    (ofJson value).Linked :=
  linked_empty.grown (grown_ofJson value)

namespace Linked

variable {tree : ObjectTree}

/-- Every node but the document is an element. -/
theorem isElement_iff
    {id : NodeId} :
    tree.isElement id = true ↔ id ≠ document ∧ id < tree.size := by
  simp [isElement]

theorem exists_entry
    {id : NodeId}
    (small : id < tree.size) :
    ∃ entry, tree.entry? id = some entry := by
  apply Option.ne_none_iff_exists'.mp
  intro absent
  exact absurd (entry?_eq_none_iff.mp absent) (Nat.not_le_of_lt small)

/-- A child has an entry, which names its parent. -/
theorem entry_of_mem
    (linked : tree.Linked)
    {parent child : NodeId}
    (member : child ∈ tree.children parent) :
    ∃ entry, tree.entry? child = some entry ∧ entry.parent = some parent := by
  obtain ⟨place, found⟩ := List.mem_iff_getElem?.mp member
  obtain ⟨entry, entryFound, hasParent, _⟩ := linked.childPlace found
  exact ⟨entry, entryFound, hasParent⟩

/-- Children are objects, never the document. -/
theorem isElement_of_mem
    (linked : tree.Linked)
    {parent child : NodeId}
    (member : child ∈ tree.children parent) :
    tree.isElement child = true := by
  obtain ⟨entry, found, hasParent⟩ := linked.entry_of_mem member
  refine isElement_iff.mpr ⟨?_, lt_size_of_entry found⟩
  intro isDocument
  subst isDocument
  rw [linked.documentFree found] at hasParent
  exact absurd hasParent (by simp)

/-- The parent of an object comes before it. -/
theorem parent_lt
    (linked : tree.Linked)
    {node parent : NodeId}
    {entry : ObjectEntry}
    (found : tree.entry? node = some entry)
    (hasParent : entry.parent = some parent) :
    parent < node ∧ (tree.children parent)[entry.position]? = some node := by
  have notDocument : node ≠ document := by
    intro isDocument
    subst isDocument
    rw [linked.documentFree found] at hasParent
    exact absurd hasParent (by simp)
  obtain ⟨above, own, first, place⟩ := linked.ownPlace found notDocument
  rw [hasParent, Option.some.injEq] at own
  subst own
  exact ⟨first, place⟩

/-- The parent of an object is the one in its entry, unless that is the document. -/
theorem objectParent?_eq_some_iff
    {node parent : NodeId} :
    tree.objectParent? node = some parent ↔
      (∃ entry, tree.entry? node = some entry ∧ entry.parent = some parent) ∧
        parent ≠ document := by
  simp [objectParent?, Option.filter_eq_some_iff, Option.bind_eq_some_iff]

/-- What is above an object comes before it. -/
theorem lt_of_leads
    (linked : tree.Linked)
    {node target : NodeId}
    (leads : Leads tree.objectParent? node target) :
    target < node := by
  induction leads with
  | step parented =>
      obtain ⟨⟨entry, found, hasParent⟩, _⟩ := objectParent?_eq_some_iff.mp parented
      exact (linked.parent_lt found hasParent).1
  | further parented _ inductionHypothesis =>
      obtain ⟨⟨entry, found, hasParent⟩, _⟩ := objectParent?_eq_some_iff.mp parented
      exact Nat.lt_trans inductionHypothesis (linked.parent_lt found hasParent).1

/-- The siblings of an object are the list that it is in. -/
theorem siblings?_eq
    (linked : tree.Linked)
    {parent node : NodeId}
    {position : Nat}
    (place : (tree.children parent)[position]? = some node) :
    tree.siblings? node = some (tree.children parent, position) := by
  have parentSmall : parent < tree.size := by
    apply Nat.lt_of_not_le
    intro beyond
    simp [children, entry?_eq_none_iff.mpr beyond] at place
  obtain ⟨entry, found, hasParent, samePlace⟩ := linked.childPlace place
  obtain ⟨above, aboveFound⟩ := exists_entry parentSmall
  simp [siblings?, found, hasParent, aboveFound, children, samePlace]

/-- The place of an object, from the list that it is in. -/
theorem placedBetween
    (linked : tree.Linked)
    {parent node : NodeId}
    {before behind : List NodeId}
    (shape : tree.children parent = before ++ node :: behind) :
    tree.view.PlacedBetween before node behind := by
  have place : (tree.children parent)[before.length]? = some node := by
    simp [shape]
  obtain ⟨entry, found, _, position⟩ := linked.childPlace place
  have siblings : tree.siblings? node = some (before ++ node :: behind, before.length) := by
    rw [linked.siblings?_eq place, shape]
  constructor
  · change tree.previousSibling? node = _
    rw [previousSibling?, siblings]
    rcases List.eq_nil_or_concat before with none | ⟨earlier, last, split⟩
    · simp [none]
    · simp [split]
  · change tree.nextSibling? node = _
    rw [nextSibling?, siblings]
    simp [List.getElem?_append_right, List.head?_eq_getElem?]
  · change tree.index? node = _
    simp [index?, found, position]
  · change tree.indexOfType? node = _
    simp [indexOfType?, siblings, TreeView.sameType, view]

/-- No child stands twice in a list, for it has only one place. -/
theorem children_nodup
    (linked : tree.Linked)
    (parent : NodeId) :
    (tree.children parent).Nodup := by
  apply List.nodup_iff_getElem?_ne_getElem?.mpr
  intro first second before inside same
  have found := List.getElem?_eq_getElem inside
  obtain ⟨secondEntry, secondFound, _, secondPlace⟩ := linked.childPlace found
  obtain ⟨firstEntry, firstFound, _, firstPlace⟩ := linked.childPlace (same.trans found)
  rw [firstFound, Option.some.injEq] at secondFound
  subst secondFound
  omega

/-- An object tree is coherent as matching sees it. -/
theorem coherent
    (linked : tree.Linked) :
    tree.view.Coherent where
  elementSmall := by
    intro node element
    exact (isElement_iff.mp element).2
  childElement := linked.isElement_of_mem
  parentElement := by
    intro node parent parented
    obtain ⟨⟨entry, found, hasParent⟩, notDocument⟩ := objectParent?_eq_some_iff.mp parented
    have first := (linked.parent_lt found hasParent).1
    exact isElement_iff.mpr ⟨notDocument, Nat.lt_trans first (lt_size_of_entry found)⟩
  childOfParent := by
    intro node parent _ parented
    obtain ⟨⟨entry, found, hasParent⟩, _⟩ := objectParent?_eq_some_iff.mp parented
    exact List.mem_iff_getElem?.mpr ⟨_, (linked.parent_lt found hasParent).2⟩
  parentOfChild := by
    intro parent child member element
    exact objectParent?_eq_some_iff.mpr
      ⟨linked.entry_of_mem member, (isElement_iff.mp element).1⟩
  childrenNodup := linked.children_nodup
  oneParent := by
    intro first second child inFirst inSecond
    obtain ⟨entry, found, firstParent⟩ := linked.entry_of_mem inFirst
    obtain ⟨other, otherFound, secondParent⟩ := linked.entry_of_mem inSecond
    rw [found, Option.some.injEq] at otherFound
    subst otherFound
    exact Option.some.inj (firstParent.symm.trans secondParent)
  placed := linked.placedBetween
  placedAlone := by
    intro node element alone
    obtain ⟨notDocument, small⟩ := isElement_iff.mp element
    obtain ⟨entry, found⟩ := exists_entry small
    obtain ⟨parent, _, _, place⟩ := linked.ownPlace found notDocument
    exact absurd (List.mem_iff_getElem?.mpr ⟨_, place⟩) (alone parent)
  acyclic := by
    intro node above
    exact Nat.lt_irrefl node (linked.lt_of_leads above)

end Linked

end TreeSelectors.ObjectTree
