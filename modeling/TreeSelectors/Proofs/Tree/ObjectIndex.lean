import TreeSelectors.Proofs.Tree.ObjectVisit

namespace TreeSelectors.ObjectTree

/-!
# An object tree indexes its document

The objects of a JSON document are numbered in the order of the text, from one
on: node `index + 1` is the object at the path `objectPlaces[index]`, and its
parent is the nearest object above it on that path, or the document.
`Indexed` says so of the objects that have been numbered so far. `Appended` is
what an addition does to the lists of children, from which it follows that a
visit goes through the numbers in order: `faithfulIndex_ofJson`.
-/

/-- The node in whose list of children a node is. -/
def parent? (tree : ObjectTree) (id : NodeId) : Option NodeId :=
  (tree.entry? id).bind (·.parent)

/-- The number of the nearest object above the end of a path, among the paths listed. -/
inductive Encloses (value : Json) (listing : List (List Nat)) (path : List Nat) :
    NodeId → Prop where
  | document :
      (∀ outer, ¬ value.ObjectAbove outer path) →
      Encloses value listing path document
  | object {index : Nat} {outer : List Nat} :
      listing[index]? = some outer →
      value.ObjectAbove outer path →
      (∀ other, value.ObjectAbove other path → other <+: outer) →
      Encloses value listing path (index + 1)

/-- The nodes of a tree are the document and the objects at some paths in a value. -/
structure Indexed (value : Json) (tree : ObjectTree) (listing : List (List Nat)) : Prop where
  size :
    tree.size = listing.length + 1
  top :
    tree.fields? document = none ∧ tree.parent? document = none
  object :
    ∀ {index path}, listing[index]? = some path →
      ∃ fields, value.at? path = some (.object fields) ∧ tree.fields? (index + 1) = some fields
  parent :
    ∀ {index path}, listing[index]? = some path →
      ∃ parent, tree.parent? (index + 1) = some parent ∧ Encloses value listing path parent

/-- A tree numbers the objects of a JSON document in preorder, and its links agree with that. -/
structure FaithfulIndex (value : Json) (tree : ObjectTree) : Prop where
  listed :
    ∀ path, path ∈ value.objectPlaces ↔ ∃ fields, value.at? path = some (.object fields)
  inOrder :
    value.objectPlaces.Pairwise (· < ·)
  indexed :
    Indexed value tree value.objectPlaces
  parentFirst :
    ∀ {node parent}, tree.parent? node = some parent → parent < node
  placed :
    ∀ {node parent position},
      (tree.children parent)[position]? = some node ↔
        tree.parent? node = some parent ∧ tree.index? node = some position
  ascending :
    ∀ parent, (tree.children parent).Pairwise (· < ·)
  siblings :
    ∀ {node other}, tree.previousSibling? node = some other ↔
      tree.nextSibling? other = some node
  visited :
    tree.view.trace document none none none = ⟨List.range tree.size, List.range tree.size⟩

section Paths

variable {value : Json} {tree : ObjectTree} {listing : List (List Nat)} {path : List Nat}
  {parent : NodeId}

/-- More paths in the list do not change which object is the nearest. -/
theorem Encloses.mono
    (encloses : Encloses value listing path parent)
    (more : List (List Nat)) :
    Encloses value (listing ++ more) path parent := by
  cases encloses with
  | document none => exact .document none
  | object listed above nearest =>
      refine .object ?_ above nearest
      rw [List.getElem?_append_left (List.getElem?_eq_some_iff.mp listed).1]
      exact listed

/-- What is above a place in a value is above the value, or the value itself. -/
theorem objectAbove_child_iff
    {outer : List Nat}
    {place : Nat} :
    value.ObjectAbove outer (path ++ [place]) ↔
      value.ObjectAbove outer path ∨
        outer = path ∧ ∃ fields, value.at? path = some (.object fields) := by
  constructor
  · rintro ⟨onPath, notEnd, isObject⟩
    rcases List.prefix_concat_iff.mp onPath with whole | inside
    · exact absurd whole notEnd
    · by_cases same : outer = path
      · exact Or.inr ⟨same, same ▸ isObject⟩
      · exact Or.inl ⟨inside, same, isObject⟩
  · rintro (above | ⟨same, isObject⟩)
    · refine ⟨above.onPath.trans (List.prefix_append _ _), ?_, above.isObject⟩
      intro whole
      have shorter := above.onPath.length_le
      rw [whole, List.length_append, List.length_singleton] at shorter
      omega
    · subst same
      exact ⟨List.prefix_append _ _, by simp, isObject⟩

/-- In an object the object itself is the nearest. -/
theorem encloses_object
    {fields : List (String × Json)}
    {index : Nat}
    (listed : listing[index]? = some path)
    (leads : value.at? path = some (.object fields))
    (place : Nat) :
    Encloses value listing (path ++ [place]) (index + 1) := by
  refine .object listed (objectAbove_child_iff.mpr (Or.inr ⟨rfl, fields, leads⟩)) ?_
  intro other above
  rcases objectAbove_child_iff.mp above with further | ⟨same, _⟩
  · exact further.onPath
  · exact same ▸ List.prefix_rfl

/-- In any other value the nearest object is the one that is nearest to the value. -/
theorem Encloses.other
    (encloses : Encloses value listing path parent)
    {found : Json}
    (leads : value.at? path = some found)
    (noObject : found.objectFields? = none)
    (place : Nat) :
    Encloses value listing (path ++ [place]) parent := by
  have same : ∀ outer, value.ObjectAbove outer (path ++ [place]) ↔
      value.ObjectAbove outer path := by
    intro outer
    rw [objectAbove_child_iff]
    refine ⟨fun above => above.resolve_right ?_, Or.inl⟩
    rintro ⟨_, fields, isObject⟩
    rw [leads, Option.some.injEq] at isObject
    rw [Json.objectFields?_eq_some_iff.mpr isObject] at noObject
    cases noObject
  cases encloses with
  | document none => exact .document fun outer above => none outer ((same outer).mp above)
  | object listed above nearest =>
      exact .object listed ((same _).mpr above) fun other further =>
        nearest other ((same other).mp further)

/-- What is known of an older node apart from its children stays when an object is added. -/
theorem bind_entry?_addEntry
    {α : Type}
    {read : ObjectEntry → Option α}
    (kept : ∀ entry children, read { entry with children := children } = read entry)
    {fields : List (String × Json)}
    {id : NodeId}
    (old : id < tree.size) :
    (ObjectTree.entry? (tree.addEntry parent fields) id).bind read =
      (tree.entry? id).bind read := by
  rw [entry?_addEntry_of_ne (Nat.ne_of_lt old)]
  split
  · cases tree.entry? id with
    | none => rfl
    | some entry => exact kept entry _
  · rfl

/-- A new object is numbered behind those that there are. -/
theorem Indexed.addEntry
    (indexed : Indexed value tree listing)
    {fields : List (String × Json)}
    (leads : value.at? path = some (.object fields))
    (encloses : Encloses value listing path parent) :
    Indexed value (tree.addEntry parent fields) (listing ++ [path]) := by
  have fieldsKept : ∀ {id}, id < tree.size →
      ObjectTree.fields? (tree.addEntry parent fields) id = tree.fields? id :=
    fun old => bind_entry?_addEntry (fun _ _ => rfl) old
  have parentKept : ∀ {id}, id < tree.size →
      ObjectTree.parent? (tree.addEntry parent fields) id = tree.parent? id :=
    fun old => bind_entry?_addEntry (fun _ _ => rfl) old
  have old : ∀ {index other}, listing[index]? = some other → index + 1 < tree.size := by
    intro index other listed
    rw [indexed.size]
    exact Nat.succ_lt_succ (List.getElem?_eq_some_iff.mp listed).1
  refine ⟨?_, ?_, ?_, ?_⟩
  · rw [size_addEntry, indexed.size, List.length_append, List.length_singleton]
  · have small : document < tree.size := by
      rw [indexed.size]
      exact Nat.succ_pos _
    rw [fieldsKept small, parentKept small]
    exact indexed.top
  · intro index other listed
    rcases getElem?_concat_cases listed with inside | ⟨isNew, atEnd⟩
    · rw [fieldsKept (old inside)]
      exact indexed.object inside
    · subst isNew
      refine ⟨fields, leads, ?_⟩
      rw [atEnd, ← indexed.size, fields?, entry?_addEntry_size]
      rfl
  · intro index other listed
    rcases getElem?_concat_cases listed with inside | ⟨isNew, atEnd⟩
    · rw [parentKept (old inside)]
      obtain ⟨above, hasParent, nearest⟩ := indexed.parent inside
      exact ⟨above, hasParent, nearest.mono _⟩
    · subst isNew
      refine ⟨parent, ?_, encloses.mono _⟩
      rw [atEnd, ← indexed.size, parent?, entry?_addEntry_size]
      rfl

theorem indexed_addItems
    {items : List Json}
    (each : ∀ item ∈ items, ∀ {tree listing path parent},
      Indexed value tree listing → value.at? path = some item →
        Encloses value listing path parent →
        Indexed value (tree.addValue parent item)
          (listing ++ item.objectPlaces.map (path ++ ·)))
    (indexed : Indexed value tree listing)
    {start : Nat}
    (leads : ∀ place item, items[place]? = some item →
      value.at? (path ++ [start + place]) = some item)
    (encloses : ∀ place, Encloses value listing (path ++ [place]) parent) :
    Indexed value (tree.addItems parent items)
      (listing ++ (Json.itemPlaces start items).map (path ++ ·)) := by
  induction items generalizing tree listing start with
  | nil =>
      rw [addItems, Json.itemPlaces, List.map_nil, List.append_nil]
      exact indexed
  | cons item items inductionHypothesis =>
      obtain ⟨eachFirst, eachLater⟩ := List.forall_mem_cons.mp each
      have first := eachFirst indexed (leads 0 item rfl) (encloses start)
      have places : ((item.objectPlaces).map (start :: ·)).map (path ++ ·) =
          item.objectPlaces.map (path ++ [start] ++ ·) := by
        rw [List.map_map]
        exact List.map_congr_left fun inner _ => List.append_cons path start inner
      rw [addItems, Json.itemPlaces, List.map_append, ← List.append_assoc, places]
      refine inductionHypothesis eachLater first (fun place other found => ?_) fun place =>
        (encloses place).mono _
      rw [Nat.add_assoc, Nat.add_comm 1]
      exact leads (place + 1) other found

/-- The objects in a part of a document are numbered in the order of the text. -/
theorem indexed_addValue
    (part : Json)
    (indexed : Indexed value tree listing)
    (leads : value.at? path = some part)
    (encloses : Encloses value listing path parent) :
    Indexed value (tree.addValue parent part) (listing ++ part.objectPlaces.map (path ++ ·)) := by
  induction part using Json.parts_induction generalizing tree listing path parent with
  | step part inductionHypothesis =>
      have inside : ∀ place item, part.parts[place]? = some item →
          value.at? (path ++ [0 + place]) = some item := by
        intro place item found
        rw [Json.at?_child leads, Nat.zero_add, found]
      cases found : part.objectFields? with
      | none =>
          rw [addValue_other found, Json.objectPlaces_other found]
          exact indexed_addItems inductionHypothesis indexed inside (encloses.other leads found)
      | some fields =>
          have isObject := Json.objectFields?_eq_some_iff.mp found
          rw [isObject] at leads
          have entered := indexed.addEntry leads encloses
          have listed : (listing ++ [path])[listing.length]? = some path := by
            simp
          rw [addValue_object found, Json.objectPlaces_object found, List.map_cons,
            List.append_nil, List.append_cons, indexed.size]
          exact indexed_addItems inductionHypothesis entered inside (encloses_object listed leads)

theorem indexed_ofJson
    (value : Json) :
    Indexed value (ofJson value) value.objectPlaces := by
  have start : Indexed value empty [] := by
    refine ⟨rfl, ⟨rfl, rfl⟩, ?_, ?_⟩
    · intro index path listed
      cases listed
    · intro index path listed
      cases listed
  have top : Encloses value [] [] document := by
    refine .document fun outer above => ?_
    exact above.notEnd (List.prefix_nil.mp above.onPath)
  have indexed := indexed_addValue value start rfl top
  simpa [ofJson] using indexed

end Paths

namespace Linked

variable {tree : ObjectTree}

/-- A place in a list of children is that of a node that is given it there. -/
theorem getElem?_children_iff
    (linked : tree.Linked)
    {node parent : NodeId}
    {position : Nat} :
    (tree.children parent)[position]? = some node ↔
      tree.parent? node = some parent ∧ tree.index? node = some position := by
  constructor
  · intro place
    obtain ⟨entry, found, hasParent, samePlace⟩ := linked.childPlace place
    simp [parent?, index?, found, hasParent, samePlace]
  · rintro ⟨hasParent, hasIndex⟩
    obtain ⟨entry, found, isParent⟩ := Option.bind_eq_some_iff.mp hasParent
    rw [index?, found, Option.map_some, Option.some.injEq] at hasIndex
    rw [← hasIndex]
    exact (linked.parent_lt found isParent).2

/-- Siblings are given as a list of children and the place in it. -/
theorem place_of_siblings?
    (linked : tree.Linked)
    {node : NodeId}
    {siblings : List NodeId}
    {position : Nat}
    (found : tree.siblings? node = some (siblings, position)) :
    ∃ parent, siblings = tree.children parent ∧
      (tree.children parent)[position]? = some node := by
  simp only [siblings?, Option.bind_eq_bind, Option.bind_eq_some_iff, Option.some.injEq,
    Prod.mk.injEq] at found
  obtain ⟨entry, entryFound, parent, hasParent, above, aboveFound, same, samePlace⟩ := found
  refine ⟨parent, ?_, ?_⟩
  · rw [← same, children, aboveFound]
  · rw [← samePlace]
    exact (linked.parent_lt entryFound hasParent).2

/-- A node comes directly before another if that one comes directly behind it. -/
theorem previousSibling?_iff
    (linked : tree.Linked)
    {node other : NodeId} :
    tree.previousSibling? node = some other ↔ tree.nextSibling? other = some node := by
  rw [previousSibling?, nextSibling?]
  constructor
  · intro before
    split at before
    · next siblings position found =>
        obtain ⟨parent, same, place⟩ := linked.place_of_siblings? found
        rw [same] at before
        rw [linked.siblings?_eq before]
        exact place
    · cases before
  · intro behind
    split at behind
    · next siblings position found =>
        obtain ⟨parent, same, place⟩ := linked.place_of_siblings? found
        rw [same] at behind
        rw [linked.siblings?_eq behind]
        exact place
    · cases behind

end Linked

/-- Objects are put behind those with smaller numbers. -/
theorem ascending_of_grown
    {tree : ObjectTree}
    (grown : empty.Grown tree)
    (parent : NodeId) :
    (tree.children parent).Pairwise (· < ·) := by
  induction grown with
  | same =>
      cases parent with
      | zero => exact .nil
      | succ parent => exact .nil
  | @entry tree above fields grown small inductionHypothesis =>
      have linked := linked_empty.grown grown
      rw [children_addEntry small]
      split
      · next same =>
          rw [← same, List.pairwise_append]
          refine ⟨inductionHypothesis, List.pairwise_singleton _ _, ?_⟩
          intro child isChild last isLast
          rw [List.mem_singleton.mp isLast]
          obtain ⟨entry, found, _⟩ := linked.entry_of_mem isChild
          exact lt_size_of_entry found
      · exact inductionHypothesis

/-- The tree of a JSON document indexes the objects in it. -/
theorem faithfulIndex_ofJson
    (value : Json) :
    FaithfulIndex value (ofJson value) := by
  have linked := linked_ofJson value
  exact {
    listed := fun _ => Json.mem_objectPlaces_iff
    inOrder := Json.pairwise_objectPlaces value
    indexed := indexed_ofJson value
    parentFirst := by
      intro node parent hasParent
      obtain ⟨entry, found, isParent⟩ := Option.bind_eq_some_iff.mp hasParent
      exact (linked.parent_lt found isParent).1
    placed := linked.getElem?_children_iff
    ascending := ascending_of_grown (grown_ofJson value)
    siblings := linked.previousSibling?_iff
    visited := trace_ofJson value
  }

end TreeSelectors.ObjectTree
