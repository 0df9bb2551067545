import TreeSelectors.Proofs.Tree.DocumentCoherence
import TreeSelectors.Proofs.Tree.ObjectCoherence
import TreeSelectors.Proofs.Tree.SameElements

namespace TreeSelectors

/-!
# Object trees as document trees

Appending an element for every object, in the order of the objects, makes a
document tree of an object tree: `ObjectTree.toDocument`. A new object is one
more element, `toDocument_addEntry`, so that at every moment both trees have the
same nodes below each other: `Mirrors`.
-/

namespace Element

/-- Setting an attribute leaves those with other names. -/
theorem attribute?_withAttribute_of_ne
    {element : Element}
    {name value other : String}
    (different : name ≠ other) :
    (element.withAttribute name value).attribute? other = element.attribute? other := by
  have kept : (element.attributes.filter fun entry => entry.1 != name).find?
      (fun entry => entry.1 == other) = element.attributes.find? fun entry => entry.1 == other := by
    rw [List.find?_filter]
    congr 1
    funext entry
    by_cases same : entry.1 = other
    · simp [same, Ne.symm different]
    · simp [same]
  simp [withAttribute, attribute?, different, kept]

/-- Of the values that are set for an attribute the last one counts. -/
theorem attribute?_withAttributes
    (element : Element)
    (entries : List (String × String))
    (name : String) :
    (element.withAttributes entries).attribute? name =
      ((entries.reverse.find? fun entry => entry.1 == name).map Prod.snd).or
        (element.attribute? name) := by
  induction entries generalizing element with
  | nil => rfl
  | cons entry entries inductionHypothesis =>
      have step : element.withAttributes (entry :: entries) =
          (element.withAttribute entry.1 entry.2).withAttributes entries := rfl
      rw [step, inductionHypothesis, List.reverse_cons, List.find?_append, Option.map_or,
        Option.or_assoc]
      congr 1
      by_cases same : entry.1 = name
      · subst same
        simp [attribute?_withAttribute]
      · simp [attribute?_withAttribute_of_ne same, same]

/-- Setting attributes changes neither the name nor the namespace. -/
theorem type_withAttributes
    (element : Element)
    (entries : List (String × String)) :
    (element.withAttributes entries).name = element.name ∧
      (element.withAttributes entries).qualifier = element.qualifier := by
  induction entries generalizing element with
  | nil => exact ⟨rfl, rfl⟩
  | cons entry entries inductionHypothesis =>
      exact inductionHypothesis (element.withAttribute entry.1 entry.2)

end Element

namespace DocumentTree

section AppendNew

variable {tree : DocumentTree} {parent : NodeId}

/-- A new node is first made and then hung in, for it has no parent to leave. -/
theorem appendNew_eq_attach
    (small : parent < tree.size)
    (content : Content) :
    (tree.appendNew parent content).2 = (tree.alloc content).2.attach parent tree.size := by
  have sizeGrown : (tree.alloc content).2.size = tree.size + 1 := by
    simp [alloc, size]
  have free : (tree.alloc content).2.parent? tree.size = none := by
    rw [parent?_alloc, parent?, node?_size]
    rfl
  have valid : tree.size < (tree.alloc content).2.size ∧ parent < (tree.alloc content).2.size ∧
      parent ≠ tree.size := by
    rw [sizeGrown]
    exact ⟨Nat.lt_succ_self _, Nat.lt_succ_of_lt small, Nat.ne_of_lt small⟩
  have unfolded : (tree.appendNew parent content).2 =
      (tree.alloc content).2.appendChild parent tree.size := rfl
  rw [unfolded, appendChild, if_pos valid, detach_of_parent?_eq_none free]

theorem size_appendNew
    (small : parent < tree.size)
    (content : Content) :
    (tree.appendNew parent content).2.size = tree.size + 1 := by
  rw [appendNew_eq_attach small, attach, size_modify, size_modify]
  simp [alloc, size]

/-- A new node comes last among the children of its parent; all other lists stay. -/
theorem children_appendNew
    (small : parent < tree.size)
    (content : Content)
    (id : NodeId) :
    (tree.appendNew parent content).2.children id =
      if id = parent then tree.children parent ++ [tree.size] else tree.children id := by
  have grown : parent < (tree.alloc content).2.size := by
    simp only [alloc, size, Array.size_push]
    exact Nat.lt_succ_of_lt small
  rw [appendNew_eq_attach small, children_attach grown, children_alloc, children_alloc]

/-- A new node changes the content of no other. -/
theorem content?_alloc
    (content : Content)
    (id : NodeId) :
    (tree.alloc content).2.content? id =
      if id = tree.size then some content else tree.content? id := by
  by_cases same : id = tree.size
  · subst same
    rw [if_pos rfl, content?, node?_alloc_size]
    rfl
  · rw [if_neg same, content?, node?_alloc_of_ne tree content same, content?]

/-- A new element is there under the next number, beside the others. -/
theorem element?_appendNew
    (small : parent < tree.size)
    (data : Element)
    (id : NodeId) :
    (tree.appendNew parent (.element data)).2.element? id =
      if id = tree.size then some data else tree.element? id := by
  rw [appendNew_eq_attach small, element?, content?_attach, content?_alloc]
  by_cases same : id = tree.size
  · rw [if_pos same, if_pos same]
  · rw [if_neg same, if_neg same, element?]

end AppendNew

end DocumentTree

namespace ObjectTree

/-- The attributes of an object: its keys with the texts of what is found for them. -/
def attributesOf (fields : List (String × Json)) : List (String × String) :=
  fields.filterMap fun field =>
    ((Json.lookup? fields field.1).bind attributeText?).map fun text => (field.1, text)

/-- The element for an object. -/
def elementOf (entry : ObjectEntry) : Element :=
  Element.withAttributes ⟨entry.name, none, []⟩ (attributesOf (entry.fields.getD []))

/-- A document with an element for one more object, below the one for its parent. -/
def appendObject (tree : DocumentTree) (entry : ObjectEntry) : DocumentTree :=
  (tree.appendNew (entry.parent.getD document) (.element (elementOf entry))).2

/-- The document with an element for every object, appended in the order of the objects. -/
def toDocument (tree : ObjectTree) : DocumentTree :=
  tree.entries.toList.tail.foldl appendObject .empty

/-- What is set for the keys of an object is what is found for them. -/
theorem attribute?_attributesOf
    {element : Element}
    {key : String}
    (bare : element.attribute? key = none)
    (fields : List (String × Json)) :
    (element.withAttributes (attributesOf fields)).attribute? key =
      (Json.lookup? fields key).bind attributeText? := by
  have known : ∀ entry ∈ attributesOf fields,
      (Json.lookup? fields entry.1).bind attributeText? = some entry.2 := by
    intro entry member
    obtain ⟨field, _, made⟩ := List.mem_filterMap.mp member
    obtain ⟨text, isText, same⟩ := Option.map_eq_some_iff.mp made
    rw [← same]
    exact isText
  have complete : ∀ text, (Json.lookup? fields key).bind attributeText? = some text →
      (key, text) ∈ attributesOf fields := by
    intro text isText
    obtain ⟨value, found, _⟩ := Option.bind_eq_some_iff.mp isText
    obtain ⟨field, isField, _⟩ := Option.map_eq_some_iff.mp found
    have isKey : field.1 = key := by
      simpa using List.find?_some isField
    refine List.mem_filterMap.mpr ⟨field, List.mem_of_find?_eq_some isField, ?_⟩
    rw [isKey, isText]
    rfl
  rw [Element.attribute?_withAttributes, bare, Option.or_none]
  cases found : (attributesOf fields).reverse.find? fun entry => entry.1 == key with
  | none =>
      rw [List.find?_eq_none] at found
      rw [Option.map_none, eq_comm, Option.eq_none_iff_forall_ne_some]
      intro text isText
      exact found (key, text) (List.mem_reverse.mpr (complete text isText)) (by simp)
  | some entry =>
      have isKey : entry.1 = key := by
        simpa using List.find?_some found
      have member := List.mem_reverse.mp (List.mem_of_find?_eq_some found)
      rw [Option.map_some, ← known entry member, isKey]

/-- The attributes of the element for an object are those of the object. -/
theorem attribute?_elementOf
    (entry : ObjectEntry)
    (key : String) :
    (elementOf entry).attribute? key =
      (entry.fields.bind fun fields => Json.lookup? fields key).bind attributeText? := by
  rw [elementOf, attribute?_attributesOf rfl]
  cases entry.fields <;> rfl

/-- An object becomes an element of its name, without a namespace. -/
theorem type_elementOf
    (entry : ObjectEntry) :
    (elementOf entry).name = entry.name ∧ (elementOf entry).qualifier = none :=
  Element.type_withAttributes _ _

/-- The children of an object play no part in what is appended for it. -/
theorem foldl_appendObject_modify
    (entries : Array ObjectEntry)
    (parent : NodeId)
    (change : ObjectEntry → List NodeId)
    (start : DocumentTree) :
    (entries.modify parent fun entry => { entry with children := change entry }).toList.tail.foldl
        appendObject start =
      entries.toList.tail.foldl appendObject start := by
  have read : ∀ entries : List ObjectEntry, entries.foldl appendObject start =
      (entries.map fun entry => (entry.parent, elementOf entry)).foldl
        (fun tree entry => (tree.appendNew (entry.1.getD document) (.element entry.2)).2)
        start := by
    intro entries
    rw [List.foldl_map]
    rfl
  rw [read, read, List.map_tail, List.map_tail]
  congr 2
  apply List.ext_getElem?
  intro place
  simp only [Array.toList_modify, List.getElem?_map, List.getElem?_modify]
  split
  · cases entries.toList[place]? <;> rfl
  · simp

/-- A new object is one more element. -/
theorem toDocument_addEntry
    {tree : ObjectTree}
    (hasDocument : document < tree.size)
    (parent : NodeId)
    (fields : List (String × Json)) :
    toDocument (tree.addEntry parent fields) =
      appendObject tree.toDocument
        ⟨some fields, nameOf fields, some parent, [], (tree.children parent).length⟩ := by
  have nonempty : (tree.entries.modify parent fun entry =>
      { entry with children := entry.children ++ [tree.size] }).toList ≠ [] := by
    rw [ne_eq, ← List.length_eq_zero_iff, Array.length_toList, Array.size_modify]
    exact Nat.ne_of_gt hasDocument
  rw [toDocument, addEntry, Array.toList_push, List.tail_append_of_ne_nil nonempty,
    List.foldl_append, foldl_appendObject_modify]
  rfl

/-- A document tree has the nodes of an object tree below each other, and elements for them. -/
structure Mirrors (tree : ObjectTree) (mirror : DocumentTree) : Prop where
  reachable :
    mirror.Reachable
  size :
    mirror.size = tree.size
  children :
    ∀ id, mirror.children id = tree.children id
  element :
    ∀ id, mirror.element? id = if id = document then none else (tree.entry? id).map elementOf

theorem mirrors_empty :
    empty.Mirrors empty.toDocument where
  reachable := .empty
  size := rfl
  children := by
    intro id
    cases id <;> rfl
  element := by
    intro id
    cases id <;> rfl

/-- One more object here and one more element there keep the two trees alike. -/
theorem Mirrors.addEntry
    {tree : ObjectTree}
    (mirrors : tree.Mirrors tree.toDocument)
    (hasDocument : document < tree.size)
    {parent : NodeId}
    (small : parent < tree.size)
    (fields : List (String × Json)) :
    (tree.addEntry parent fields).Mirrors (tree.addEntry parent fields).toDocument := by
  have inMirror : parent < tree.toDocument.size := mirrors.size ▸ small
  rw [toDocument_addEntry hasDocument, appendObject, Option.getD_some]
  constructor
  · exact mirrors.reachable.appendNew _ _
  · rw [DocumentTree.size_appendNew inMirror, size_addEntry, mirrors.size]
  · intro id
    rw [DocumentTree.children_appendNew inMirror, children_addEntry small, mirrors.children,
      mirrors.children, mirrors.size]
  · intro id
    rw [DocumentTree.element?_appendNew inMirror, mirrors.size, mirrors.element]
    by_cases last : id = tree.size
    · subst last
      rw [if_pos rfl, if_neg (Nat.ne_of_gt hasDocument), entry?_addEntry_size]
      rfl
    · rw [if_neg last, entry?_addEntry_of_ne last]
      split
      · rfl
      · split
        · cases tree.entry? id <;> rfl
        · rfl

/-- The document of a value mirrors its tree of objects. -/
theorem mirrors_ofJson
    (value : Json) :
    (ofJson value).Mirrors (ofJson value).toDocument := by
  have whole : ∀ {tree}, empty.Grown tree → tree.Linked ∧ tree.Mirrors tree.toDocument := by
    intro tree grown
    induction grown with
    | same => exact ⟨linked_empty, mirrors_empty⟩
    | entry fields _ small inductionHypothesis =>
        obtain ⟨linked, mirrors⟩ := inductionHypothesis
        exact ⟨linked.addEntry small, mirrors.addEntry linked.hasDocument small fields⟩
  exact (whole (grown_ofJson value)).2

namespace Mirrors

variable {tree : ObjectTree} {mirror : DocumentTree}

/-- The same numbers are elements on both sides. -/
theorem isElement_eq
    (mirrors : tree.Mirrors mirror)
    (id : NodeId) :
    mirror.isElement id = tree.isElement id := by
  rw [DocumentTree.isElement, mirrors.element, isElement]
  by_cases isDocument : id = document
  · simp [isDocument]
  · cases found : tree.entry? id with
    | none => simp [isDocument, entry?_eq_none_iff.mp found]
    | some entry => simp [isDocument, lt_size_of_entry found]

/-- Every child is an element, so that nothing is left out of the lists of children. -/
theorem elementChildren_eq
    (mirrors : tree.Mirrors mirror)
    (linked : tree.Linked)
    (id : NodeId) :
    mirror.elementChildren id = tree.children id := by
  rw [DocumentTree.elementChildren, mirrors.children, List.filter_eq_self]
  intro child member
  rw [mirrors.isElement_eq]
  exact linked.isElement_of_mem member

/-- A node with a parent in the document is a child of it in the tree of objects. -/
theorem mem_of_parent?
    (mirrors : tree.Mirrors mirror)
    {node parent : NodeId}
    (parented : mirror.parent? node = some parent) :
    node ∈ tree.children parent := by
  rw [← mirrors.children]
  exact mirrors.reachable.linked.mem_of_parent? parented

/-- The document has no node above itself, for parents come before their children. -/
theorem acyclic
    (mirrors : tree.Mirrors mirror)
    (linked : tree.Linked) :
    mirror.Acyclic := by
  apply DocumentTree.acyclic_of_parent_lt
  intro node parent parented
  obtain ⟨entry, found, hasParent⟩ := linked.entry_of_mem (mirrors.mem_of_parent? parented)
  exact (linked.parent_lt found hasParent).1

/-- What is no element has no parent. -/
theorem stray
    (mirrors : tree.Mirrors mirror)
    (linked : tree.Linked)
    {node : NodeId}
    (noElement : tree.isElement node = false) :
    mirror.elementParent? node = none ∧ tree.objectParent? node = none := by
  have noChild : ∀ parent, node ∉ tree.children parent := by
    intro parent member
    rw [linked.isElement_of_mem member] at noElement
    exact absurd noElement (by simp)
  constructor
  · rw [Option.eq_none_iff_forall_ne_some]
    intro parent parented
    have above := (DocumentTree.elementParent?_eq_some_iff.mp parented).1
    exact noChild parent (mirrors.mem_of_parent? above)
  · rw [Option.eq_none_iff_forall_ne_some]
    intro parent parented
    obtain ⟨⟨entry, found, hasParent⟩, _⟩ := Linked.objectParent?_eq_some_iff.mp parented
    exact noChild parent (List.mem_of_getElem? (linked.parent_lt found hasParent).2)

/-- What a document tree has for an element is what is made of the object. -/
theorem exists_entry
    (mirrors : tree.Mirrors mirror)
    {node : NodeId}
    (element : mirror.isElement node = true) :
    ∃ entry, tree.entry? node = some entry ∧ mirror.element? node = some (elementOf entry) := by
  rw [mirrors.isElement_eq] at element
  obtain ⟨notDocument, small⟩ := Linked.isElement_iff.mp element
  obtain ⟨entry, found⟩ := Linked.exists_entry small
  refine ⟨entry, found, ?_⟩
  rw [mirrors.element, if_neg notDocument, found]
  rfl

/-- An element without children has no content, and an element among them is some. -/
theorem hasNoContent_eq
    (mirrors : tree.Mirrors mirror)
    (linked : tree.Linked)
    {node : NodeId}
    {entry : ObjectEntry}
    (found : tree.entry? node = some entry) :
    mirror.hasNoContent node = entry.children.isEmpty := by
  have same : tree.children node = entry.children := by
    simp [ObjectTree.children, found]
  have noText : ∀ child ∈ tree.children node, mirror.isBlankText child = false := by
    intro child member
    have element := linked.isElement_of_mem member
    rw [← mirrors.isElement_eq, DocumentTree.isElement_iff] at element
    obtain ⟨data, isData⟩ := element
    unfold DocumentTree.element? at isData
    split at isData
    · next content => simp [DocumentTree.isBlankText, DocumentTree.text?, content]
    · exact absurd isData (by simp)
  rw [DocumentTree.hasNoContent, mirrors.children, ← same]
  rcases shape : tree.children node with _ | ⟨only, _ | ⟨second, others⟩⟩
  · rfl
  · exact noText only (by rw [shape]; exact List.mem_cons_self)
  · rfl

/-- An object tree and its document tree show the same elements. -/
theorem sameElements
    (mirrors : tree.Mirrors mirror)
    (linked : tree.Linked) :
    mirror.view.SameElements tree.view where
  leftCoherent := mirrors.reachable.linked.coherent (mirrors.acyclic linked)
  rightCoherent := linked.coherent
  size := mirrors.size
  isElement := mirrors.isElement_eq
  children := mirrors.elementChildren_eq linked
  strayParent := by
    intro node noElement
    have stray := mirrors.stray linked ((mirrors.isElement_eq node).symm.trans noElement)
    exact stray.1.trans stray.2.symm
  name := by
    intro node element
    obtain ⟨entry, found, data⟩ := mirrors.exists_entry element
    simp [DocumentTree.view, view, name, found, data, type_elementOf]
  qualifier := by
    intro node element
    obtain ⟨entry, found, data⟩ := mirrors.exists_entry element
    simp [DocumentTree.view, view, data, type_elementOf]
  value := by
    intro node element key
    obtain ⟨entry, found, data⟩ := mirrors.exists_entry element
    have known : tree.fields? node = entry.fields := by
      simp [fields?, found]
    simp [DocumentTree.view, view, attribute?, data, known, attribute?_elementOf,
      Option.bind_assoc]
  isEmpty := by
    intro node element
    obtain ⟨entry, found, _⟩ := mirrors.exists_entry element
    have objects : tree.isEmpty node = entry.children.isEmpty := by
      simp [isEmpty, found]
    exact (mirrors.hasNoContent_eq linked found).trans objects.symm

/-- With one object at the top, if any, the root of both trees is that object. -/
theorem isRoot_eq
    (mirrors : tree.Mirrors mirror)
    (linked : tree.Linked)
    (alone : tree.roots.length ≤ 1) :
    mirror.view.isRoot = tree.view.isRoot := by
  have inRoots : ∀ node, tree.isRoot node = true ↔ node ∈ tree.roots := by
    intro node
    rw [isRoot, Option.any_eq_true]
    constructor
    · rintro ⟨entry, found, top⟩
      exact List.mem_of_getElem? (linked.parent_lt found (beq_iff_eq.mp top)).2
    · intro member
      obtain ⟨entry, found, hasParent⟩ := linked.entry_of_mem member
      exact ⟨entry, found, beq_iff_eq.mpr hasParent⟩
  have first : mirror.documentElement? = tree.roots.head? :=
    congrArg List.head? (mirrors.elementChildren_eq linked document)
  funext node
  change (mirror.documentElement? == some node) = tree.isRoot node
  rw [Bool.eq_iff_iff, beq_iff_eq, inRoots, first]
  match shape : tree.roots with
  | [] => simp
  | [only] => simp [eq_comm]
  | top :: next :: others =>
      rw [shape] at alone
      exact absurd alone (by simp)

end Mirrors

end ObjectTree

end TreeSelectors
