import TreeSelectors.Proofs.Json.Places
import TreeSelectors.Proofs.Query.Descent
import TreeSelectors.Proofs.Tree.ObjectCoherence

namespace TreeSelectors.ObjectTree

/-!
# Visits go through the objects of a document in order

What an addition puts below a node comes behind the children that the node has
had, and is numbered in preorder from the first free number on: `Appended`. So
the listing of a whole document is that of all numbers, and a visit goes through
them one after the other: `trace_ofJson`.
-/

section Building

theorem addFields_eq
    (tree : ObjectTree)
    (parent : NodeId)
    (fields : List (String × Json)) :
    tree.addFields parent fields = tree.addItems parent (fields.map Prod.snd) := by
  induction fields generalizing tree with
  | nil => rw [addFields, List.map_nil, addItems]
  | cons field fields inductionHypothesis =>
      rw [addFields, List.map_cons, addItems, inductionHypothesis]

/-- The objects in the fields of an object are put below the object. -/
theorem addValue_object
    {value : Json}
    {fields : List (String × Json)}
    (isObject : value.objectFields? = some fields)
    (tree : ObjectTree)
    (parent : NodeId) :
    tree.addValue parent value =
      ObjectTree.addItems (tree.addEntry parent fields) tree.size value.parts := by
  rw [Json.objectFields?_eq_some_iff.mp isObject, addValue, addFields_eq]
  rfl

/-- The objects in any other value are put where the value stands. -/
theorem addValue_other
    {value : Json}
    (noObject : value.objectFields? = none)
    (tree : ObjectTree)
    (parent : NodeId) :
    tree.addValue parent value = tree.addItems parent value.parts := by
  cases value with
  | object fields => cases noObject
  | array items =>
      rw [addValue]
      rfl
  | _ => simp [addValue, Json.parts, addItems]

end Building

/-- What is added below a node comes behind its children, numbered on in preorder. -/
structure Appended (before : ObjectTree) (parent : NodeId) (after : ObjectTree) : Prop where
  larger :
    before.size ≤ after.size
  kept :
    ∀ node < before.size, node ≠ parent → after.children node = before.children node
  added :
    ∃ roots, after.children parent = before.children parent ++ roots ∧
      after.view.Preorder roots (List.range' before.size (after.size - before.size))

namespace Appended

variable {before between after : ObjectTree} {parent : NodeId}

theorem nothing
    (tree : ObjectTree)
    (parent : NodeId) :
    Appended tree parent tree := by
  refine ⟨Nat.le_refl _, fun _ _ _ => rfl, [], (List.append_nil _).symm, ?_⟩
  rw [Nat.sub_self]
  exact .nil

theorem andThen
    (small : parent < before.size)
    (first : Appended before parent between)
    (second : Appended between parent after) :
    Appended before parent after := by
  obtain ⟨roots, children, preorder⟩ := first.added
  obtain ⟨further, furtherChildren, furtherPreorder⟩ := second.added
  refine ⟨Nat.le_trans first.larger second.larger, ?_, roots ++ further, ?_, ?_⟩
  · intro node old different
    rw [second.kept node (Nat.lt_of_lt_of_le old first.larger) different]
    exact first.kept node old different
  · rw [furtherChildren, children, List.append_assoc]
  · have same : ∀ node ∈ List.range' before.size (between.size - before.size),
        after.view.children node = between.view.children node := by
      intro node member
      obtain ⟨new, inside⟩ := List.mem_range'_1.mp member
      rw [Nat.add_sub_cancel' first.larger] at inside
      exact second.kept node inside (Nat.ne_of_gt (Nat.lt_of_lt_of_le small new))
    have numbers : List.range' before.size (between.size - before.size) ++
        List.range' between.size (after.size - between.size) =
          List.range' before.size (after.size - before.size) := by
      have larger := first.larger
      have furtherLarger := second.larger
      have middle : between.size = before.size + (between.size - before.size) := by
        omega
      rw [middle, Nat.add_sub_cancel_left, List.range'_append_1]
      congr 1
      omega
    rw [← numbers]
    exact (preorder.congr same).append furtherPreorder

/-- An object and what is added below it. -/
theorem entry
    (small : parent < before.size)
    {fields : List (String × Json)}
    (inside : Appended (before.addEntry parent fields) before.size after) :
    Appended before parent after := by
  have different : parent ≠ before.size := Nat.ne_of_lt small
  have entered : ∀ node, (before.addEntry parent fields).children node =
      if node = parent then before.children parent ++ [before.size] else before.children node :=
    children_addEntry small
  have old : ∀ {node}, node < before.size → node < (before.addEntry parent fields).size := by
    intro node inside
    rw [size_addEntry]
    exact Nat.lt_succ_of_lt inside
  have larger : before.size + 1 ≤ after.size := by
    have all := inside.larger
    rw [size_addEntry] at all
    exact all
  refine ⟨Nat.le_of_succ_le larger, ?_, [before.size], ?_, ?_⟩
  · intro node inBefore notParent
    rw [inside.kept node (old inBefore) (Nat.ne_of_lt inBefore), entered, if_neg notParent]
  · rw [inside.kept parent (old small) different, entered, if_pos rfl]
  · obtain ⟨roots, children, preorder⟩ := inside.added
    have noChildren : before.children before.size = [] := by
      rw [ObjectTree.children, entry?_eq_none_iff.mpr (Nat.le_refl _)]
    rw [entered, if_neg (Ne.symm different), noChildren, List.nil_append] at children
    rw [size_addEntry, ← children] at preorder
    have numbers : List.range' before.size (after.size - before.size) =
        before.size :: (List.range' (before.size + 1) (after.size - (before.size + 1)) ++ []) := by
      have count : after.size - before.size = after.size - (before.size + 1) + 1 := by
        omega
      rw [count, List.range'_succ, List.append_nil]
    rw [numbers]
    exact .cons preorder .nil

end Appended

theorem appended_addItems
    {items : List Json}
    (each : ∀ item ∈ items, ∀ {tree : ObjectTree} {parent}, parent < tree.size →
      Appended tree parent (tree.addValue parent item))
    {tree : ObjectTree}
    {parent : NodeId}
    (small : parent < tree.size) :
    Appended tree parent (tree.addItems parent items) := by
  induction items generalizing tree with
  | nil =>
      rw [addItems]
      exact .nothing tree parent
  | cons item items inductionHypothesis =>
      obtain ⟨eachFirst, eachLater⟩ := List.forall_mem_cons.mp each
      have first := eachFirst small
      rw [addItems]
      exact first.andThen small
        (inductionHypothesis eachLater (Nat.lt_of_lt_of_le small first.larger))

/-- The objects of a value are appended below the node that they are put below. -/
theorem appended_addValue
    (value : Json)
    {tree : ObjectTree}
    {parent : NodeId}
    (small : parent < tree.size) :
    Appended tree parent (tree.addValue parent value) := by
  induction value using Json.parts_induction generalizing tree parent with
  | step value inductionHypothesis =>
      cases found : value.objectFields? with
      | none =>
          rw [addValue_other found]
          exact appended_addItems inductionHypothesis small
      | some fields =>
          rw [addValue_object found]
          refine .entry small (appended_addItems inductionHypothesis ?_)
          rw [size_addEntry]
          exact Nat.lt_succ_self _

/-- A visit without a bound goes through the numbers of all nodes in order. -/
theorem trace_ofJson
    (value : Json) :
    (ofJson value).view.trace document none none none =
      ⟨List.range (ofJson value).size, List.range (ofJson value).size⟩ := by
  have appended : Appended empty document (ofJson value) :=
    appended_addValue value Nat.zero_lt_one
  have coherent := (linked_ofJson value).coherent
  obtain ⟨roots, children, preorder⟩ := appended.added
  have listed := coherent.preorder_descendants document
  have same : (ofJson value).view.children document = roots := children
  rw [same] at listed
  have numbers : (ofJson value).view.descendants document =
      List.range' 1 ((ofJson value).size - 1) := listed.unique preorder
  have whole : List.range (ofJson value).size =
      document :: List.range' 1 ((ofJson value).size - 1) := by
    have larger : 1 ≤ (ofJson value).size := appended.larger
    have count : (ofJson value).size = (ofJson value).size - 1 + 1 := by
      omega
    rw [List.range_eq_range', count, List.range'_succ]
    rfl
  rw [coherent.trace_eq, numbers, whole]

end TreeSelectors.ObjectTree
