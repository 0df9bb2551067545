import Mathlib.Data.List.Shortlex
import TreeSelectors.Selector.Walk

namespace TreeSelectors.Selector

/-!
# The order of the walk over a selector

The nodes below a row of selectors make up the next row, and the walk over a
selector lists row after row: its queue always holds what is left of one row
and the start of the next, `walkQueue_append`. Told apart by the paths that lead
to them, all nodes are visited, each one once, shorter paths before longer ones
and paths of one length from left to right: `walk_breadthFirst`.
-/

/-- The row of nodes a number of steps below a row of selectors, in order. -/
def rowBelow (row : List Selector) : Nat → List Selector
  | 0 => row
  | depth + 1 => (rowBelow row depth).flatMap children

/-- The nodes a number of steps below a selector, in order. -/
def level (selector : Selector) (depth : Nat) : List Selector :=
  rowBelow [selector] depth

/-- The node that a path leads to, one place among the children at a time. -/
def at? : Selector → List Nat → Option Selector
  | selector, [] => some selector
  | selector, place :: path => selector.children[place]?.bind fun child => child.at? path

section Rows

variable (row next : List Selector)

theorem rowBelow_flatMap_children
    (depth : Nat) :
    rowBelow (row.flatMap children) depth = rowBelow row (depth + 1) := by
  induction depth with
  | zero => rfl
  | succ depth inductionHypothesis =>
      rw [rowBelow, inductionHypothesis]
      rfl

theorem rowBelow_nil
    (depth : Nat) :
    rowBelow [] depth = [] := by
  induction depth with
  | zero => rfl
  | succ depth inductionHypothesis =>
      rw [rowBelow, inductionHypothesis]
      rfl

/-- What is left of a row is visited first, and what is below it is put behind the next row. -/
theorem walkQueue_append :
    walkQueue (row ++ next) = row ++ walkQueue (next ++ row.flatMap children) := by
  induction row generalizing next with
  | nil => simp
  | cons node row inductionHypothesis =>
      rw [List.cons_append, walkQueue, List.append_assoc, inductionHypothesis, List.flatMap_cons,
        List.append_assoc, List.cons_append]

theorem memberCount_flatMap_children :
    memberCount row = row.length + memberCount (row.flatMap children) := by
  induction row with
  | nil => rfl
  | cons node row inductionHypothesis =>
      rw [memberCount, nodeCount_eq, inductionHypothesis, List.flatMap_cons, memberCount_append,
        List.length_cons]
      omega

end Rows

/-- A walk from a row of selectors goes through the rows below it, as many as hold a node. -/
theorem walkQueue_eq_rows
    (row : List Selector) :
    ∃ height, (∀ depth, rowBelow row depth = [] ↔ height ≤ depth) ∧
      walkQueue row = (List.range height).flatMap (rowBelow row) := by
  by_cases empty : row = []
  · subst empty
    exact ⟨0, fun depth => by simp [rowBelow_nil], by simp [walkQueue]⟩
  · have counted := memberCount_flatMap_children row
    have some := List.length_pos_iff.mpr empty
    obtain ⟨height, ends, rows⟩ := walkQueue_eq_rows (row.flatMap children)
    refine ⟨height + 1, fun depth => ?_, ?_⟩
    · cases depth with
      | zero => simpa [rowBelow] using empty
      | succ depth => rw [← rowBelow_flatMap_children, ends, Nat.succ_le_succ_iff]
    · have walked := walkQueue_append row []
      rw [List.append_nil, List.nil_append, rows, funext (rowBelow_flatMap_children row)] at walked
      rw [walked, List.range_succ_eq_map, List.flatMap_cons, List.flatMap_map]
      rfl
termination_by memberCount row
decreasing_by omega

section Places

/-- The paths of a length that lead to a node, from left to right. -/
def placesAt : Nat → Selector → List (List Nat)
  | 0, _ => [[]]
  | depth + 1, selector =>
      selector.children.zipIdx.flatMap fun (child, place) =>
        (placesAt depth child).map (place :: ·)

variable {selector : Selector} {depth : Nat} {path : List Nat}

theorem mem_placesAt_succ_iff :
    path ∈ placesAt (depth + 1) selector ↔
      ∃ child place, selector.children[place]? = some child ∧
        ∃ inner ∈ placesAt depth child, place :: inner = path := by
  simp only [placesAt, List.mem_flatMap, List.mem_map, Prod.exists, List.mk_mem_zipIdx_iff_getElem?]

/-- The listed paths are those of their length that lead to a node. -/
theorem mem_placesAt_iff :
    path ∈ placesAt depth selector ↔
      path.length = depth ∧ (selector.at? path).isSome = true := by
  induction depth generalizing selector path with
  | zero =>
      rw [placesAt, List.mem_singleton, List.length_eq_zero_iff]
      refine ⟨fun none => ⟨none, ?_⟩, And.left⟩
      rw [none, at?]
      rfl
  | succ depth inductionHypothesis =>
      rw [mem_placesAt_succ_iff]
      constructor
      · rintro ⟨child, place, found, inner, member, same⟩
        obtain ⟨length, leads⟩ := inductionHypothesis.mp member
        subst same
        rw [List.length_cons, length, at?, found]
        exact ⟨rfl, leads⟩
      · rintro ⟨length, leads⟩
        obtain ⟨place, inner, same⟩ := List.exists_cons_of_length_eq_add_one length
        subst same
        rw [at?] at leads
        cases found : selector.children[place]? with
        | none => simp [found] at leads
        | some child =>
            rw [found] at leads
            exact ⟨child, place, found, inner,
              inductionHypothesis.mpr ⟨Nat.succ.inj length, leads⟩, rfl⟩

/-- Paths of one length are listed from left to right. -/
theorem pairwise_placesAt
    (depth : Nat)
    (selector : Selector) :
    (placesAt depth selector).Pairwise (List.Lex (· < ·)) := by
  induction depth generalizing selector with
  | zero => exact List.pairwise_singleton _ _
  | succ depth inductionHypothesis =>
      rw [placesAt, List.pairwise_flatMap]
      refine ⟨fun (child, place) _ => ?_, ?_⟩
      · exact (inductionHypothesis child).map _ fun _ _ less => List.Lex.cons less
      · have ascending : (selector.children.zipIdx.map Prod.snd).Pairwise (· < ·) := by
          rw [List.zipIdx_map_snd]
          exact List.pairwise_lt_range'
        refine (List.pairwise_map.mp ascending).imp fun less left inLeft right inRight => ?_
        obtain ⟨inner, _, sameLeft⟩ := List.mem_map.mp inLeft
        obtain ⟨later, _, sameRight⟩ := List.mem_map.mp inRight
        rw [← sameLeft, ← sameRight]
        exact List.Lex.rel less

/-- A level of a selector is made up of the levels of its children. -/
theorem level_succ
    (depth : Nat)
    (selector : Selector) :
    selector.level (depth + 1) = selector.children.flatMap fun child => child.level depth := by
  induction depth with
  | zero => simp [level, rowBelow]
  | succ depth inductionHypothesis =>
      have deeper :
          selector.level (depth + 2) = (selector.level (depth + 1)).flatMap children := rfl
      rw [deeper, inductionHypothesis, List.flatMap_assoc]
      rfl

/-- The paths of a length lead to the nodes of a level. -/
theorem map_at?_placesAt
    (depth : Nat)
    (selector : Selector) :
    (placesAt depth selector).map selector.at? = (selector.level depth).map some := by
  induction depth generalizing selector with
  | zero => simp [placesAt, level, rowBelow, at?]
  | succ depth inductionHypothesis =>
      have one : ∀ labelled ∈ selector.children.zipIdx,
          ((placesAt depth labelled.1).map (labelled.2 :: ·)).map selector.at? =
            (labelled.1.level depth).map some := by
        rintro ⟨child, place⟩ member
        have found := List.mk_mem_zipIdx_iff_getElem?.mp member
        rw [← inductionHypothesis, List.map_map]
        refine List.map_congr_left fun path _ => ?_
        rw [Function.comp_apply, at?, found]
        rfl
      have unlabelled : selector.children = selector.children.zipIdx.map Prod.fst :=
        (List.zipIdx_map_fst 0 selector.children).symm
      rw [placesAt, List.map_flatMap, level_succ, List.map_flatMap, unlabelled, List.flatMap_map,
        ← unlabelled]
      exact List.flatMap_congr one

end Places

/--
The order of a walk: level after level, as many as hold a node, and path after
path, shorter ones before longer ones and those of one length from left to
right. Different paths are different occurrences, of equal nodes or not.
-/
structure BreadthFirst (selector : Selector) (visited : List Selector) : Prop where
  levels :
    ∃ height, (∀ depth, selector.level depth = [] ↔ height ≤ depth) ∧
      visited = (List.range height).flatMap selector.level
  places :
    ∃ places : List (List Nat),
      places.Nodup ∧ places.Pairwise (List.Shortlex (· < ·)) ∧
        (∀ path, path ∈ places ↔ (selector.at? path).isSome = true) ∧
          places.map selector.at? = visited.map some

/-- Paths of ascending lengths, those of one length from left to right. -/
theorem pairwise_shortlex
    (height : Nat)
    (selector : Selector) :
    ((List.range height).flatMap (placesAt · selector)).Pairwise (List.Shortlex (· < ·)) := by
  rw [List.pairwise_flatMap]
  refine ⟨fun depth _ => ?_,
    List.pairwise_lt_range.imp fun less left inLeft right inRight => ?_⟩
  · refine (pairwise_placesAt depth selector).imp_of_mem fun inLeft inRight less => ?_
    refine List.Shortlex.of_lex ?_ less
    rw [(mem_placesAt_iff.mp inLeft).1, (mem_placesAt_iff.mp inRight).1]
  · refine List.Shortlex.of_length_lt ?_
    rw [(mem_placesAt_iff.mp inLeft).1, (mem_placesAt_iff.mp inRight).1]
    exact less

/-- A path that leads to a node ends in a level that holds one. -/
theorem level_ne_nil
    {selector : Selector}
    {path : List Nat}
    (leads : (selector.at? path).isSome = true) :
    selector.level path.length ≠ [] := by
  intro none
  have listed := mem_placesAt_iff.mpr ⟨rfl, leads⟩
  have found := List.mem_map_of_mem (f := selector.at?) listed
  rw [map_at?_placesAt, none] at found
  exact List.not_mem_nil found

/-- A walk visits every node of a selector once, breadth first. -/
theorem walk_breadthFirst
    (selector : Selector) :
    BreadthFirst selector selector.walk := by
  obtain ⟨height, ends, rows⟩ := walkQueue_eq_rows [selector]
  have levels : selector.walk = (List.range height).flatMap selector.level := rows
  have ordered := pairwise_shortlex height selector
  refine ⟨⟨height, ends, levels⟩, _, ?_, ordered, fun path => ?_, ?_⟩
  · refine ordered.imp fun {left right} less => ?_
    rintro rfl
    exact irrefl left less
  · simp only [List.mem_flatMap, mem_placesAt_iff, List.mem_range]
    constructor
    · rintro ⟨depth, _, _, leads⟩
      exact leads
    · intro leads
      refine ⟨path.length, ?_, rfl, leads⟩
      rw [← Nat.not_le, ← ends]
      exact level_ne_nil leads
  · rw [List.map_flatMap, levels, List.map_flatMap]
    exact List.flatMap_congr fun depth _ => map_at?_placesAt depth selector

end TreeSelectors.Selector
