import TreeSelectors.Matching.Evaluation
import TreeSelectors.Proofs.Tree.Trails
import Mathlib.Data.List.Nodup

namespace TreeSelectors.TreeView

/-!
# Kinship in a tree

What it means for an element to stand above, below or before another, said
over the child lists and parent links of a view. `Ordered` collects what the
siblings in a view have to agree on, `Coherent` what they and the parents do.
In an ordered view the walks that matching takes along the siblings of an
element meet exactly those before and behind it, `exists_place`; in a coherent
one the walk up meets exactly what is above it, `mem_ancestors_iff`.
-/

/-- An element is met on the way from a node up through its parents. -/
def Above
    (view : TreeView)
    (ancestor node : NodeId) : Prop :=
  Leads view.parent? node ancestor

/-- One element stands somewhere before another in a list of children. -/
def Precedes
    (view : TreeView)
    (elder node : NodeId) : Prop :=
  ∃ parent before between behind,
    view.children parent = before ++ elder :: (between ++ node :: behind)

/-- One element stands directly before another in a list of children. -/
def DirectlyPrecedes
    (view : TreeView)
    (elder node : NodeId) : Prop :=
  ∃ parent before behind,
    view.children parent = before ++ elder :: node :: behind

/-- Going down from children to children leads from one node to another. -/
inductive Reaches (view : TreeView) : NodeId → NodeId → Prop where
  | child {node child : NodeId} :
      child ∈ view.children node →
      Reaches view node child
  | further {node child target : NodeId} :
      child ∈ view.children node →
      Reaches view child target →
      Reaches view node target

/-- What a view says of a node that stands between the given siblings. -/
structure PlacedBetween
    (view : TreeView)
    (before : List NodeId)
    (node : NodeId)
    (behind : List NodeId) : Prop where
  previous :
    view.previous? node = before.getLast?
  next :
    view.next? node = behind.head?
  index :
    view.index? node = some before.length
  indexOfType :
    view.indexOfType? node =
      some (before.filter fun sibling => view.sameType sibling node).length

/--
An element with the siblings before and behind it. These are the nodes that the
sibling steps of the view lead to, and those that its lists of children hold on
the two sides of the element.
-/
structure StandsBetween
    (view : TreeView)
    (before : List NodeId)
    (node : NodeId)
    (behind : List NodeId) : Prop where
  place :
    view.PlacedBetween before node behind
  distinct :
    before.Nodup
  few :
    before.length + behind.length ≤ view.size
  back :
    Trail view.previous? node before.reverse
  onward :
    Trail view.next? node behind
  elder :
    ∀ elder, view.Precedes elder node ↔ elder ∈ before
  younger :
    ∀ younger, view.Precedes node younger ↔ younger ∈ behind
  nearest :
    ∀ elder, view.DirectlyPrecedes elder node ↔ before.getLast? = some elder

/--
A view whose siblings fit together: lists of children are made of different
elements, an element is in one of them at most, and sibling steps and positions
go by these lists. Nothing is said of parents, which may lead round in a circle.
-/
structure Ordered (view : TreeView) : Prop where
  elementSmall :
    ∀ {node}, view.isElement node = true → node < view.size
  childElement :
    ∀ {parent child}, child ∈ view.children parent → view.isElement child = true
  childrenNodup :
    ∀ parent, (view.children parent).Nodup
  oneParent :
    ∀ {first second child},
      child ∈ view.children first →
      child ∈ view.children second →
      first = second
  placed :
    ∀ {parent before node behind},
      view.children parent = before ++ node :: behind →
      view.PlacedBetween before node behind
  placedAlone :
    ∀ {node},
      view.isElement node = true →
      (∀ parent, node ∉ view.children parent) →
      view.PlacedBetween [] node []

/--
A view whose links fit together: lists of children are made of different
elements, an element is in the list of its parent and of nobody else, sibling
steps and positions go by these lists, and nobody is above itself.
-/
structure Coherent (view : TreeView) : Prop where
  elementSmall :
    ∀ {node}, view.isElement node = true → node < view.size
  childElement :
    ∀ {parent child}, child ∈ view.children parent → view.isElement child = true
  parentElement :
    ∀ {node parent}, view.parent? node = some parent → view.isElement parent = true
  childOfParent :
    ∀ {node parent},
      view.isElement node = true →
      view.parent? node = some parent →
      node ∈ view.children parent
  parentOfChild :
    ∀ {parent child},
      child ∈ view.children parent →
      view.isElement parent = true →
      view.parent? child = some parent
  childrenNodup :
    ∀ parent, (view.children parent).Nodup
  oneParent :
    ∀ {first second child},
      child ∈ view.children first →
      child ∈ view.children second →
      first = second
  placed :
    ∀ {parent before node behind},
      view.children parent = before ++ node :: behind →
      view.PlacedBetween before node behind
  placedAlone :
    ∀ {node},
      view.isElement node = true →
      (∀ parent, node ∉ view.children parent) →
      view.PlacedBetween [] node []
  acyclic :
    ∀ node, ¬ view.Above node node

namespace StandsBetween

variable {view : TreeView} {before behind : List NodeId} {node : NodeId}

theorem preceding
    (stands : view.StandsBetween before node behind) :
    view.preceding node = before.reverse := by
  have few := stands.few
  exact stands.back.follow_eq (by rw [List.length_reverse]; omega)

theorem following
    (stands : view.StandsBetween before node behind) :
    view.following node = behind := by
  have few := stands.few
  exact stands.onward.follow_eq (by omega)

end StandsBetween

namespace Ordered

variable {view : TreeView}

theorem length_children_le
    (ordered : view.Ordered)
    (parent : NodeId) :
    (view.children parent).length ≤ view.size :=
  length_le_of_nodup_of_lt (ordered.childrenNodup parent)
    fun _ member => ordered.elementSmall (ordered.childElement member)

/-- An element stands at one place of one list of children only. -/
theorem split_unique
    (ordered : view.Ordered)
    {first second node : NodeId}
    {before behind earlier later : List NodeId}
    (shape : view.children first = before ++ node :: behind)
    (other : view.children second = earlier ++ node :: later) :
    before = earlier ∧ behind = later := by
  have inFirst : node ∈ view.children first := by
    simp [shape]
  have inSecond : node ∈ view.children second := by
    simp [other]
  have same := ordered.oneParent inFirst inSecond
  subst same
  have distinct := ordered.childrenNodup first
  rw [shape, List.nodup_middle, List.nodup_cons, List.mem_append, not_or] at distinct
  have split : before ++ node :: behind = earlier ++ node :: later := by
    rw [← shape, other]
  obtain ⟨samePart, _, sameRest⟩ :=
    (List.append_cons_inj_of_notMem distinct.1.1 distinct.1.2).mp split
  exact ⟨samePart, sameRest⟩

/-- The nodes before an element in its list of children are those that precede it. -/
theorem precedes_iff_mem_before
    (ordered : view.Ordered)
    {parent elder node : NodeId}
    {before behind : List NodeId}
    (shape : view.children parent = before ++ node :: behind) :
    view.Precedes elder node ↔ elder ∈ before := by
  constructor
  · rintro ⟨other, earlier, between, later, otherShape⟩
    have split : view.children other = (earlier ++ elder :: between) ++ node :: later := by
      simp [otherShape]
    rw [(ordered.split_unique shape split).1]
    simp
  · intro member
    obtain ⟨earlier, between, beforeShape⟩ := List.append_of_mem member
    exact ⟨parent, earlier, between, behind, by simp [shape, beforeShape]⟩

/-- The nodes behind an element in its list of children are those it precedes. -/
theorem precedes_iff_mem_behind
    (ordered : view.Ordered)
    {parent node younger : NodeId}
    {before behind : List NodeId}
    (shape : view.children parent = before ++ node :: behind) :
    view.Precedes node younger ↔ younger ∈ behind := by
  constructor
  · rintro ⟨other, earlier, between, later, otherShape⟩
    rw [(ordered.split_unique shape otherShape).2]
    simp
  · intro member
    obtain ⟨between, later, behindShape⟩ := List.append_of_mem member
    exact ⟨parent, before, between, later, by simp [shape, behindShape]⟩

/-- The last node before an element is the one directly before it. -/
theorem directlyPrecedes_iff_getLast?
    (ordered : view.Ordered)
    {parent elder node : NodeId}
    {before behind : List NodeId}
    (shape : view.children parent = before ++ node :: behind) :
    view.DirectlyPrecedes elder node ↔ before.getLast? = some elder := by
  constructor
  · rintro ⟨other, earlier, later, otherShape⟩
    have split : view.children other = (earlier ++ [elder]) ++ node :: later := by
      simp [otherShape]
    rw [(ordered.split_unique shape split).1]
    simp
  · intro last
    obtain ⟨earlier, beforeShape⟩ := List.getLast?_eq_some_iff.mp last
    exact ⟨parent, earlier, behind, by simp [shape, beforeShape]⟩

/-- Stepping back from a child meets the children before it, nearest first. -/
theorem trail_previous
    (ordered : view.Ordered)
    {parent node : NodeId}
    {nearest behind : List NodeId}
    (shape : view.children parent = nearest.reverse ++ node :: behind) :
    Trail view.previous? node nearest := by
  induction nearest generalizing node behind with
  | nil =>
      exact .done (ordered.placed shape).previous
  | cons elder rest inductionHypothesis =>
      have linked : view.previous? node = some elder := by
        rw [(ordered.placed shape).previous]
        simp
      have elderShape : view.children parent = rest.reverse ++ elder :: (node :: behind) := by
        simp [shape]
      exact .next linked (inductionHypothesis elderShape)

/-- Stepping on from a child meets the children behind it, nearest first. -/
theorem trail_next
    (ordered : view.Ordered)
    {parent node : NodeId}
    {before behind : List NodeId}
    (shape : view.children parent = before ++ node :: behind) :
    Trail view.next? node behind := by
  induction behind generalizing node before with
  | nil =>
      exact .done (ordered.placed shape).next
  | cons younger rest inductionHypothesis =>
      have youngerShape : view.children parent = (before ++ [node]) ++ younger :: rest := by
        simp [shape]
      exact .next (ordered.placed shape).next (inductionHypothesis youngerShape)

/-- Every element stands somewhere, if only alone. -/
theorem exists_standsBetween
    (ordered : view.Ordered)
    {node : NodeId}
    (element : view.isElement node = true) :
    ∃ before behind, view.StandsBetween before node behind := by
  by_cases hasParent : ∃ parent, node ∈ view.children parent
  · obtain ⟨parent, member⟩ := hasParent
    obtain ⟨before, behind, shape⟩ := List.append_of_mem member
    have distinct := ordered.childrenNodup parent
    have short := ordered.length_children_le parent
    rw [shape] at distinct short
    simp only [List.length_append, List.length_cons] at short
    exact ⟨before, behind, {
      place := ordered.placed shape
      distinct := distinct.of_append_left
      few := by omega
      back := ordered.trail_previous (by simpa using shape)
      onward := ordered.trail_next shape
      elder := fun _ => ordered.precedes_iff_mem_before shape
      younger := fun _ => ordered.precedes_iff_mem_behind shape
      nearest := fun _ => ordered.directlyPrecedes_iff_getLast? shape
    }⟩
  · have alone : ∀ parent, node ∉ view.children parent := by
      intro parent member
      exact hasParent ⟨parent, member⟩
    have place := ordered.placedAlone element alone
    refine ⟨[], [], {
      place := place
      distinct := List.nodup_nil
      few := Nat.zero_le _
      back := .done place.previous
      onward := .done place.next
      elder := ?_
      younger := ?_
      nearest := ?_
    }⟩
    · rintro elder
      simp only [List.not_mem_nil, iff_false]
      rintro ⟨parent, before, between, behind, shape⟩
      exact alone parent (by simp [shape])
    · rintro younger
      simp only [List.not_mem_nil, iff_false]
      rintro ⟨parent, before, between, behind, shape⟩
      exact alone parent (by simp [shape])
    · rintro elder
      simp only [List.getLast?_nil, reduceCtorEq, iff_false]
      rintro ⟨parent, before, behind, shape⟩
      exact alone parent (by simp [shape])

/--
Every element has its place: the siblings before and behind it, which are those
that precede it and those it precedes.
-/
theorem exists_place
    (ordered : view.Ordered)
    {node : NodeId}
    (element : view.isElement node = true) :
    ∃ before behind,
      view.PlacedBetween before node behind ∧
        before.Nodup ∧
        view.preceding node = before.reverse ∧
        view.following node = behind ∧
        (∀ elder, view.Precedes elder node ↔ elder ∈ before) ∧
        (∀ younger, view.Precedes node younger ↔ younger ∈ behind) ∧
        ∀ elder, view.DirectlyPrecedes elder node ↔ before.getLast? = some elder := by
  obtain ⟨before, behind, stands⟩ := ordered.exists_standsBetween element
  exact ⟨before, behind, stands.place, stands.distinct, stands.preceding, stands.following,
    stands.elder, stands.younger, stands.nearest⟩

end Ordered

theorem Coherent.ordered
    {view : TreeView}
    (coherent : view.Coherent) :
    view.Ordered where
  elementSmall := coherent.elementSmall
  childElement := coherent.childElement
  childrenNodup := coherent.childrenNodup
  oneParent := coherent.oneParent
  placed := coherent.placed
  placedAlone := coherent.placedAlone

namespace Reaches

variable {view : TreeView}

theorem trans
    {node middle target : NodeId}
    (first : view.Reaches node middle)
    (second : view.Reaches middle target) :
    view.Reaches node target := by
  induction first with
  | child member =>
      exact .further member second
  | further member _ inductionHypothesis =>
      exact .further member (inductionHypothesis second)

theorem isElement
    (coherent : view.Coherent)
    {node target : NodeId}
    (reaches : view.Reaches node target) :
    view.isElement target = true := by
  induction reaches with
  | child member => exact coherent.childElement member
  | further _ _ inductionHypothesis => exact inductionHypothesis

end Reaches

namespace Coherent

variable {view : TreeView}

/-- What is reached from an element has it above. -/
theorem above_of_reaches
    (coherent : view.Coherent)
    {node target : NodeId}
    (reaches : view.Reaches node target)
    (element : view.isElement node = true) :
    view.Above node target := by
  induction reaches with
  | child member =>
      exact .step (coherent.parentOfChild member element)
  | further member _ inductionHypothesis =>
      have fromChild := inductionHypothesis (coherent.childElement member)
      exact fromChild.trans (.step (coherent.parentOfChild member element))

/-- An element is reached from whatever is above it. -/
theorem reaches_of_above
    (coherent : view.Coherent)
    {ancestor node : NodeId}
    (above : view.Above ancestor node)
    (element : view.isElement node = true) :
    view.Reaches ancestor node := by
  unfold Above at above
  induction above with
  | step linked =>
      exact .child (coherent.childOfParent element linked)
  | further linked _ inductionHypothesis =>
      have toParent := inductionHypothesis (coherent.parentElement linked)
      exact toParent.trans (.child (coherent.childOfParent element linked))

/-- For elements, being below by child lists and by parent links is the same. -/
theorem reaches_iff_above
    (coherent : view.Coherent)
    {node target : NodeId}
    (element : view.isElement node = true) :
    view.Reaches node target ↔ view.isElement target = true ∧ view.Above node target := by
  constructor
  · intro reaches
    exact ⟨reaches.isElement coherent, coherent.above_of_reaches reaches element⟩
  · rintro ⟨targetElement, above⟩
    exact coherent.reaches_of_above above targetElement

/-- No node is reached from itself. -/
theorem not_reaches_self
    (coherent : view.Coherent)
    (node : NodeId) :
    ¬ view.Reaches node node := by
  intro reaches
  have element := reaches.isElement coherent
  exact coherent.acyclic node (coherent.above_of_reaches reaches element)

/-- The walk up from a node is its whole trail of parents. -/
theorem trail_ancestors
    (coherent : view.Coherent)
    (node : NodeId) :
    Trail view.parent? node (view.ancestors node) := by
  refine trail_follow coherent.acyclic ?_ node
  intro child parent linked
  exact coherent.elementSmall (coherent.parentElement linked)

/-- Above a child of an element are that element and what is above it. -/
theorem ancestors_child
    (coherent : view.Coherent)
    {parent child : NodeId}
    (member : child ∈ view.children parent)
    (element : view.isElement parent = true) :
    view.ancestors child = parent :: view.ancestors parent :=
  (coherent.trail_ancestors child).unique
    (.next (coherent.parentOfChild member element) (coherent.trail_ancestors parent))

theorem mem_ancestors_iff
    (coherent : view.Coherent)
    {ancestor node : NodeId} :
    ancestor ∈ view.ancestors node ↔ view.Above ancestor node :=
  (coherent.trail_ancestors node).mem_iff_leads

/-- An element and the elements above it are no more than there are nodes. -/
theorem length_ancestors_lt
    (coherent : view.Coherent)
    {node : NodeId}
    (element : view.isElement node = true) :
    (view.ancestors node).length < view.size := by
  have distinct : (node :: view.ancestors node).Nodup := by
    refine List.nodup_cons.mpr ⟨?_, follow_nodup coherent.acyclic _ _⟩
    intro member
    exact coherent.acyclic node (coherent.mem_ancestors_iff.mp member)
  have small : ∀ other ∈ node :: view.ancestors node, other < view.size := by
    intro other member
    rcases List.mem_cons.mp member with same | above
    · rw [same]
      exact coherent.elementSmall element
    · obtain ⟨_, _, linked⟩ := (coherent.mem_ancestors_iff.mp above).exists_last
      exact coherent.elementSmall (coherent.parentElement linked)
  exact length_le_of_nodup_of_lt distinct small

end Coherent

end TreeSelectors.TreeView
