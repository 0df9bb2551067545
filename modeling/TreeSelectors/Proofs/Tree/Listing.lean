import TreeSelectors.Proofs.Tree.Kinship

namespace TreeSelectors.TreeView

/-!
# What is below a node, in order

`Preorder` says what the listing of a forest is, with no bound on its depth.
`within` cuts its search as many levels down as the tree has nodes. In a
coherent view that is deep enough: `preorder_within`. The listing then has
exactly the nodes that child lists lead to, each of them once.
-/

/-- The nodes of some trees in a row and of all that is below, parents before children. -/
inductive Preorder (view : TreeView) : List NodeId → List NodeId → Prop where
  | nil :
      Preorder view [] []
  | cons {node : NodeId} {rest inside others : List NodeId} :
      Preorder view (view.children node) inside →
      Preorder view rest others →
      Preorder view (node :: rest) (node :: (inside ++ others))

namespace Preorder

variable {view : TreeView}

/-- A listing holds the roots of its forest and what is reached from them. -/
theorem mem_iff
    {forest listing : List NodeId}
    (preorder : view.Preorder forest listing)
    {node : NodeId} :
    node ∈ listing ↔ ∃ root ∈ forest, node = root ∨ view.Reaches root node := by
  induction preorder with
  | nil =>
      simp
  | @cons root rest inside others _ _ inBelow inRest =>
      simp only [List.mem_cons, List.mem_append, inBelow, inRest, exists_eq_or_imp]
      constructor
      · rintro (same | ⟨child, member, place⟩ | later)
        · exact Or.inl (Or.inl same)
        · refine Or.inl (Or.inr ?_)
          rcases place with same | reaches
          · subst same
            exact .child member
          · exact .further member reaches
        · exact Or.inr later
      · rintro ((same | reaches) | later)
        · exact Or.inl same
        · refine Or.inr (Or.inl ?_)
          cases reaches with
          | child member => exact ⟨node, member, Or.inl rfl⟩
          | further member reaches => exact ⟨_, member, Or.inr reaches⟩
        · exact Or.inr (Or.inr later)

/-- A forest is listed in one way only. -/
theorem unique
    {forest listing other : List NodeId}
    (first : view.Preorder forest listing)
    (second : view.Preorder forest other) :
    listing = other := by
  induction first generalizing other with
  | nil =>
      cases second
      rfl
  | cons _ _ inBelow inRest =>
      cases second with
      | cons below rest => rw [inBelow below, inRest rest]

/-- The listings of single trees, one behind the other, list the forest. -/
theorem flatMap
    {forest : List NodeId}
    {inside : NodeId → List NodeId}
    (each : ∀ root ∈ forest, view.Preorder (view.children root) (inside root)) :
    view.Preorder forest (forest.flatMap fun root => root :: inside root) := by
  induction forest with
  | nil =>
      exact .nil
  | cons root rest inductionHypothesis =>
      have others := inductionHypothesis fun other member =>
        each other (List.mem_cons_of_mem root member)
      simpa using cons (each root List.mem_cons_self) others

/-- Two forests, one behind the other, are listed one behind the other. -/
theorem append
    {left right leftListing rightListing : List NodeId}
    (first : view.Preorder left leftListing)
    (second : view.Preorder right rightListing) :
    view.Preorder (left ++ right) (leftListing ++ rightListing) := by
  induction first with
  | nil => exact second
  | cons below _ _ inRest =>
      rw [List.cons_append, List.cons_append, List.append_assoc]
      exact .cons below inRest

/-- A listing stays one as long as the children of the nodes in it stay the same. -/
theorem congr
    {other : TreeView}
    {forest listing : List NodeId}
    (preorder : view.Preorder forest listing)
    (same : ∀ node ∈ listing, other.children node = view.children node) :
    other.Preorder forest listing := by
  induction preorder with
  | nil => exact .nil
  | @cons root rest inside others _ _ inBelow inRest =>
      obtain ⟨sameRoot, sameLater⟩ := List.forall_mem_cons.mp same
      obtain ⟨sameInside, sameOthers⟩ := List.forall_mem_append.mp sameLater
      have below := inBelow sameInside
      rw [← sameRoot] at below
      exact .cons below (inRest sameOthers)

/-- A search that is cut at a depth keeps the order in which all is listed. -/
theorem below_sublist
    {forest listing : List NodeId}
    (preorder : view.Preorder forest listing)
    (depth : Nat) :
    (forest.flatMap fun root => root :: view.below depth root).Sublist listing := by
  induction preorder generalizing depth with
  | nil =>
      exact .slnil
  | @cons root rest inside others _ _ inBelow inRest =>
      have below : (view.below depth root).Sublist inside := by
        cases depth with
        | zero => exact List.nil_sublist inside
        | succ depth => exact inBelow depth
      rw [List.flatMap_cons, List.cons_append]
      exact (below.append (inRest depth)).cons_cons root

/-- The roots come in a listing in their order. -/
theorem sublist
    {forest listing : List NodeId}
    (preorder : view.Preorder forest listing) :
    forest.Sublist listing := by
  induction preorder with
  | nil => exact .slnil
  | cons _ _ _ inRest => exact (inRest.trans (List.sublist_append_right _ _)).cons_cons _

end Preorder

/-- A part of a list without repetitions is found again by its members. -/
theorem filter_mem_of_sublist
    {part whole : List NodeId}
    (sublist : part.Sublist whole)
    (distinct : whole.Nodup) :
    (whole.filter fun node => decide (node ∈ part)) = part := by
  induction sublist with
  | slnil =>
      rfl
  | cons head sublist inductionHypothesis =>
      rw [List.nodup_cons] at distinct
      have absent : head ∉ _ := fun member => distinct.1 (sublist.subset member)
      rw [List.filter_cons_of_neg (by simpa using absent)]
      exact inductionHypothesis distinct.2
  | cons_cons head sublist inductionHypothesis =>
      rw [List.nodup_cons] at distinct
      rw [List.filter_cons_of_pos (by simp)]
      congr 1
      refine Eq.trans (List.filter_congr ?_) (inductionHypothesis distinct.2)
      intro node member
      have different : node ≠ head := fun same => distinct.1 (same ▸ member)
      simp [different]

/-- Different elements of which none is below another. -/
structure Independent
    (view : TreeView)
    (forest : List NodeId) : Prop where
  distinct :
    forest.Nodup
  elements :
    ∀ root ∈ forest, view.isElement root = true
  apart :
    ∀ first ∈ forest, ∀ second ∈ forest, ¬ view.Reaches first second

namespace Coherent

variable {view : TreeView}

/-- The children of a node do not lie below each other. -/
theorem independent_children
    (coherent : view.Coherent)
    (parent : NodeId) :
    view.Independent (view.children parent) where
  distinct := coherent.childrenNodup parent
  elements _ member := coherent.childElement member
  apart := by
    intro first firstMember second secondMember reaches
    have above := coherent.above_of_reaches reaches (coherent.childElement firstMember)
    obtain ⟨before, place, linked⟩ : ∃ before,
        (first = before ∨ view.Above first before) ∧ view.parent? second = some before := by
      cases above with
      | step linked => exact ⟨first, Or.inl rfl, linked⟩
      | further linked later => exact ⟨_, Or.inr later, linked⟩
    have inBefore := coherent.childOfParent (coherent.childElement secondMember) linked
    have same := coherent.oneParent inBefore secondMember
    subst same
    have back := coherent.parentOfChild firstMember (coherent.parentElement linked)
    rcases place with same | above
    · subst same
      exact coherent.acyclic first (.step back)
    · exact coherent.acyclic first (.further back above)

/-- No node is at or below two roots of an independent forest. -/
theorem root_unique
    (coherent : view.Coherent)
    {forest : List NodeId}
    (independent : view.Independent forest)
    {first second node : NodeId}
    (firstMember : first ∈ forest)
    (secondMember : second ∈ forest)
    (belowFirst : node = first ∨ view.Reaches first node)
    (belowSecond : node = second ∨ view.Reaches second node) :
    first = second := by
  have firstElement := independent.elements first firstMember
  have secondElement := independent.elements second secondMember
  rcases belowFirst with same | fromFirst
  · subst same
    rcases belowSecond with same | fromSecond
    · exact same
    · exact absurd fromSecond (independent.apart second secondMember node firstMember)
  · rcases belowSecond with same | fromSecond
    · subst same
      exact absurd fromFirst (independent.apart first firstMember node secondMember)
    · have related := Leads.comparable
        (coherent.above_of_reaches fromFirst firstElement)
        (coherent.above_of_reaches fromSecond secondElement)
      rcases related with same | secondAbove | firstAbove
      · exact same
      · exact absurd (coherent.reaches_of_above secondAbove firstElement)
          (independent.apart second secondMember first firstMember)
      · exact absurd (coherent.reaches_of_above firstAbove secondElement)
          (independent.apart first firstMember second secondMember)

/-- The listing of an independent forest repeats no node. -/
theorem preorder_nodup
    (coherent : view.Coherent)
    {forest listing : List NodeId}
    (preorder : view.Preorder forest listing)
    (independent : view.Independent forest) :
    listing.Nodup := by
  induction preorder with
  | nil =>
      exact List.nodup_nil
  | @cons root rest inside others below further inBelow inRest =>
      have restIndependent : view.Independent rest :=
        ⟨(List.nodup_cons.mp independent.distinct).2,
          fun other member => independent.elements other (List.mem_cons_of_mem root member),
          fun first firstMember second secondMember =>
            independent.apart first (List.mem_cons_of_mem root firstMember)
              second (List.mem_cons_of_mem root secondMember)⟩
      have rootNotInRest := (List.nodup_cons.mp independent.distinct).1
      have insideReached : ∀ node ∈ inside, view.Reaches root node := by
        intro node member
        obtain ⟨child, childMember, place⟩ := below.mem_iff.mp member
        rcases place with same | reaches
        · subst same
          exact .child childMember
        · exact .further childMember reaches
      have notInOthers : ∀ node, node = root ∨ view.Reaches root node → node ∉ others := by
        intro node belowRoot member
        obtain ⟨other, otherMember, place⟩ := further.mem_iff.mp member
        have same := coherent.root_unique independent List.mem_cons_self
          (List.mem_cons_of_mem root otherMember) belowRoot place
        exact rootNotInRest (same ▸ otherMember)
      rw [List.nodup_cons, List.mem_append, not_or]
      refine ⟨⟨?_, notInOthers root (Or.inl rfl)⟩, ?_⟩
      · intro member
        exact coherent.not_reaches_self root (insideReached root member)
      · refine (inBelow (coherent.independent_children root)).append (inRest restIndependent) ?_
        intro node inInside inOthers
        exact notInOthers node (Or.inr (insideReached node inInside)) inOthers

/--
A search below an element is deep enough if its levels and the elements above
its start are together as many as there are nodes.
-/
theorem preorder_below
    (coherent : view.Coherent)
    (limit : Nat)
    {node : NodeId}
    (element : view.isElement node = true)
    (enough : view.size ≤ limit + (view.ancestors node).length + 1) :
    view.Preorder (view.children node) (view.below limit node) := by
  induction limit generalizing node with
  | zero =>
      have none : view.children node = [] := by
        apply List.eq_nil_iff_forall_not_mem.mpr
        intro child member
        have short := coherent.length_ancestors_lt (coherent.childElement member)
        rw [coherent.ancestors_child member element] at short
        simp only [List.length_cons] at short
        omega
      rw [none]
      exact .nil
  | succ limit inductionHypothesis =>
      apply Preorder.flatMap
      intro child member
      refine inductionHypothesis (coherent.childElement member) ?_
      rw [coherent.ancestors_child member element, List.length_cons]
      omega

/-- A search as deep as the tree has nodes lists everything below its start. -/
theorem preorder_descendants
    (coherent : view.Coherent)
    (root : NodeId) :
    view.Preorder (view.children root) (view.descendants root) := by
  unfold descendants
  by_cases element : view.isElement root = true
  · exact coherent.preorder_below view.size element (by omega)
  · cases size : view.size with
    | zero =>
        have none : view.children root = [] := by
          apply List.eq_nil_iff_forall_not_mem.mpr
          intro child member
          have small := coherent.elementSmall (coherent.childElement member)
          rw [size] at small
          exact absurd small (Nat.not_lt_zero child)
        rw [none]
        exact .nil
    | succ limit =>
        apply Preorder.flatMap
        intro child member
        exact coherent.preorder_below limit (coherent.childElement member) (by omega)

/-- A node and all that is listed below it are the listing of its tree. -/
theorem preorder_singleton
    (coherent : view.Coherent)
    (root : NodeId) :
    view.Preorder [root] (root :: view.descendants root) := by
  have listed := Preorder.cons (coherent.preorder_descendants root) .nil
  rwa [List.append_nil] at listed

/-- Below a node there is listed what the node leads to. -/
theorem mem_descendants_iff
    (coherent : view.Coherent)
    {root node : NodeId} :
    node ∈ view.descendants root ↔ view.Reaches root node := by
  rw [(coherent.preorder_descendants root).mem_iff]
  constructor
  · rintro ⟨child, member, same | reaches⟩
    · subst same
      exact .child member
    · exact .further member reaches
  · intro reaches
    cases reaches with
    | child member => exact ⟨node, member, Or.inl rfl⟩
    | further member later => exact ⟨_, member, Or.inr later⟩

/-- A node and all that is listed below it are different. -/
theorem nodup_listing
    (coherent : view.Coherent)
    (root : NodeId) :
    (root :: view.descendants root).Nodup := by
  refine List.nodup_cons.mpr ⟨?_, ?_⟩
  · rw [coherent.mem_descendants_iff]
    exact coherent.not_reaches_self root
  · exact coherent.preorder_nodup (coherent.preorder_descendants root)
      (coherent.independent_children root)

theorem notMem_descendants
    (coherent : view.Coherent)
    (root : NodeId) :
    root ∉ view.descendants root :=
  (List.nodup_cons.mp (coherent.nodup_listing root)).1

/-- Of all that is listed below a node its children are left if only they are kept. -/
theorem descendants_filter_children
    (coherent : view.Coherent)
    (root : NodeId) :
    ((view.descendants root).filter fun node => decide (node ∈ view.children root)) =
      view.children root :=
  filter_mem_of_sublist (coherent.preorder_descendants root).sublist
    (coherent.nodup_listing root).of_cons

/-- A query below a root looks at all that is listed below it and never at the root. -/
theorem within_none
    (coherent : view.Coherent)
    (root : NodeId) :
    view.within none root = view.descendants root := by
  apply List.filter_eq_self.mpr
  intro node member
  simp only [bne_iff_ne, ne_eq]
  intro same
  subst same
  exact coherent.notMem_descendants node member

/-- The elements that a query looks at below a node are those the node leads to. -/
theorem mem_within_none_iff
    (coherent : view.Coherent)
    {root node : NodeId} :
    node ∈ view.within none root ↔ view.Reaches root node := by
  rw [coherent.within_none, coherent.mem_descendants_iff]

end Coherent

end TreeSelectors.TreeView
