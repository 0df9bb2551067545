import TreeSelectors.Proofs.Matching.Agreement
import TreeSelectors.Proofs.Query.Selection

namespace TreeSelectors

/-!
# Going down and going up

A visit goes down along the lists of children, a descendant combinator goes up
along the parents. In every tree that is queried they describe the same
elements: `DescentAgrees`. What `:has` and the descendant combinator say can
therefore each be said in terms of the other direction, for selectors that give
an answer at every element of the tree.
-/

namespace Selector

variable {view : TreeView} {members : List Selector} {node : NodeId}

/-- The pseudo-class that looks for some selectors below an element. -/
def having (members : List Selector) : Selector :=
  .pseudo .pseudoClass "has" (.selectors members)

/-- A single selector that says what a list of them says. -/
inductive StandsFor : List Selector → Selector → Prop where
  | alone {member : Selector} :
      StandsFor [member] member
  | list {members : List Selector} :
      StandsFor members (.list members)
  | anyOf {members : List Selector} {name : String} {pseudoClass : PseudoClass} :
      PseudoClass.ofName? name = some pseudoClass →
      pseudoClass.meaning = .anyOf →
      StandsFor members (.pseudo .pseudoClass name (.selectors members))

theorem relativeFree_having
    (free : ∀ member ∈ members, member.RelativeFree) :
    (having members).RelativeFree :=
  RelativeFree.of_children rfl free

theorem anyHoldsAt_of_not_isElement
    (noElement : ¬ view.isElement node = true) :
    anyHoldsAt view members node = .ok false := by
  induction members with
  | nil => rfl
  | cons member rest inductionHypothesis =>
      rw [anyHoldsAt, holdsAt_of_not_isElement member noElement]
      exact inductionHypothesis

namespace StandsFor

theorem relativeFree
    {selector : Selector}
    (stands : StandsFor members selector)
    (free : ∀ member ∈ members, member.RelativeFree) :
    selector.RelativeFree := by
  cases stands with
  | alone => exact free _ (List.mem_singleton_self _)
  | list => exact RelativeFree.of_children rfl free
  | anyOf _ _ => exact RelativeFree.of_children rfl free

/-- At an element, what stands for some selectors gives the answer that they give. -/
theorem holdsAt_eq
    {selector : Selector}
    (stands : StandsFor members selector)
    (element : view.isElement node = true) :
    holdsAt view selector node = anyHoldsAt view members node := by
  cases stands with
  | alone =>
      rw [anyHoldsAt]
      rcases holdsAt view selector node with error | answer
      · rfl
      · cases answer <;> rfl
  | list =>
      rw [holdsAt, if_pos element]
  | anyOf known meaning =>
      rw [holdsAt, if_pos element]
      simp only [known, meaning]
      rw [argumentHoldsAt]

end StandsFor

end Selector

namespace TreeView

/-- An element is selected by one of some selectors. -/
def Selected
    (view : TreeView)
    (rules : ArgumentRules)
    (members : List Selector)
    (node : NodeId) : Prop :=
  view.selects rules node (.selectors members) = .ok true

/-- Some selectors raise no error at any element of a tree. -/
def Answers
    (view : TreeView)
    (rules : ArgumentRules)
    (members : List Selector) : Prop :=
  ∀ node, view.isElement node = true →
    ∃ answer, view.selects rules node (.selectors members) = .ok answer

/--
Visits, `:has` and the descendant combinator go by the same kinship. `left` and
`right` stand for the lists `outer` and `inner`.
-/
structure DescentAgrees
    (view : TreeView)
    (rules : ArgumentRules)
    (outer inner : List Selector)
    (left right : Selector) : Prop where
  visited :
    ∀ {ancestor node},
      view.isElement ancestor = true →
      view.isElement node = true →
      ancestor ≠ node →
      (node ∈ (view.trace ancestor none none none).asked ↔ view.Above ancestor node)
  has :
    ∀ {node},
      view.isElement node = true →
      Decides (view.selects rules node (.selectors [Selector.having inner]))
        (∃ lower, view.Selected rules inner lower ∧ view.Above node lower)
  outerHas :
    ∀ {node},
      view.isElement node = true →
      Decides (view.selects rules node (.selectors [.compound [left, Selector.having inner]]))
        (view.Selected rules outer node ∧
          ∃ lower, view.Selected rules inner lower ∧ view.Above node lower)
  descendant :
    ∀ {node},
      view.isElement node = true →
      Decides (view.selects rules node (.selectors [.complex left .descendant right]))
        (view.Selected rules inner node ∧
          ∃ upper, view.Selected rules outer upper ∧ upper ≠ node ∧
            node ∈ (view.trace upper none none none).asked)

section Tracing

variable {view : TreeView}

/-- A visitor that accepts everything and never stops notes every node it is asked about. -/
theorem run_tracer
    (order : List NodeId)
    (trace : Trace) :
    (((view.tracer none none).runAlong order).run trace).2 =
      ⟨trace.asked ++ order, trace.accepted ++ order⟩ := by
  induction order generalizing trace with
  | nil =>
      simp [Visitor.runAlong]
      rfl
  | cons node rest inductionHypothesis =>
      have later := inductionHypothesis ((trace.ask node).accept node)
      simpa [Visitor.runAlong, tracer, Trace.ask, Trace.accept] using later

/-- An unbounded visit asks about its start and all that is listed below it. -/
theorem Coherent.trace_eq
    (coherent : view.Coherent)
    (root : NodeId) :
    view.trace root none none none =
      ⟨root :: view.descendants root, root :: view.descendants root⟩ := by
  have limit : (root :: view.descendants root).length ≤ visitLimit view none * (0 + 1) := by
    simpa [inReach, descendants] using coherent.length_visited_le root none
  rw [trace, Option.getD_none, (coherent.visitOrder_none root).visitStack_eq _ limit, run_tracer]
  rfl

theorem Coherent.asked_trace
    (coherent : view.Coherent)
    (root : NodeId) :
    (view.trace root none none none).asked = root :: view.descendants root := by
  rw [coherent.trace_eq]

/-- Of two different elements, one is met in a visit from the other exactly if it is below it. -/
theorem Coherent.mem_asked_trace_iff
    (coherent : view.Coherent)
    {ancestor node : NodeId}
    (ancestorElement : view.isElement ancestor = true)
    (nodeElement : view.isElement node = true)
    (different : ancestor ≠ node) :
    node ∈ (view.trace ancestor none none none).asked ↔ view.Above ancestor node := by
  rw [coherent.asked_trace, List.mem_cons, coherent.mem_descendants_iff,
    coherent.reaches_iff_above ancestorElement]
  simp [Ne.symm different, nodeElement]

/-- What is above an element are the different elements whose visits meet it. -/
theorem Coherent.above_iff_mem_asked_trace
    (coherent : view.Coherent)
    {ancestor node : NodeId}
    (ancestorElement : view.isElement ancestor = true)
    (nodeElement : view.isElement node = true) :
    view.Above ancestor node ↔
      ancestor ≠ node ∧ node ∈ (view.trace ancestor none none none).asked := by
  constructor
  · intro above
    have different : ancestor ≠ node := by
      intro same
      exact coherent.acyclic node (same ▸ above)
    exact ⟨different,
      (coherent.mem_asked_trace_iff ancestorElement nodeElement different).mpr above⟩
  · rintro ⟨different, met⟩
    exact (coherent.mem_asked_trace_iff ancestorElement nodeElement different).mp met

end Tracing

section Answering

variable {view : TreeView} {rules : ArgumentRules} {members : List Selector} {node : NodeId}

/-- What is asked with any success holds nothing relative. -/
theorem relativeFree_of_selects
    {answer : Bool}
    (answered : view.selects rules node (.selectors members) = .ok answer) :
    ∀ member ∈ members, member.RelativeFree := by
  intro member inMembers
  by_contra notFree
  rw [selects, ask_refused rfl ⟨member, inMembers, notFree⟩] at answered
  cases answered

/-- An answer is given exactly if nothing is relative and matching gives it. -/
theorem selects_eq_ok_iff
    {answer : Bool} :
    view.selects rules node (.selectors members) = .ok answer ↔
      (∀ member ∈ members, member.RelativeFree) ∧
        Selector.anyHoldsAt view members node = .ok answer := by
  constructor
  · intro answered
    have free := relativeFree_of_selects answered
    rw [selects, ask_eq rfl free] at answered
    cases matched : Selector.anyHoldsAt view members node with
    | error error => simp [matched, Except.mapError] at answered
    | ok found =>
        refine ⟨free, ?_⟩
        simpa [matched, Except.mapError] using answered
  · rintro ⟨free, matched⟩
    rw [selects, ask_eq rfl free, matched]
    rfl

/-- Only elements are selected. -/
theorem Selected.isElement
    (selected : view.Selected rules members node) :
    view.isElement node = true := by
  by_contra noElement
  have matched := (selects_eq_ok_iff.mp selected).2
  rw [Selector.anyHoldsAt_of_not_isElement noElement] at matched
  cases matched

namespace Answers

theorem relativeFree
    (answers : view.Answers rules members)
    (element : view.isElement node = true) :
    ∀ member ∈ members, member.RelativeFree := by
  obtain ⟨_, answered⟩ := answers node element
  exact relativeFree_of_selects answered

/-- Selectors that always give an answer decide what they select. -/
theorem decides
    (answers : view.Answers rules members)
    (element : view.isElement node = true) :
    Decides (Selector.anyHoldsAt view members node) (view.Selected rules members node) := by
  obtain ⟨answer, answered⟩ := answers node element
  have matched := (selects_eq_ok_iff.mp answered).2
  rw [matched]
  refine .of_iff ?_
  rw [Selected, answered]
  simp

/-- A selector that stands for some selectors decides whether they select an element. -/
theorem decides_of_standsFor
    {selector : Selector}
    (answers : view.Answers rules members)
    (stands : Selector.StandsFor members selector)
    (element : view.isElement node = true) :
    Decides (Selector.holdsAt view selector node) (view.Selected rules members node) := by
  rw [stands.holdsAt_eq element]
  exact answers.decides element

end Answers

/-- Supported selectors give an answer at every element. -/
theorem Coherent.answers_of_supported
    (coherent : view.Coherent)
    (supported : ∀ member ∈ members, member.Supported) :
    view.Answers rules members := by
  intro node element
  obtain ⟨answer, answered, _⟩ := Selector.anyHoldsAt_decides coherent members supported element
  refine ⟨answer, selects_eq_ok_iff.mpr ⟨?_, answered⟩⟩
  intro member inMembers
  exact (supported member inMembers).relativeFree

end Answering

section Parts

variable {view : TreeView} {rules : ArgumentRules} {members : List Selector} {node : NodeId}

/-- Below an element some selectors match exactly if one of them selects what is below it. -/
theorem Coherent.having_decides
    (coherent : view.Coherent)
    (answers : view.Answers rules members)
    (element : view.isElement node = true) :
    Decides (Selector.holdsAt view (Selector.having members) node)
      (∃ lower, view.Selected rules members lower ∧ view.Above node lower) := by
  have known : PseudoClass.ofName? "has" = some .hasBelow := by
    decide +kernel
  rw [Selector.having, Selector.holdsAt, if_pos element]
  simp only [known, PseudoClass.meaning]
  rw [Selector.argumentHoldsAt]
  have searched :
      Decides
        (anyPasses (fun lower => Selector.anyHoldsAt view members lower) (view.within none node))
        (∃ lower ∈ view.within none node, view.Selected rules members lower) := by
    refine Decides.anyPasses fun lower member => answers.decides ?_
    exact (coherent.mem_within_none_iff.mp member).isElement coherent
  refine searched.congr (exists_congr fun lower => ?_)
  rw [coherent.mem_within_none_iff, coherent.reaches_iff_above element]
  constructor
  · rintro ⟨⟨_, above⟩, selected⟩
    exact ⟨selected, above⟩
  · rintro ⟨selected, above⟩
    exact ⟨⟨selected.isElement, above⟩, selected⟩

/-- Two selectors together say that both match. -/
theorem compound_decides
    {left right : Selector}
    {first second : Prop}
    (element : view.isElement node = true)
    (leftDecides : Decides (Selector.holdsAt view left node) first)
    (rightDecides : Decides (Selector.holdsAt view right node) second) :
    Decides (Selector.holdsAt view (.compound [left, right]) node) (first ∧ second) := by
  obtain ⟨leftAnswer, leftAnswered, leftCorrect⟩ := leftDecides
  obtain ⟨rightAnswer, rightAnswered, rightCorrect⟩ := rightDecides
  rw [Selector.holdsAt, if_pos element, Selector.allHoldAt, leftAnswered]
  cases leftAnswer with
  | false => exact .of_iff (by simp [← leftCorrect])
  | true =>
      rw [Selector.allHoldAt, rightAnswered]
      cases rightAnswer with
      | false => exact .of_iff (by simp [← rightCorrect])
      | true => exact .of_iff (by simp [← leftCorrect, ← rightCorrect])

/-- A descendant combinator looks for its left side among the elements above. -/
theorem Coherent.descendant_decides
    (coherent : view.Coherent)
    {left right : Selector}
    {upper : NodeId → Prop}
    {lower : Prop}
    (element : view.isElement node = true)
    (leftDecides :
      ∀ {other}, view.isElement other = true →
        Decides (Selector.holdsAt view left other) (upper other))
    (rightDecides : Decides (Selector.holdsAt view right node) lower) :
    Decides (Selector.holdsAt view (.complex left .descendant right) node)
      (lower ∧ ∃ other, upper other ∧ view.Above other node) := by
  obtain ⟨answer, answered, correct⟩ := rightDecides
  rw [Selector.holdsAt, if_pos element, answered]
  cases answer with
  | false => exact .of_iff (by simp [← correct])
  | true =>
      have searched :
          Decides
            (anyPasses (fun other => Selector.holdsAt view left other)
              (view.leftOf .descendant node))
            (∃ other ∈ view.leftOf .descendant node, upper other) := by
        refine Decides.anyPasses fun other member => leftDecides ?_
        exact coherent.isElement_of_relates ((coherent.mem_leftOf_iff element).mp member)
      apply searched.congr
      simp [← correct, coherent.mem_leftOf_iff element, Combinator.Relates, and_comm]

end Parts

/--
In every tree that is queried, going down meets what going up meets, and `:has`
and the descendant combinator can be read either way.
-/
theorem Offered.descent_agrees
    {view : TreeView}
    (offered : view.Offered)
    {rules : ArgumentRules}
    {outer inner : List Selector}
    {left right : Selector}
    (outerAnswers : view.Answers rules outer)
    (innerAnswers : view.Answers rules inner)
    (leftStands : Selector.StandsFor outer left)
    (rightStands : Selector.StandsFor inner right) :
    view.DescentAgrees rules outer inner left right := by
  have coherent := offered.coherent
  refine ⟨coherent.mem_asked_trace_iff, ?_, ?_, ?_⟩
  · intro node element
    have innerFree := innerAnswers.relativeFree element
    exact selects_singleton_decides (Selector.relativeFree_having innerFree)
      (coherent.having_decides innerAnswers element)
  · intro node element
    have leftFree := leftStands.relativeFree (outerAnswers.relativeFree element)
    have belowFree := Selector.relativeFree_having (innerAnswers.relativeFree element)
    have free : (Selector.compound [left, .having inner]).RelativeFree :=
      Selector.RelativeFree.of_children rfl (by simp [Selector.children, leftFree, belowFree])
    exact selects_singleton_decides free
      (compound_decides element (outerAnswers.decides_of_standsFor leftStands element)
        (coherent.having_decides innerAnswers element))
  · intro node element
    have leftFree := leftStands.relativeFree (outerAnswers.relativeFree element)
    have rightFree := rightStands.relativeFree (innerAnswers.relativeFree element)
    have free : (Selector.complex left .descendant right).RelativeFree :=
      Selector.RelativeFree.of_children rfl (by simp [Selector.children, leftFree, rightFree])
    refine selects_singleton_decides free ?_
    have decided := coherent.descendant_decides element
      (outerAnswers.decides_of_standsFor leftStands)
      (innerAnswers.decides_of_standsFor rightStands element)
    refine decided.congr (and_congr_right' (exists_congr fun upper => and_congr_right ?_))
    intro selected
    exact coherent.above_iff_mem_asked_trace selected.isElement element

/-- The list has the second item below it, and the second item has the list above it. -/
theorem descent_agrees_itemList :
    itemList.view.Offered ∧
      itemList.view.Answers .standard [.typeName "ul" none] ∧
      itemList.view.Answers .standard [laterItem] ∧
      Selector.StandsFor [.typeName "ul" none] (.typeName "ul" none) ∧
      Selector.StandsFor [laterItem] (.list [laterItem]) ∧
      itemList.view.DescentAgrees .standard [.typeName "ul" none] [laterItem]
        (.typeName "ul" none) (.list [laterItem]) := by
  have offered : itemList.view.Offered := .document itemList_reachable itemList_acyclic
  have ulAnswers : itemList.view.Answers .standard [.typeName "ul" none] := by
    apply offered.coherent.answers_of_supported
    intro member inMembers
    rw [List.mem_singleton.mp inMembers]
    intro part occurs
    rw [occurs.eq_of_children_eq_nil rfl]
    trivial
  have itemAnswers : itemList.view.Answers .standard [laterItem] := by
    apply offered.coherent.answers_of_supported
    intro member inMembers
    rw [List.mem_singleton.mp inMembers]
    exact laterItem_supported
  exact ⟨offered, ulAnswers, itemAnswers, .alone, .list,
    offered.descent_agrees ulAnswers itemAnswers .alone .list⟩

end TreeView

end TreeSelectors
