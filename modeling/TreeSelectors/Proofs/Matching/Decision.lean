import TreeSelectors.Proofs.Matching.Meaning
import TreeSelectors.Proofs.Tree.Listing

namespace TreeSelectors

/-!
# Matching decides the meaning

For a supported selector and an element of a coherent view, matching gives an
answer, never an error, and the answer is yes exactly if the selector matches:
`Selector.holdsAt_decides`. The walks of matching enter only through the facts
about kinship in a coherent view.
-/

/-- An answer has been found, and it is yes exactly if the property holds. -/
def Decides {ε : Type} (result : Except ε Bool) (property : Prop) : Prop :=
  ∃ answer, result = .ok answer ∧ (answer = true ↔ property)

namespace Decides

variable {ε : Type}

/-- An answer that is true exactly if a property holds decides it. -/
theorem of_iff
    {answer : Bool}
    {property : Prop}
    (same : answer = true ↔ property) :
    Decides (.ok answer : Except ε Bool) property :=
  ⟨answer, rfl, same⟩

/-- What decides a property decides each that says the same. -/
theorem congr
    {result : Except ε Bool}
    {property other : Prop}
    (decides : Decides result property)
    (same : property ↔ other) :
    Decides result other := by
  obtain ⟨answer, answered, correct⟩ := decides
  exact ⟨answer, answered, correct.trans same⟩

/-- The opposite answer decides the opposite. -/
theorem map_not
    {result : Except ε Bool}
    {property : Prop}
    (decides : Decides result property) :
    Decides (result.map (!·)) (¬ property) := by
  obtain ⟨answer, answered, correct⟩ := decides
  subst answered
  refine ⟨!answer, rfl, ?_⟩
  rw [← correct]
  cases answer <;> simp

/-- An answer that is no error stays the same if errors are renamed. -/
theorem mapError
    {δ : Type}
    {result : Except ε Bool}
    {property : Prop}
    (decides : Decides result property)
    (rename : ε → δ) :
    Decides (result.mapError rename) property := by
  obtain ⟨answer, answered, correct⟩ := decides
  subst answered
  exact ⟨answer, rfl, correct⟩

/-- What decides a property answers yes exactly if it holds. -/
theorem eq_true_iff
    {result : Except ε Bool}
    {property : Prop}
    (decides : Decides result property) :
    result = .ok true ↔ property := by
  obtain ⟨answer, answered, correct⟩ := decides
  rw [answered, Except.ok.injEq, correct]

/-- Two answers that are decided are the same if what they decide is. -/
theorem eq_iff
    {left right : Except ε Bool}
    {property other : Prop}
    (leftDecides : Decides left property)
    (rightDecides : Decides right other) :
    left = right ↔ (property ↔ other) := by
  obtain ⟨leftAnswer, leftAnswered, leftCorrect⟩ := leftDecides
  obtain ⟨rightAnswer, rightAnswered, rightCorrect⟩ := rightDecides
  rw [leftAnswered, rightAnswered, Except.ok.injEq, Bool.eq_iff_iff, leftCorrect, rightCorrect]

/-- A search among candidates that can all be decided is decided. -/
theorem anyPasses
    {α : Type}
    {test : α → Except ε Bool}
    {property : α → Prop}
    {candidates : List α}
    (each : ∀ candidate ∈ candidates, Decides (test candidate) (property candidate)) :
    Decides (TreeSelectors.anyPasses test candidates)
      (∃ candidate ∈ candidates, property candidate) := by
  induction candidates with
  | nil =>
      exact of_iff (by simp)
  | cons candidate rest inductionHypothesis =>
      obtain ⟨answer, answered, correct⟩ := each candidate List.mem_cons_self
      have later := inductionHypothesis fun other member =>
        each other (List.mem_cons_of_mem candidate member)
      rw [TreeSelectors.anyPasses, answered]
      cases answer with
      | true => exact of_iff (by simp [← correct])
      | false => exact later.congr (by simp [← correct])

end Decides

section Kinship

variable {view : TreeView} {node : NodeId}

namespace TreeView

/-- The candidates on the left of a combinator are the nodes that it relates. -/
theorem Coherent.mem_leftOf_iff
    (coherent : view.Coherent)
    (element : view.isElement node = true)
    {combinator : Combinator}
    {other : NodeId} :
    other ∈ view.leftOf combinator node ↔ combinator.Relates view other node := by
  obtain ⟨before, behind, place, _, preceding, _, precedes, _, directly⟩ :=
    coherent.ordered.exists_place element
  cases combinator with
  | descendant => exact coherent.mem_ancestors_iff
  | child => simp [leftOf, Combinator.Relates]
  | nextSibling => simp [leftOf, Combinator.Relates, place.previous, directly]
  | subsequentSibling => simp [leftOf, Combinator.Relates, preceding, precedes]

/-- What a combinator relates to an element is an element. -/
theorem Coherent.isElement_of_relates
    (coherent : view.Coherent)
    {combinator : Combinator}
    {other : NodeId}
    (relates : combinator.Relates view other node) :
    view.isElement other = true := by
  cases combinator with
  | descendant =>
      obtain ⟨_, _, linked⟩ := Leads.exists_last relates
      exact coherent.parentElement linked
  | child => exact coherent.parentElement relates
  | nextSibling =>
      obtain ⟨parent, before, behind, shape⟩ := relates
      exact coherent.childElement (show other ∈ view.children parent by simp [shape])
  | subsequentSibling =>
      obtain ⟨parent, before, between, behind, shape⟩ := relates
      exact coherent.childElement (show other ∈ view.children parent by simp [shape])

/-- Names and namespaces are compared as they are. -/
theorem sameType_iff
    {left right : NodeId} :
    view.sameType left right = true ↔ view.SameType left right := by
  simp [sameType, SameType]

/-- Where a list without repetitions holds what has the property, its length is their number. -/
theorem hasExactly_iff
    {nodes : List NodeId}
    {property : NodeId → Prop}
    {count : Nat}
    (distinct : nodes.Nodup)
    (complete : ∀ node, node ∈ nodes ↔ property node) :
    HasExactly count property ↔ nodes.length = count := by
  constructor
  · rintro ⟨others, othersDistinct, othersComplete, length⟩
    have same : nodes.Perm others :=
      (List.perm_ext_iff_of_nodup distinct othersDistinct).mpr fun node =>
        (complete node).trans (othersComplete node).symm
    rw [same.length_eq, length]
  · intro length
    exact ⟨nodes, distinct, complete, length⟩

end TreeView

end Kinship

section Attributes

/-- A matcher with a meaning decides the relation of the two texts. -/
theorem AttributeMatcher.relates_decides
    {matcher : AttributeMatcher}
    (usable : ∀ char, matcher ≠ .other char)
    (actual expected : List Char) :
    Decides (matcher.relates actual expected) (matcher.Relates actual expected) := by
  cases matcher with
  | equals =>
      exact .of_iff (by simp [Relates])
  | includes =>
      exact .of_iff (by simp [Relates, Text.words, Text.mem_wordsBy_iff])
  | dashMatch =>
      refine .of_iff ?_
      simp only [Relates, Bool.or_eq_true, beq_iff_eq, List.isPrefixOf_iff_prefix]
      refine or_congr_right (exists_congr fun behind => ?_)
      rw [List.append_assoc, eq_comm]
      rfl
  | startsWith =>
      refine .of_iff ?_
      rw [List.isPrefixOf_iff_prefix]
      exact exists_congr fun behind => eq_comm
  | endsWith =>
      refine .of_iff ?_
      rw [List.isSuffixOf_iff_suffix]
      exact exists_congr fun before => eq_comm
  | contains =>
      exact .of_iff (holdsSomewhere_iff expected actual)
  | other char =>
      exact absurd rfl (usable char)

/-- An attribute test with a meaning decides whether a node is accepted. -/
theorem AttributeTest.holdsAt_decides
    {test : AttributeTest}
    (usable : ∀ char, test.matcher ≠ some (.other char))
    (view : TreeView)
    (node : NodeId) :
    Decides (test.holdsAt view node) (test.Accepts view node) := by
  rw [holdsAt]
  cases asked : test.matcher with
  | none =>
      refine .of_iff ?_
      simp [Accepts, TreeView.hasAttribute, asked, Option.isSome_iff_exists]
  | some matcher =>
      cases found : view.attribute? node test.name with
      | none =>
          exact .of_iff (by simp [Accepts, found])
      | some value =>
          have known : ∀ char, matcher ≠ .other char := by
            intro char same
            exact usable char (by rw [asked, same])
          have related := AttributeMatcher.relates_decides known
            (CaseModifier.fold test.modifier value.toList)
            (CaseModifier.fold test.modifier (test.value.getD "").toList)
          refine related.congr ?_
          rw [← AttributeMatcher.relatesUnder_iff]
          simp [Accepts, found, asked]

/-- A matcher without a meaning never says yes, and nothing stands in its relation. -/
theorem AttributeMatcher.relates_eq_true_iff
    {matcher : AttributeMatcher}
    {actual expected : List Char} :
    matcher.relates actual expected = .ok true ↔ matcher.Relates actual expected := by
  by_cases usable : ∀ char, matcher ≠ .other char
  · exact (relates_decides usable actual expected).eq_true_iff
  · obtain ⟨char, rfl⟩ := Classical.not_forall_not.mp usable
    simp [relates, Relates]

/-- Whatever its matcher, a test says yes exactly if the node is accepted. -/
theorem AttributeTest.holdsAt_eq_true_iff
    {test : AttributeTest}
    {view : TreeView}
    {node : NodeId} :
    test.holdsAt view node = .ok true ↔ test.Accepts view node := by
  rw [holdsAt]
  cases asked : test.matcher with
  | none => simp [Accepts, TreeView.hasAttribute, asked, Option.isSome_iff_exists]
  | some matcher =>
      cases found : view.attribute? node test.name with
      | none => simp [Accepts, found]
      | some value =>
          simp only [acceptsValue]
          rw [AttributeMatcher.relates_eq_true_iff, ← AttributeMatcher.relatesUnder_iff]
          simp [Accepts, found, asked]

end Attributes

section Positions

variable {view : TreeView} {node : NodeId}

namespace Argument

/-- The integer of an argument is the one that its tokens stand for. -/
theorem IsInteger.exists_tokens
    {argument : Argument}
    {value : Int}
    (isInteger : argument.IsInteger value) :
    ∃ tokens, (argument = .raw tokens ∨ argument = .anPlusB tokens) ∧
      singleInteger? tokens = some value := by
  obtain ⟨before, numeral, behind, shape, blankBefore, blankBehind, integer⟩ := isInteger
  refine ⟨_, shape, ?_⟩
  have noneBefore : before.filter (fun token => !token.isWhitespace) = [] := by
    simpa [List.filter_eq_nil_iff] using blankBefore
  have noneBehind : behind.filter (fun token => !token.isWhitespace) = [] := by
    simpa [List.filter_eq_nil_iff] using blankBehind
  rw [singleInteger?, List.filter_append, List.filter_cons_of_pos rfl, noneBefore, noneBehind]
  exact integer

/-- An argument is one integer at most. -/
theorem IsInteger.unique
    {argument : Argument}
    {value other : Int}
    (first : argument.IsInteger value)
    (second : argument.IsInteger other) :
    value = other := by
  obtain ⟨tokens, shape, integer⟩ := first.exists_tokens
  obtain ⟨others, otherShape, otherInteger⟩ := second.exists_tokens
  have same : tokens = others := by
    rcases shape with shape | shape <;> rcases otherShape with otherShape | otherShape <;>
      simp_all
  subst same
  exact Option.some.inj (integer.symm.trans otherInteger)

end Argument

namespace TreeView.Ordered

/-- Nothing stands before an element without a link backwards. -/
theorem previous?_isNone_iff
    (ordered : view.Ordered)
    (element : view.isElement node = true) :
    (view.previous? node).isNone = true ↔ ∀ elder, ¬ view.Precedes elder node := by
  obtain ⟨before, _, place, _, _, _, precedes, _, _⟩ := ordered.exists_place element
  simp [place.previous, precedes, List.eq_nil_iff_forall_not_mem]

/-- Nothing stands behind an element without a link forwards. -/
theorem next?_isNone_iff
    (ordered : view.Ordered)
    (element : view.isElement node = true) :
    (view.next? node).isNone = true ↔ ∀ younger, ¬ view.Precedes node younger := by
  obtain ⟨_, behind, place, _, _, _, _, precedes, _⟩ := ordered.exists_place element
  simp [place.next, precedes, List.eq_nil_iff_forall_not_mem]

/-- The walk backwards meets every element before a node, so it decides whether one has its type. -/
theorem isFirstOfType_iff
    (ordered : view.Ordered)
    (element : view.isElement node = true) :
    PseudoClass.isFirstOfType view node = true ↔
      ∀ elder, view.Precedes elder node → ¬ view.SameType elder node := by
  obtain ⟨before, _, _, _, preceding, _, precedes, _, _⟩ := ordered.exists_place element
  simp [PseudoClass.isFirstOfType, preceding, precedes, ← sameType_iff]

/-- The walk forwards meets every element behind a node, so it decides whether one has its type. -/
theorem isLastOfType_iff
    (ordered : view.Ordered)
    (element : view.isElement node = true) :
    PseudoClass.isLastOfType view node = true ↔
      ∀ younger, view.Precedes node younger → ¬ view.SameType younger node := by
  obtain ⟨_, behind, _, _, _, following, _, precedes, _⟩ := ordered.exists_place element
  simp [PseudoClass.isLastOfType, following, precedes, ← sameType_iff]

/-- The index of an element is the number of elements that precede it. -/
theorem index?_eq_some_iff
    (ordered : view.Ordered)
    (element : view.isElement node = true)
    {count : Nat} :
    view.index? node = some count ↔
      HasExactly count fun elder => view.Precedes elder node := by
  obtain ⟨before, _, place, distinct, _, _, precedes, _, _⟩ := ordered.exists_place element
  rw [place.index, Option.some.injEq, hasExactly_iff distinct fun elder => (precedes elder).symm]

/-- The count among siblings of one type is the number of those before the node. -/
theorem indexOfType?_eq_some_iff
    (ordered : view.Ordered)
    (element : view.isElement node = true)
    {count : Nat} :
    view.indexOfType? node = some count ↔
      HasExactly count fun elder => view.Precedes elder node ∧ view.SameType elder node := by
  obtain ⟨before, _, place, distinct, _, _, precedes, _, _⟩ := ordered.exists_place element
  rw [place.indexOfType, Option.some.injEq, hasExactly_iff (distinct.filter _)]
  intro elder
  rw [List.mem_filter, precedes, sameType_iff]

end TreeView.Ordered

end Positions

section PseudoClasses

variable {view : TreeView} {node : NodeId} {pseudoClass : PseudoClass} {argument : Argument}
  {inside : NodeId → Prop}

/-- A condition holds as the pseudo-class says. -/
theorem PseudoClass.condition_iff
    (coherent : view.Coherent)
    (element : view.isElement node = true)
    {holds : TreeView → NodeId → Bool}
    (meaning : pseudoClass.meaning = .condition holds) :
    holds view node = true ↔ pseudoClass.Holds view argument inside node := by
  cases pseudoClass <;> cases meaning
  case firstChild => exact coherent.ordered.previous?_isNone_iff element
  case lastChild => exact coherent.ordered.next?_isNone_iff element
  case onlyChild =>
      rw [Bool.and_eq_true, coherent.ordered.previous?_isNone_iff element,
        coherent.ordered.next?_isNone_iff element]
      rfl
  case firstOfType => exact coherent.ordered.isFirstOfType_iff element
  case lastOfType => exact coherent.ordered.isLastOfType_iff element
  case onlyOfType =>
      rw [Bool.and_eq_true, coherent.ordered.isFirstOfType_iff element,
        coherent.ordered.isLastOfType_iff element]
      rfl
  case root => exact Iff.rfl
  case empty => exact Iff.rfl
  case visited => simp [Holds]
  all_goals
    simp [Holds, TreeView.hasAttribute, isLinkName, Option.isSome_iff_ne_none, or_assoc]

/-- The position that is asked for is the count that a pseudo-class speaks of. -/
theorem PseudoClass.position_iff
    (coherent : view.Coherent)
    (element : view.isElement node = true)
    {index? : TreeView → NodeId → Option Nat}
    (meaning : pseudoClass.meaning = .position index?) :
    pseudoClass.Holds view argument inside node ↔
      ∃ count : Nat, argument.IsInteger count ∧ index? view node = some count := by
  cases pseudoClass <;> cases meaning
  case nthChild =>
      exact exists_congr fun _ =>
        and_congr_right' (coherent.ordered.index?_eq_some_iff element).symm
  case nthChildOf =>
      exact exists_congr fun _ =>
        and_congr_right' (coherent.ordered.indexOfType?_eq_some_iff element).symm

/-- Every element has a position. -/
theorem PseudoClass.exists_position
    (coherent : view.Coherent)
    (element : view.isElement node = true)
    {index? : TreeView → NodeId → Option Nat}
    (meaning : pseudoClass.meaning = .position index?) :
    ∃ index, index? view node = some index := by
  obtain ⟨_, _, place, _⟩ := coherent.ordered.exists_place element
  cases pseudoClass <;> cases meaning
  case nthChild => exact ⟨_, place.index⟩
  case nthChildOf => exact ⟨_, place.indexOfType⟩

/-- A pseudo-class that asks for a position takes an integer and nothing else. -/
theorem PseudoClass.takes_position
    {index? : TreeView → NodeId → Option Nat}
    (meaning : pseudoClass.meaning = .position index?)
    (takes : pseudoClass.Takes argument) :
    ∃ value, argument.IsInteger value := by
  cases pseudoClass <;> cases meaning <;> exact takes

/-- A pseudo-class about selectors takes a selector list or nothing. -/
theorem PseudoClass.takes_selectors
    (meaning :
      pseudoClass.meaning = .anyOf ∨ pseudoClass.meaning = .noneOf ∨
        pseudoClass.meaning = .below)
    (takes : pseudoClass.Takes argument) :
    argument = .absent ∨ ∃ members, argument = .selectors members := by
  cases pseudoClass <;> first | exact takes | simp [PseudoClass.meaning] at meaning

/-- A pseudo-class without a meaning cannot be asked with any argument. -/
theorem PseudoClass.not_takes_of_unsupported
    (meaning : pseudoClass.meaning = .unsupported) :
    ¬ pseudoClass.Takes argument := by
  cases pseudoClass <;> cases meaning <;> exact id

theorem PseudoClass.anyOf_iff
    (meaning : pseudoClass.meaning = .anyOf) :
    pseudoClass.Holds view argument inside node ↔ inside node := by
  cases pseudoClass <;> cases meaning <;> exact Iff.rfl

theorem PseudoClass.noneOf_iff
    (meaning : pseudoClass.meaning = .noneOf) :
    pseudoClass.Holds view argument inside node ↔ ¬ inside node := by
  cases pseudoClass <;> cases meaning
  case notAny => exact Iff.rfl

/-- Below an element are the elements that a search below it looks at. -/
theorem PseudoClass.below_iff
    (coherent : view.Coherent)
    (element : view.isElement node = true)
    (meaning : pseudoClass.meaning = .below) :
    pseudoClass.Holds view argument inside node ↔
      ∃ other ∈ view.within none node, inside other := by
  cases pseudoClass with
  | hasBelow =>
      refine exists_congr fun other => ?_
      rw [coherent.mem_within_none_iff, coherent.reaches_iff_above element, and_assoc]
  | _ => cases meaning

/-- A comparison with the position of an element is decided. -/
theorem Argument.positionHolds_decides
    (name : String)
    (index : Nat)
    {tokens : List Token}
    {value : Int}
    (integer : singleInteger? tokens = some value)
    (isInteger : argument.IsInteger value) :
    Decides (positionHolds name (some index) tokens)
      (∃ count : Nat, argument.IsInteger count ∧ (some index : Option Nat) = some count) := by
  rw [positionHolds, integer]
  refine .of_iff ?_
  change ((index : Int) == value) = true ↔ _
  simp only [beq_iff_eq, Option.some.injEq]
  constructor
  · intro same
    subst same
    exact ⟨index, isInteger, rfl⟩
  · rintro ⟨count, other, same⟩
    subst same
    exact other.unique isInteger

/-- What a pseudo-class says is decided once its selectors are decided at every element. -/
theorem Selector.argumentHoldsAt_decides
    (coherent : view.Coherent)
    (element : view.isElement node = true)
    (name : String)
    (takes : pseudoClass.Takes argument)
    (each :
      ∀ members, argument = .selectors members →
        ∀ other, view.isElement other = true →
          Decides (anyHoldsAt view members other) (AnyMatches view members other)) :
    Decides (argumentHoldsAt view pseudoClass.meaning name argument node)
      (pseudoClass.Holds view argument (fun other => ArgumentMatches view argument other)
        node) := by
  cases meaning : pseudoClass.meaning with
  | condition holds =>
      rw [argumentHoldsAt]
      exact .of_iff (PseudoClass.condition_iff coherent element meaning)
  | unsupported =>
      exact absurd takes (PseudoClass.not_takes_of_unsupported meaning)
  | position index? =>
      obtain ⟨value, isInteger⟩ := PseudoClass.takes_position meaning takes
      obtain ⟨tokens, shape, integer⟩ := isInteger.exists_tokens
      obtain ⟨index, position⟩ := PseudoClass.exists_position coherent element meaning
      rw [PseudoClass.position_iff coherent element meaning]
      have decided := Argument.positionHolds_decides name index integer isInteger
      rw [← position] at decided
      rcases shape with shape | shape
      · subst shape
        rw [argumentHoldsAt]
        exact decided
      · subst shape
        rw [argumentHoldsAt]
        exact decided
  | anyOf =>
      rw [PseudoClass.anyOf_iff meaning]
      rcases PseudoClass.takes_selectors (Or.inl meaning) takes with none | ⟨members, shape⟩
      · subst none
        rw [argumentHoldsAt]
        exact .of_iff (by simp [ArgumentMatches])
      · subst shape
        rw [argumentHoldsAt, ArgumentMatches]
        exact each members rfl node element
  | noneOf =>
      rw [PseudoClass.noneOf_iff meaning]
      rcases PseudoClass.takes_selectors (Or.inr (Or.inl meaning)) takes with
        none | ⟨members, shape⟩
      · subst none
        rw [argumentHoldsAt]
        exact .of_iff (by simp [ArgumentMatches])
      · subst shape
        rw [argumentHoldsAt, ArgumentMatches]
        exact (each members rfl node element).map_not
  | below =>
      rw [PseudoClass.below_iff coherent element meaning]
      rcases PseudoClass.takes_selectors (Or.inr (Or.inr meaning)) takes with
        none | ⟨members, shape⟩
      · subst none
        rw [argumentHoldsAt]
        exact .of_iff (by simp [ArgumentMatches])
      · subst shape
        rw [argumentHoldsAt]
        simp only [ArgumentMatches]
        refine Decides.anyPasses fun other member => each members rfl other ?_
        exact (coherent.mem_within_none_iff.mp member).isElement coherent

end PseudoClasses

namespace Selector

variable {view : TreeView}

/-- A type selector compares name and namespace as it means to. -/
theorem typeHoldsAt_iff
    {name : String}
    {qualifier : Option String}
    {node : NodeId} :
    typeHoldsAt view name qualifier node = true ↔ IsType view name qualifier node := by
  unfold typeHoldsAt IsType
  rw [Bool.and_eq_true, Bool.or_eq_true, beq_iff_eq, beq_iff_eq]
  apply and_congr_right'
  cases qualifier with
  | none => simp
  | some wanted =>
      by_cases any : wanted = "*"
      · simp [any]
      · by_cases bare : wanted = ""
        · simp [bare]
        · simp [any, bare]

mutual

/-- Matching a supported selector against an element decides whether it matches. -/
theorem holdsAt_decides
    (coherent : view.Coherent) :
    (selector : Selector) → selector.Supported →
      ∀ {node}, view.isElement node = true →
        Decides (holdsAt view selector node) (selector.Matches view node)
  | .list members, supported, node, element => by
      rw [holdsAt, if_pos element, Matches]
      exact anyHoldsAt_decides coherent members (fun _ member => supported.child member) element
  | .complex left combinator right, supported, node, element => by
      have leftSupported : left.Supported := supported.child (by simp [children])
      have rightSupported : right.Supported := supported.child (by simp [children])
      obtain ⟨answer, answered, correct⟩ :=
        holdsAt_decides coherent right rightSupported element
      rw [holdsAt, if_pos element, answered, Matches]
      cases answer with
      | false => exact .of_iff (by simp [← correct])
      | true =>
          have searched :
              Decides
                (anyPasses (fun candidate => holdsAt view left candidate)
                  (view.leftOf combinator node))
                (∃ other ∈ view.leftOf combinator node, left.Matches view other) := by
            refine Decides.anyPasses fun other member => ?_
            have relates := (coherent.mem_leftOf_iff element).mp member
            exact holdsAt_decides coherent left leftSupported
              (coherent.isElement_of_relates relates)
          apply searched.congr
          simp [← correct, coherent.mem_leftOf_iff element]
  | .relative combinator right, supported, _, _ => supported.usable.elim
  | .compound members, supported, node, element => by
      rw [holdsAt, if_pos element, Matches]
      exact allHoldAt_decides coherent members (fun _ member => supported.child member) element
  | .typeName name qualifier, _, node, element => by
      rw [holdsAt, if_pos element, Matches]
      exact .of_iff typeHoldsAt_iff
  | .identifier name, _, node, element => by
      rw [holdsAt, if_pos element, Matches]
      exact .of_iff Iff.rfl
  | .className name, _, node, element => by
      rw [holdsAt, if_pos element, Matches]
      exact .of_iff Iff.rfl
  | .attribute test, supported, node, element => by
      rw [holdsAt, if_pos element, Matches]
      exact test.holdsAt_decides supported.usable view node
  | .pseudo .pseudoElement _ _, supported, _, _ => supported.usable.elim
  | .pseudo .pseudoClass name argument, supported, node, element => by
      obtain ⟨pseudoClass, known, takes⟩ := supported.usable
      rw [holdsAt, if_pos element, Matches]
      simp only [known]
      have inArgument := argumentMembers_decide coherent argument
        (fun _ member => supported.child member)
      have decided := argumentHoldsAt_decides coherent element name takes inArgument
      exact decided.congr (by simp)

/-- The selectors of an argument are decided at every element. -/
theorem argumentMembers_decide
    (coherent : view.Coherent) :
    (argument : Argument) → (∀ member ∈ argumentMembers argument, member.Supported) →
      ∀ members, argument = .selectors members →
        ∀ node, view.isElement node = true →
          Decides (anyHoldsAt view members node) (AnyMatches view members node)
  | .selectors others, supported, members, shape, node, element => by
      cases shape
      exact anyHoldsAt_decides coherent others supported element

/-- Alternatives decide whether one of them matches, by induction on the list. -/
theorem anyHoldsAt_decides
    (coherent : view.Coherent) :
    (members : List Selector) → (∀ member ∈ members, member.Supported) →
      ∀ {node}, view.isElement node = true →
        Decides (anyHoldsAt view members node) (AnyMatches view members node)
  | [], _, _, _ => .of_iff (by simp [AnyMatches])
  | member :: rest, supported, node, element => by
      obtain ⟨answer, answered, correct⟩ :=
        holdsAt_decides coherent member (supported member List.mem_cons_self) element
      have later := anyHoldsAt_decides coherent rest
        (fun other inRest => supported other (List.mem_cons_of_mem member inRest)) element
      rw [anyHoldsAt, answered, AnyMatches]
      cases answer with
      | true => exact .of_iff (by simp [← correct])
      | false => exact later.congr (by simp [← correct])

/-- Conditions on one node decide whether all of them match, by induction on the list. -/
theorem allHoldAt_decides
    (coherent : view.Coherent) :
    (members : List Selector) → (∀ member ∈ members, member.Supported) →
      ∀ {node}, view.isElement node = true →
        Decides (allHoldAt view members node) (AllMatch view members node)
  | [], _, _, _ => .of_iff (by simp [AllMatch])
  | member :: rest, supported, node, element => by
      obtain ⟨answer, answered, correct⟩ :=
        holdsAt_decides coherent member (supported member List.mem_cons_self) element
      have later := allHoldAt_decides coherent rest
        (fun other inRest => supported other (List.mem_cons_of_mem member inRest)) element
      rw [allHoldAt, answered, AllMatch]
      cases answer with
      | true => exact later.congr (by simp [← correct])
      | false => exact .of_iff (by simp [← correct])

end

end Selector

end TreeSelectors
