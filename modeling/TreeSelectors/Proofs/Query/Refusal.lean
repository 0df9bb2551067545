import TreeSelectors.Proofs.Matching.Agreement
import TreeSelectors.Proofs.Query.Searches

namespace TreeSelectors

/-!
# Relative selectors are refused by every query

A query refuses selectors with a relative one anywhere in them before it looks
at a node. What it then runs has nothing relative left in it, so matching never
meets its own case for that, and the error has no other source:
`TreeView.refuses_iff`. None of this depends on the links of the tree.
-/

/-- A test never gives a certain error. -/
def NeverGives {α β ε : Type} (error : ε) (test : α → Except ε β) : Prop :=
  ∀ candidate, test candidate ≠ .error error

section Searches

variable {α ε : Type} {error : ε} {test : α → Except ε Bool}

/-- A search for any candidate gives no error that the test never gives. -/
theorem anyPasses_ne_error
    (never : NeverGives error test)
    (candidates : List α) :
    anyPasses test candidates ≠ .error error := by
  induction candidates with
  | nil => simp [anyPasses]
  | cons candidate rest inductionHypothesis =>
      have here := never candidate
      rw [anyPasses]
      cases answered : test candidate with
      | error other => simpa [answered] using here
      | ok passes =>
          cases passes with
          | true => simp
          | false => exact inductionHypothesis

/-- A search for the first candidate gives no error that the test never gives. -/
theorem firstPassing_ne_error
    (never : NeverGives error test)
    (candidates : List α) :
    firstPassing test candidates ≠ .error error := by
  induction candidates with
  | nil => simp [firstPassing]
  | cons candidate rest inductionHypothesis =>
      have here := never candidate
      rw [firstPassing]
      cases answered : test candidate with
      | error other => simpa [answered] using here
      | ok passes =>
          cases passes with
          | true => simp
          | false => exact inductionHypothesis

/-- Changing an answer makes no error. -/
theorem map_ne_error
    {β γ : Type}
    {result : Except ε β}
    (never : result ≠ .error error)
    (change : β → γ) :
    result.map change ≠ .error error := by
  cases result with
  | error other => simpa [Except.map] using never
  | ok value => simp [Except.map]

end Searches

namespace Selector

variable {view : TreeView}

/-- Comparing attributes never complains of a relative selector. -/
theorem attribute_ne_relativeSelector
    (test : AttributeTest) :
    NeverGives .relativeSelector (test.holdsAt view) := by
  intro node
  rw [AttributeTest.holdsAt]
  split
  · simp
  · next matcher _ =>
      split
      · simp
      · rw [AttributeTest.acceptsValue]
        cases matcher <;> simp [AttributeMatcher.relates]

/-- Comparing positions never complains of a relative selector. -/
theorem positionHolds_ne_relativeSelector
    (name : String)
    (index? : Option Nat)
    (tokens : List Token) :
    Argument.positionHolds name index? tokens ≠ .error .relativeSelector := by
  rw [Argument.positionHolds]
  split <;> simp

/-- A pseudo-class does not bring the error in if the selectors of its argument do not. -/
theorem argumentHoldsAt_ne_relativeSelector
    (meaning : PseudoClass.Meaning)
    (name : String)
    {argument : Argument}
    (inside :
      ∀ members, argument = .selectors members →
        NeverGives .relativeSelector (anyHoldsAt view members)) :
    NeverGives .relativeSelector (argumentHoldsAt view meaning name argument) := by
  intro node
  cases meaning with
  | condition holds => simp [argumentHoldsAt]
  | unsupported => simp [argumentHoldsAt]
  | position index? =>
      cases argument with
      | raw tokens =>
          rw [argumentHoldsAt]
          exact positionHolds_ne_relativeSelector _ _ _
      | anPlusB tokens =>
          rw [argumentHoldsAt]
          exact positionHolds_ne_relativeSelector _ _ _
      | _ => simp [argumentHoldsAt]
  | anyOf =>
      cases argument with
      | selectors members =>
          rw [argumentHoldsAt]
          exact inside members rfl node
      | _ => simp [argumentHoldsAt]
  | noneOf =>
      cases argument with
      | selectors members =>
          rw [argumentHoldsAt]
          exact map_ne_error (inside members rfl node) _
      | _ => simp [argumentHoldsAt]
  | below =>
      cases argument with
      | selectors members =>
          rw [argumentHoldsAt]
          exact anyPasses_ne_error (inside members rfl) _
      | _ => simp [argumentHoldsAt]

/-- What fails nowhere among the elements fails nowhere. -/
theorem neverGives_of_isElement
    {error : MatchError}
    {selector : Selector}
    (each : ∀ node, view.isElement node = true → holdsAt view selector node ≠ .error error) :
    NeverGives error (holdsAt view selector) := by
  intro node
  by_cases element : view.isElement node = true
  · exact each node element
  · simp [holdsAt_of_not_isElement selector element]

mutual

/-- Matching what is free of relative selectors never meets one. -/
theorem holdsAt_ne_relativeSelector :
    (selector : Selector) → selector.RelativeFree →
      NeverGives .relativeSelector (holdsAt view selector)
  | .list members, free => by
      have inMembers := anyHoldsAt_ne_relativeSelector members fun _ member => free.child member
      refine neverGives_of_isElement fun node element => ?_
      rw [holdsAt, if_pos element]
      exact inMembers node
  | .complex left combinator right, free => by
      have onLeft := holdsAt_ne_relativeSelector left (free.child (by simp [children]))
      have onRight := holdsAt_ne_relativeSelector right (free.child (by simp [children]))
      refine neverGives_of_isElement fun node element => ?_
      have here := onRight node
      rw [holdsAt, if_pos element]
      cases matched : holdsAt view right node with
      | error other => simpa [matched] using here
      | ok answer =>
          cases answer with
          | true => exact anyPasses_ne_error onLeft _
          | false => simp
  | .relative combinator right, free => absurd .self (free combinator right)
  | .compound members, free => by
      have inMembers := allHoldAt_ne_relativeSelector members fun _ member => free.child member
      refine neverGives_of_isElement fun node element => ?_
      rw [holdsAt, if_pos element]
      exact inMembers node
  | .typeName name qualifier, _ =>
      neverGives_of_isElement fun node element => by simp [holdsAt, element]
  | .identifier name, _ =>
      neverGives_of_isElement fun node element => by simp [holdsAt, element]
  | .className name, _ =>
      neverGives_of_isElement fun node element => by simp [holdsAt, element]
  | .attribute test, _ =>
      neverGives_of_isElement fun node element => by
        rw [holdsAt, if_pos element]
        exact attribute_ne_relativeSelector test node
  | .pseudo .pseudoElement name argument, _ =>
      neverGives_of_isElement fun node element => by simp [holdsAt, element]
  | .pseudo .pseudoClass name argument, free => by
      have inArgument := argumentMembers_ne_relativeSelector argument
        fun _ member => free.child member
      refine neverGives_of_isElement fun node element => ?_
      rw [holdsAt, if_pos element]
      cases known : PseudoClass.ofName? name with
      | none => simp
      | some pseudoClass =>
          exact argumentHoldsAt_ne_relativeSelector pseudoClass.meaning name inArgument node

/-- The members of an argument without relative selectors never complain of one. -/
theorem argumentMembers_ne_relativeSelector :
    (argument : Argument) → (∀ member ∈ argumentMembers argument, member.RelativeFree) →
      ∀ members, argument = .selectors members →
        NeverGives .relativeSelector (anyHoldsAt view members)
  | .selectors members, free, others, shape => by
      cases shape
      exact anyHoldsAt_ne_relativeSelector members free

/-- Alternatives without relative selectors never complain of one. -/
theorem anyHoldsAt_ne_relativeSelector :
    (members : List Selector) → (∀ member ∈ members, member.RelativeFree) →
      NeverGives .relativeSelector (anyHoldsAt view members)
  | [], _ => fun node => by simp [anyHoldsAt]
  | member :: rest, free => by
      have first := holdsAt_ne_relativeSelector member (free member List.mem_cons_self)
      have later := anyHoldsAt_ne_relativeSelector rest
        fun other inRest => free other (List.mem_cons_of_mem member inRest)
      intro node
      have here := first node
      rw [anyHoldsAt]
      cases matched : holdsAt view member node with
      | error other => simpa [matched] using here
      | ok answer =>
          cases answer with
          | true => simp
          | false => exact later node

/-- Conditions on one node without relative selectors never complain of one. -/
theorem allHoldAt_ne_relativeSelector :
    (members : List Selector) → (∀ member ∈ members, member.RelativeFree) →
      NeverGives .relativeSelector (allHoldAt view members)
  | [], _ => fun node => by simp [allHoldAt]
  | member :: rest, free => by
      have first := holdsAt_ne_relativeSelector member (free member List.mem_cons_self)
      have later := allHoldAt_ne_relativeSelector rest
        fun other inRest => free other (List.mem_cons_of_mem member inRest)
      intro node
      have here := first node
      rw [allHoldAt]
      cases matched : holdsAt view member node with
      | error other => simpa [matched] using here
      | ok answer =>
          cases answer with
          | true => exact later node
          | false => simp

end

end Selector

namespace TreeView

section Finding

variable {view : TreeView} {test : NodeId → Except MatchError Bool} {error : MatchError}

/-- Every visit is its visitor run along some order, which the visitor has no part in. -/
theorem exists_order
    (view : TreeView)
    (depth? : Option Nat)
    (limit : Nat)
    (stack : List (NodeId × Nat)) :
    ∃ order, ∀ {m : Type → Type} [Monad m] (visitor : Visitor m),
      visitStack view depth? visitor limit stack = visitor.runAlong order := by
  induction limit generalizing stack with
  | zero =>
      exact ⟨[], fun _ => rfl⟩
  | succ limit inductionHypothesis =>
      cases stack with
      | nil =>
          exact ⟨[], fun _ => rfl⟩
      | cons top stack =>
          obtain ⟨node, level⟩ := top
          obtain ⟨order, along⟩ :=
            inductionHypothesis (pushChildren view depth? node level stack)
          refine ⟨node :: order, fun visitor => ?_⟩
          rw [visitStack, Visitor.runAlong, along visitor]

/-- A search along any nodes gives only errors that its test gives. -/
theorem outcome_runAlong_ne_error
    (never : NeverGives error test)
    (root : NodeId)
    (firstOnly : Bool)
    (nodes : List NodeId)
    {findings : Findings}
    (noError : findings.error? = none) :
    (((finder test root firstOnly).runAlong nodes).run findings).2.outcome ≠ .error error := by
  induction nodes generalizing findings with
  | nil =>
      simp [run_runAlong_nil, Findings.outcome, noError]
  | cons node rest inductionHypothesis =>
      -- Where links run in a circle the root comes up again, and is passed over again.
      by_cases atRoot : node = root
      · rw [atRoot, run_runAlong_root]
        exact inductionHypothesis noError
      · cases answered : test node with
        | error other =>
            have here := never node
            rw [run_runAlong_failed atRoot answered]
            simpa [answered] using here
        | ok passes =>
            cases passes with
            | false =>
                rw [run_runAlong_refused atRoot answered]
                exact inductionHypothesis noError
            | true =>
                rw [run_runAlong_passed atRoot answered noError]
                split
                · simp [Findings.outcome, Findings.add, noError]
                · exact inductionHypothesis noError

/-- A search of a tree gives no error that the test never gives. -/
theorem find_ne_error
    (never : NeverGives error test)
    (root : NodeId)
    (depth? : Option Nat)
    (firstOnly : Bool) :
    view.find test root depth? firstOnly ≠ .error error := by
  obtain ⟨order, along⟩ := view.exists_order depth? (visitLimit view depth?) [(root, 0)]
  rw [find, visit, along]
  exact outcome_runAlong_ne_error never root firstOnly order rfl

end Finding

section Asking

variable {α : Type} {rules : ArgumentRules} {members : List Selector}

/-- A list has a relative selector somewhere exactly if one of its members has. -/
theorem exists_relative_iff :
    (∃ member ∈ members, ¬ member.RelativeFree) ↔
      ∃ member ∈ members, ∃ combinator right,
        Selector.Occurs (.relative combinator right) member := by
  simp [Selector.RelativeFree]

/-- A question that never gives the error itself is refused only for a relative selector. -/
theorem ask_refused_iff
    {question : List Selector → Except MatchError α}
    (never :
      (∀ member ∈ members, member.RelativeFree) →
        question members ≠ .error .relativeSelector) :
    ask rules (.selectors members) question = .error (.unmatchable .relativeSelector) ↔
      ∃ member ∈ members, ∃ combinator right,
        Selector.Occurs (.relative combinator right) member := by
  rw [← exists_relative_iff]
  constructor
  · intro refused
    by_contra noRelative
    have free : ∀ member ∈ members, member.RelativeFree := by
      simpa using noRelative
    rw [ask_eq rfl free] at refused
    apply never free
    cases answered : question members with
    | error error => simpa [answered, Except.mapError] using refused
    | ok answer => simp [answered, Except.mapError] at refused
  · intro relative
    exact ask_refused rfl relative question

/-- What a question would say of relative selectors does not matter. -/
theorem ask_congr_of_relativeFree
    {question other : List Selector → Except MatchError α}
    (same : (∀ member ∈ members, member.RelativeFree) → question members = other members) :
    ask rules (.selectors members) question = ask rules (.selectors members) other := by
  by_cases free : ∀ member ∈ members, member.RelativeFree
  · rw [ask_eq rfl free, ask_eq rfl free, same free]
  · have relative : ∃ member ∈ members, ¬ member.RelativeFree := by
      simpa using free
    rw [ask_refused rfl relative, ask_refused rfl relative]

end Asking

/--
All queries at a node are refused under the same condition, and only then. What
is run holds no relative selector: no answer depends on what matching makes of
one.
-/
structure RefusesExactly
    (view : TreeView)
    (rules : ArgumentRules)
    (members : List Selector)
    (node : NodeId)
    (refused : Prop) : Prop where
  selects :
    view.selects rules node (.selectors members) = .error (.unmatchable .relativeSelector) ↔
      refused
  first :
    view.first rules node (.selectors members) = .error (.unmatchable .relativeSelector) ↔
      refused
  all :
    view.all rules node (.selectors members) = .error (.unmatchable .relativeSelector) ↔
      refused
  children :
    view.matchingChildren rules node (.selectors members) =
        .error (.unmatchable .relativeSelector) ↔
      refused
  closest :
    view.closest rules node (.selectors members) = .error (.unmatchable .relativeSelector) ↔
      refused
  unmatched :
    ∀ {α : Type} {question other : List Selector → Except MatchError α},
      ((∀ member ∈ members, member.RelativeFree) → question members = other members) →
      ask rules (.selectors members) question = ask rules (.selectors members) other

/-- In every tree and at every number, queries refuse the selectors with something relative. -/
theorem refuses_iff
    (view : TreeView)
    (rules : ArgumentRules)
    (members : List Selector)
    (node : NodeId) :
    view.RefusesExactly rules members node
      (∃ member ∈ members, ∃ combinator right,
        Selector.Occurs (.relative combinator right) member) where
  selects :=
    ask_refused_iff fun free =>
      Selector.anyHoldsAt_ne_relativeSelector members free node
  first :=
    ask_refused_iff fun free =>
      map_ne_error (find_ne_error (Selector.anyHoldsAt_ne_relativeSelector members free) _ _ _) _
  all :=
    ask_refused_iff fun free =>
      find_ne_error (Selector.anyHoldsAt_ne_relativeSelector members free) _ _ _
  children :=
    ask_refused_iff fun free =>
      find_ne_error (Selector.anyHoldsAt_ne_relativeSelector members free) _ _ _
  closest :=
    ask_refused_iff fun free =>
      firstPassing_ne_error (Selector.anyHoldsAt_ne_relativeSelector members free) _
  unmatched :=
    ask_congr_of_relativeFree

end TreeView

end TreeSelectors
