import Mathlib
import TreeSelectors.Proofs.Matching.Agreement
import TreeSelectors.Proofs.Query.Searches
import TreeSelectors.Proofs.Tree.ObjectDocument

namespace TreeSelectors

/-!
# Querying objects or elements

A JSON document can be queried as it is, or as the document tree that is made
of its objects. All queries give the same answers, node by node, or the same
errors: `ObjectTree.answerAlike_toDocument`.
-/

namespace TreeView

/-- Two questions about the selectors of a subject that agree once these are read. -/
theorem ask_congr
    {α : Type}
    {rules : ArgumentRules}
    {subject : Subject}
    {question other : List Selector → Except MatchError α}
    (same : ∀ members, subject.read rules = .ok members → question members = other members) :
    ask rules subject question = ask rules subject other := by
  have resolved : ∀ members, subject.resolve rules = .ok members →
      subject.read rules = .ok members := by
    intro members resolution
    cases read : subject.read rules with
    | error error => simp [Subject.resolve, read] at resolution
    | ok found =>
        by_cases relative : found.any Selector.hasRelative = true
        · simp [Subject.resolve, read, Subject.checked, relative, Except.mapError] at resolution
        · simpa [Subject.resolve, read, Subject.checked, relative, Except.mapError]
            using resolution
  rw [ask, ask]
  cases resolution : subject.resolve rules with
  | error error => rfl
  | ok members =>
      exact congrArg (Except.mapError SelectorError.unmatchable)
        (same members (resolved members resolution))

/-- All queries for a subject give the same at a node of two trees. -/
structure AnswerAlike
    (left right : TreeView)
    (rules : ArgumentRules)
    (subject : Subject)
    (node : NodeId) : Prop where
  selects :
    left.selects rules node subject = right.selects rules node subject
  first :
    left.first rules node subject = right.first rules node subject
  all :
    left.all rules node subject = right.all rules node subject
  children :
    left.matchingChildren rules node subject = right.matchingChildren rules node subject
  closest :
    left.closest rules node subject = right.closest rules node subject

/-- Trees with the same elements answer alike to what is portable between them. -/
theorem SameElements.answerAlike
    {left right : TreeView}
    (same : left.SameElements right)
    {rooted : Prop}
    (roots : rooted → left.isRoot = right.isRoot)
    {rules : ArgumentRules}
    {subject : Subject}
    (portable :
      ∀ members, subject.read rules = .ok members →
        ∀ member ∈ members, member.Portable rooted)
    (node : NodeId) :
    AnswerAlike left right rules subject node := by
  have matching : ∀ members, subject.read rules = .ok members →
      Selector.anyHoldsAt left members = Selector.anyHoldsAt right members :=
    fun members read => Selector.anyHoldsAt_eq same roots members (portable members read)
  constructor
  · refine ask_congr fun members read => ?_
    rw [matching members read]
  · refine ask_congr fun members read => ?_
    rw [same.leftCoherent.find_first, same.rightCoherent.find_first, matching members read,
      same.descendants_eq]
  · refine ask_congr fun members read => ?_
    rw [same.leftCoherent.find_all, same.rightCoherent.find_all, matching members read,
      same.descendants_eq]
  · refine ask_congr fun members read => ?_
    rw [same.leftCoherent.find_children, same.rightCoherent.find_children, matching members read,
      same.children]
  · refine ask_congr fun members read => ?_
    rw [matching members read, same.ancestors_eq]

end TreeView

/--
Objects and the elements for them answer alike, as long as no identifier and no
class is asked for, and no root among several objects at the top.
-/
theorem ObjectTree.answerAlike_toDocument
    {value : Json}
    {rules : ArgumentRules}
    {subject : Subject}
    (portable :
      ∀ members, subject.read rules = .ok members →
        ∀ member ∈ members, member.Portable ((ofJson value).roots.length ≤ 1))
    (node : NodeId) :
    TreeView.AnswerAlike (ofJson value).toDocument.view (ofJson value).view rules subject node := by
  have mirrors := mirrors_ofJson value
  have linked := linked_ofJson value
  exact (mirrors.sameElements linked).answerAlike (mirrors.isRoot_eq linked) portable node

namespace ObjectTree

/-- A library with one shelf, and books on it with and without a title. -/
def library : Json :=
  .object
    [("type", .string "library"),
      ("shelf", .object
        [("type", .string "shelf"),
          ("books", .array
            [.object [("type", .string "book"), ("title", .string "Emma")],
              .object [("type", .string "book"), ("copies", .number (.integer 2))]])])]

/-- What stands directly in the whole document and holds a book with a title. -/
def titled : Selector :=
  .complex (.pseudo .pseudoClass "root" .absent) .child
    (.pseudo .pseudoClass "has"
      (.selectors [.attribute ⟨"title", none, none, none, none⟩]))

theorem titled_portable
    {rooted : Prop}
    (allowed : rooted) :
    titled.Portable rooted := by
  have walked : ∀ {part}, Selector.Occurs part titled → part ∈ titled.walk :=
    Selector.mem_walk_iff.mpr
  refine ⟨fun name occurs => ?_, fun name occurs => ?_, fun _ _ => allowed⟩
  · have member := walked occurs
    simp [titled, Selector.walk, Selector.walkQueue, Selector.children,
      Selector.argumentMembers] at member
  · have member := walked occurs
    simp [titled, Selector.walk, Selector.walkQueue, Selector.children,
      Selector.argumentMembers] at member

/-- The shelf is found in both trees, and it is the same node. -/
theorem answerAlike_toDocument_library :
    (ofJson library).view.all .standard 0 (.selectors [titled]) = .ok [2] ∧
      TreeView.AnswerAlike (ofJson library).toDocument.view (ofJson library).view .standard
        (.selectors [titled]) 0 := by
  have oneRoot : (ofJson library).roots.length ≤ 1 := by
    decide
  refine ⟨by cbv, answerAlike_toDocument (fun members read member inMembers => ?_) 0⟩
  cases read
  rw [List.mem_singleton.mp inMembers]
  exact titled_portable oneRoot

end ObjectTree

end TreeSelectors
