import TreeSelectors.Error
import TreeSelectors.Selector.Basic
import TreeSelectors.Text.LowerCase
import TreeSelectors.Text.WhiteSpace
import TreeSelectors.Tree.View

namespace TreeSelectors

/-!
# Comparing attribute values

Unless the selector asks for case to count, both the value of the attribute
and the expected one are lowered as whole texts before they are compared. A
namespace in front of an attribute name is not consulted.
-/

/-- Whether a text holds another one somewhere. -/
def holdsSomewhere (part : List Char) : List Char → Bool
  | [] => part.isEmpty
  | char :: rest => part.isPrefixOf (char :: rest) || holdsSomewhere part rest

/-- A text holds exactly those that some beginning of it ends with. -/
theorem holdsSomewhere_iff
    (part text : List Char) :
    holdsSomewhere part text = true ↔ ∃ before behind, text = before ++ part ++ behind := by
  induction text with
  | nil =>
      constructor
      · intro empty
        refine ⟨[], [], ?_⟩
        simpa [holdsSomewhere] using empty
      · rintro ⟨before, behind, same⟩
        have empty : part = [] := by
          simp only [List.append_assoc] at same
          have parts := List.append_eq_nil_iff.mp same.symm
          exact (List.append_eq_nil_iff.mp parts.2).1
        simp [holdsSomewhere, empty]
  | cons char rest inductionHypothesis =>
      simp only [holdsSomewhere, Bool.or_eq_true, inductionHypothesis, List.isPrefixOf_iff_prefix]
      constructor
      · rintro (⟨behind, same⟩ | ⟨before, behind, same⟩)
        · exact ⟨[], behind, by simp [same]⟩
        · exact ⟨char :: before, behind, by simp [same]⟩
      · rintro ⟨before, behind, same⟩
        cases before with
        | nil => exact Or.inl ⟨behind, by simp [same]⟩
        | cons head tail =>
            obtain ⟨_, inTail⟩ := List.cons.inj same
            exact Or.inr ⟨tail, behind, inTail⟩

namespace AttributeMatcher

/-- Whether an actual value stands in the relation of a matcher to an expected one. -/
def relates (matcher : AttributeMatcher) (actual expected : List Char) :
    Except MatchError Bool :=
  match matcher with
  | .equals => .ok (actual == expected)
  | .includes => .ok ((Text.words actual).contains expected)
  | .dashMatch => .ok (actual == expected || (expected ++ ['-']).isPrefixOf actual)
  | .startsWith => .ok (expected.isPrefixOf actual)
  | .endsWith => .ok (expected.isSuffixOf actual)
  | .contains => .ok (holdsSomewhere expected actual)
  | .other char => .error (.unsupportedAttributeMatcher char)

end AttributeMatcher

namespace CaseModifier

/-- A text as it is compared: lowered, unless case counts. -/
def fold (modifier : Option CaseModifier) (text : List Char) : List Char :=
  match modifier with
  | some .sensitive => text
  | _ => Text.lowerCase text

end CaseModifier

namespace AttributeTest

/-- Whether a value passes the test. -/
def acceptsValue (test : AttributeTest) (matcher : AttributeMatcher) (value : String) :
    Except MatchError Bool :=
  matcher.relates (CaseModifier.fold test.modifier value.toList)
    (CaseModifier.fold test.modifier (test.value.getD "").toList)

/-- Whether a node of a tree passes the test. -/
def holdsAt (view : TreeView) (test : AttributeTest) (node : NodeId) : Except MatchError Bool :=
  match test.matcher with
  | none =>
      .ok (view.hasAttribute node test.name)
  | some matcher =>
      match view.attribute? node test.name with
      | none => .ok false
      | some value => test.acceptsValue matcher value

end AttributeTest

end TreeSelectors
