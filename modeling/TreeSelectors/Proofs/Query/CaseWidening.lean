import TreeSelectors.Proofs.Query.Selection
import TreeSelectors.Proofs.Text.LoweredWords
import TreeSelectors.Proofs.Tree.Histories
import TreeSelectors.Proofs.Tree.Offered

namespace TreeSelectors

/-!
# Ignoring case

A test that ignores case compares the lower case of two whole texts. It accepts
whatever it accepts when case counts, unless it looks for a part of the value
that is lowered in another way than the expected text alone: the part is open on
a side where the value may go on. `AttributeTest.widens_iff` says that there is
no other exception and that each of these is one.
-/

open TreeSelectors.Text

namespace AttributeMatcher

/-- A value may go on next to the expected text on a side where that text is open. -/
def Exposes (expected : List Char) : AttributeMatcher → Prop
  | .startsWith => EndsOpen expected
  | .endsWith => StartsOpen expected
  | .contains => EndsOpen expected ∨ StartsOpen expected
  | _ => False

instance (expected : List Char) :
    (matcher : AttributeMatcher) → Decidable (matcher.Exposes expected)
  | .startsWith => inferInstanceAs (Decidable (EndsOpen expected))
  | .endsWith => inferInstanceAs (Decidable (StartsOpen expected))
  | .contains => inferInstanceAs (Decidable (EndsOpen expected ∨ StartsOpen expected))
  | .equals | .includes | .dashMatch | .other _ => .isFalse id

variable {matcher : AttributeMatcher} {actual expected : List Char}

/-- Lower-casing keeps the relation of a value to a text that is not exposed. -/
theorem Relates.lowerCase
    (related : matcher.Relates actual expected)
    (covered : ¬ matcher.Exposes expected) :
    matcher.Relates (lowerCase actual) (Text.lowerCase expected) := by
  cases matcher with
  | equals => exact congrArg Text.lowerCase related
  | includes => exact IsWord.lowerCase related
  | dashMatch =>
      rcases related with same | ⟨behind, rfl⟩
      · exact .inl (congrArg Text.lowerCase same)
      · refine .inr ⟨lowerBetween false false behind, ?_⟩
        rw [lowerCase_append, divides_hyphen.casedBefore_cons, divides_hyphen.lowerBetween_cons,
          ← lowerCase_eq]
  | startsWith =>
      obtain ⟨behind, rfl⟩ := related
      refine ⟨lowerBetween (casedAfter false expected) false behind, ?_⟩
      rw [lowerCase_append, lowerBetween_eq_lowerCase (by simp) fun _ => covered]
  | endsWith =>
      obtain ⟨before, rfl⟩ := related
      refine ⟨lowerBetween false (casedBefore false expected) before, ?_⟩
      rw [lowerCase_append, lowerBetween_eq_lowerCase (fun _ => covered) (by simp)]
  | contains =>
      obtain ⟨before, behind, rfl⟩ := related
      obtain ⟨notEnds, notStarts⟩ := not_or.mp covered
      rw [Text.lowerCase_append, lowerBetween_append,
        lowerBetween_eq_lowerCase (fun _ => notStarts) fun _ => notEnds]
      exact ⟨_, _, rfl⟩
  | other char => exact related.elim

/-- A text that is exposed is looked for in vain in some value, once case is ignored. -/
theorem Exposes.exists_not_relates
    (exposes : matcher.Exposes expected) :
    ∃ actual, matcher.Relates actual expected ∧
      ¬ matcher.Relates (lowerCase actual) (lowerCase expected) := by
  cases matcher with
  | startsWith =>
      refine ⟨expected ++ ['a'], ⟨_, rfl⟩, ?_⟩
      rintro ⟨behind, shape⟩
      exact exposes.lowerCase_concat_ne [] behind shape
  | endsWith =>
      refine ⟨'a' :: expected, ⟨['a'], rfl⟩, ?_⟩
      rintro ⟨before, shape⟩
      exact exposes.lowerCase_cons_ne before [] (by rw [shape, List.append_nil])
  | contains =>
      rcases exposes with ends | starts
      · refine ⟨expected ++ ['a'], ⟨[], ['a'], rfl⟩, ?_⟩
        rintro ⟨before, behind, shape⟩
        exact ends.lowerCase_concat_ne before behind shape
      · refine ⟨'a' :: expected, ⟨['a'], [], by simp⟩, ?_⟩
        rintro ⟨before, behind, shape⟩
        exact starts.lowerCase_cons_ne before behind shape
  | equals | includes | dashMatch | other => exact exposes.elim

end AttributeMatcher

namespace AttributeTest

/-- The matcher of a test, if it has one, exposes the expected text. -/
def Exposed (test : AttributeTest) : Prop :=
  ∃ matcher, test.matcher = some matcher ∧ matcher.Exposes (test.value.getD "").toList

/-- The test with another flag, or with none. -/
def withModifier (test : AttributeTest) (modifier : Option CaseModifier) : AttributeTest :=
  { test with modifier := modifier }

/-- Whatever a test selects in a tree when case counts is selected when case does not count. -/
def WidensIn (view : TreeView) (test : AttributeTest) : Prop :=
  ∀ rules node,
    view.selects rules node (.selectors [.attribute (test.withModifier (some .sensitive))]) =
        .ok true →
      view.selects rules node (.selectors [.attribute (test.withModifier (some .insensitive))]) =
          .ok true ∧
        view.selects rules node (.selectors [.attribute (test.withModifier none)]) = .ok true

section Widening

variable {view : TreeView} {test : AttributeTest} {node : NodeId}

/-- A test that ignores case accepts what it accepts when case counts, if it exposes nothing. -/
theorem Accepts.ignoringCase
    {modifier : Option CaseModifier}
    (accepted : (test.withModifier (some .sensitive)).Accepts view node)
    (covered : ¬ test.Exposed)
    (ignoring : modifier ≠ some .sensitive) :
    (test.withModifier modifier).Accepts view node := by
  obtain ⟨value, found, related⟩ := accepted
  refine ⟨value, found, fun matcher asked => ?_⟩
  have counted := (related matcher asked).1 rfl
  refine ⟨fun counting => absurd counting ignoring, fun _ => ?_⟩
  exact counted.lowerCase fun exposes => covered ⟨matcher, asked, exposes⟩

theorem widensIn_of_not_exposed
    (covered : ¬ test.Exposed) :
    test.WidensIn view := by
  intro rules node selected
  obtain ⟨element, accepted⟩ := TreeView.selects_attribute_eq_true_iff.mp selected
  exact ⟨TreeView.selects_attribute_eq_true_iff.mpr
      ⟨element, accepted.ignoringCase covered (by simp)⟩,
    TreeView.selects_attribute_eq_true_iff.mpr
      ⟨element, accepted.ignoringCase covered (by simp)⟩⟩

/-- A document with a single element, which has a single attribute. -/
def oneAttribute (name value : String) : DocumentTree :=
  .build [.appendElement DocumentTree.root ⟨"a", none, [(name, value)]⟩]

theorem selects_oneAttribute_iff
    (rules : ArgumentRules)
    {matcher : AttributeMatcher}
    (asked : test.matcher = some matcher)
    (modifier : Option CaseModifier)
    (actual : List Char) :
    (oneAttribute test.name (String.ofList actual)).view.selects rules 1
          (.selectors [.attribute (test.withModifier modifier)]) = .ok true ↔
      matcher.RelatesUnder modifier actual (test.value.getD "").toList := by
  have element :
      (oneAttribute test.name (String.ofList actual)).view.isElement 1 = true := rfl
  have found : (oneAttribute test.name (String.ofList actual)).view.attribute? 1 test.name =
      some (String.ofList actual) := by
    change ([_].find? fun entry : String × String => entry.1 == test.name).map Prod.snd = _
    simp
  rw [TreeView.selects_attribute_eq_true_iff]
  simp [element, Accepts, withModifier, found, asked]

theorem exists_not_widensIn
    (exposed : test.Exposed) :
    ∃ value, ¬ test.WidensIn (oneAttribute test.name value).view := by
  obtain ⟨matcher, asked, exposes⟩ := exposed
  obtain ⟨actual, related, unrelated⟩ := exposes.exists_not_relates
  refine ⟨String.ofList actual, fun widens => unrelated ?_⟩
  have selected :=
    (selects_oneAttribute_iff .standard asked (some .sensitive) actual).mpr
      ⟨fun _ => related, fun ignoring => absurd rfl ignoring⟩
  have selectedToo := (widens .standard 1 selected).2
  exact ((selects_oneAttribute_iff .standard asked none actual).mp selectedToo).2 (by simp)

end Widening

/--
In every tree that can be built a test selects at least as much when case does not count, exactly if
its matcher does not expose the text that it expects.
-/
theorem widens_iff
    (test : AttributeTest) :
    (∀ view : TreeView, view.Built → test.WidensIn view) ↔ ¬ test.Exposed := by
  constructor
  · intro widens exposed
    obtain ⟨value, fails⟩ := exists_not_widensIn exposed
    exact fails (widens _ (.document (DocumentTree.reachable_build _)))
  · exact fun covered view _ => widensIn_of_not_exposed covered

/-- The test for values that start with `ΑΣ`. -/
def startsWithSigma : AttributeTest :=
  ⟨"t", none, some .startsWith, some "ΑΣ", none⟩

/-- The value `ΑΣΑ` starts with `ΑΣ`, but `ασα` does not start with `ας`. -/
theorem not_widensIn_sigma :
    (oneAttribute "t" "ΑΣΑ").view.Built ∧
      ¬ startsWithSigma.WidensIn (oneAttribute "t" "ΑΣΑ").view := by
  have built : (oneAttribute "t" "ΑΣΑ").view.Built :=
    .document (DocumentTree.reachable_build _)
  have selected : (oneAttribute "t" "ΑΣΑ").view.selects .standard 1
      (.selectors [.attribute (startsWithSigma.withModifier (some .sensitive))]) = .ok true := by
    decide +kernel
  have unselected : (oneAttribute "t" "ΑΣΑ").view.selects .standard 1
      (.selectors [.attribute (startsWithSigma.withModifier none)]) = .ok false := by
    decide +kernel
  refine ⟨built, fun widens => ?_⟩
  have selectedToo := (widens .standard 1 selected).2
  rw [unselected] at selectedToo
  cases selectedToo

end AttributeTest

end TreeSelectors
