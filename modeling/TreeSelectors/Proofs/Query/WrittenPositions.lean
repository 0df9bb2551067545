import Mathlib
import TreeSelectors.Proofs.Query.SiblingPositions
import TreeSelectors.Proofs.Selector.RoundTrip
import TreeSelectors.Proofs.Token.IntegerLiterals

namespace TreeSelectors

/-!
# Positions written as integers

Any integer can be written as the argument of `:nth-child` and `:nth-child-of`,
with a sign, with zeros in front and with any number of digits. As long as it
fits into sixty-four bits it is compared with the number of siblings before an
element; if it does not, the query fails: `TreeView.Built.answers_literal`.
-/

open TreeSelectors.Text
open TreeSelectors.Lexer
open TreeSelectors.Selector

section Reading

variable {rules : ArgumentRules}

/-- A literal stands apart from a parenthesis behind it. -/
theorem standsApart_numeral
    (literal : IntegerLiteral) :
    (Token.number literal.numeral).standsApart [')'] = true := by
  have ends : endsNumber [')'] = true := by
    decide
  have cut := splitNumber_of_isNumber literal.isNumber_chars ends
  have noIdent : startsIdent [')'] = false := by
    decide
  simp [Token.standsApart, IntegerLiteral.numeral, cut, noIdent]

/-- A plain name with a literal in its parentheses is read as a pseudo-class with one number. -/
theorem parse_literal
    (name : String)
    (rule : rules.get? (Parser.ruleKey .pseudoClass name) = some .anPlusB)
    (wellFormed : (Token.function name).WellFormed)
    (plain : escapeIdentChars name.toList = name.toList)
    (literal : IntegerLiteral) :
    parse rules (":" ++ name ++ "(" ++ literal.text ++ ")") =
      .ok [.pseudo .pseudoClass name (.anPlusB [.number literal.numeral])] := by
  let members : List Selector := [.pseudo .pseudoClass name (.anPlusB [.number literal.numeral])]
  have tokens : listTokens members =
      [.colon, .function name, .number literal.numeral, .rightParen] := rfl
  have chars : Token.listChars (listTokens members) =
      ':' :: (name.toList ++ '(' :: (literal.chars ++ [')'])) := by
    simp [tokens, Token.chars, plain, IntegerLiteral.numeral]
  have fits : FitsList rules members := by
    refine ⟨fits_pseudo_iff.mpr ?_, trivial⟩
    rw [rule]
    exact Balanced.plain (List.forall_mem_singleton.mpr rfl)
  have allWellFormed : Token.AllWellFormed (listTokens members) := by
    rw [tokens]
    refine List.forall_mem_cons.mpr ⟨trivial, List.forall_mem_cons.mpr ⟨wellFormed, ?_⟩⟩
    refine List.forall_mem_cons.mpr ⟨?_, List.forall_mem_singleton.mpr trivial⟩
    rw [Token.WellFormed, IntegerLiteral.numeral, IntegerLiteral.toList_text]
    exact literal.isNumber_chars
  have isLegible : Token.legible (listTokens members) = true := by
    simp only [tokens, Token.legible_cons, Bool.and_eq_true]
    exact ⟨rfl, rfl, standsApart_numeral literal, rfl, rfl⟩
  have untrimmed : trim (Token.listChars (listTokens members)) =
      Token.listChars (listTokens members) := by
    rw [chars]
    apply Token.trim_of_edges <;> simp [List.getLast?_append, List.getLast?_cons, isWhiteSpace]
  have text : String.ofList (Token.listChars (listTokens members)) =
      ":" ++ name ++ "(" ++ literal.text ++ ")" := by
    rw [chars, ← String.toList_inj]
    simp
  rw [← text]
  exact parse_of_legible fits allWellFormed isLegible untrimmed

end Reading

/--
The outcome of comparing a literal with the number of siblings that a
pseudo-class counts.
-/
def IntegerLiteral.comparedWith
    (literal : IntegerLiteral)
    (pseudoClass : PseudoClass)
    (count : Nat) : Except SelectorError Bool :=
  if literal.Fits then
    .ok (decide (literal.value = count))
  else
    .error (.unmatchable (.argumentShape pseudoClass.name .singleInteger))

/-- The one number of an argument is compared as an integer, as far as it fits. -/
theorem positionHolds_numeral
    (literal : IntegerLiteral)
    (pseudoClass : PseudoClass)
    (count : Nat) :
    (Argument.positionHolds pseudoClass.name (some count) [.number literal.numeral]).mapError
        .unmatchable =
      literal.comparedWith pseudoClass count := by
  have alone : Argument.singleInteger? [.number literal.numeral] = literal.numeral.integer? := rfl
  rw [Argument.positionHolds, alone, literal.integer?_numeral, IntegerLiteral.comparedWith]
  by_cases fits : literal.Fits
  · rw [if_pos fits, if_pos fits]
    refine congrArg Except.ok ?_
    change ((count : Int) == literal.value) = _
    rw [beq_eq_decide]
    exact decide_eq_decide.mpr eq_comm
  · rw [if_neg fits, if_neg fits]
    rfl

namespace TreeView

/--
What `:nth-child` and `:nth-child-of` answer at an element to a literal, by the
elements that precede it and by those of them that have its type.
-/
structure AnswersLiteral
    (view : TreeView)
    (node : NodeId)
    (literal : IntegerLiteral)
    (index indexOfType : Nat) : Prop where
  elders :
    HasExactly index fun elder => view.Precedes elder node
  eldersOfType :
    HasExactly indexOfType fun elder => view.Precedes elder node ∧ view.SameType elder node
  nthChild :
    view.selects .standard node (.text (":nth-child(" ++ literal.text ++ ")")) =
      literal.comparedWith .nthChild index
  nthChildOf :
    view.selects .standard node (.text (":nth-child-of(" ++ literal.text ++ ")")) =
      literal.comparedWith .nthChildOf indexOfType

/-- A literal is compared with the positions of an element as the integer that it denotes. -/
def ComparesAsInteger
    (view : TreeView)
    (node : NodeId)
    (literal : IntegerLiteral) : Prop :=
  ∀ index indexOfType : Nat,
    (HasExactly index fun elder => view.Precedes elder node) →
    (HasExactly indexOfType fun elder => view.Precedes elder node ∧ view.SameType elder node) →
    view.selects .standard node (.text (":nth-child(" ++ literal.text ++ ")")) =
        .ok (decide (literal.value = index)) ∧
      view.selects .standard node (.text (":nth-child-of(" ++ literal.text ++ ")")) =
        .ok (decide (literal.value = indexOfType))

/--
A literal is compared with the positions of an element if it fits into sixty-four bits; if it does
not, the pseudo-classes fail, saying that they want an integer.
-/
theorem Built.answers_literal
    {view : TreeView}
    (built : view.Built)
    {node : NodeId}
    (element : view.isElement node = true)
    (literal : IntegerLiteral) :
    ∃ index indexOfType, view.AnswersLiteral node literal index indexOfType := by
  obtain ⟨before, behind, stands⟩ := built.ordered.exists_standsBetween element
  refine ⟨_, _, {
    elders := (built.ordered.index?_eq_some_iff element).mp stands.place.index
    eldersOfType := (built.ordered.indexOfType?_eq_some_iff element).mp stands.place.indexOfType
    nthChild := ?_
    nthChildOf := ?_
  }⟩
  · have read : (Subject.text (":nth-child(" ++ literal.text ++ ")")).read .standard =
        .ok [.pseudo .pseudoClass PseudoClass.nthChild.name
          (.anPlusB [.number literal.numeral])] :=
      parse_literal "nth-child" (by cbv) ⟨by decide, by decide⟩ (by decide) literal
    rw [selects_position read rfl element, stands.place.index, positionHolds_numeral]
  · have read : (Subject.text (":nth-child-of(" ++ literal.text ++ ")")).read .standard =
        .ok [.pseudo .pseudoClass PseudoClass.nthChildOf.name
          (.anPlusB [.number literal.numeral])] :=
      parse_literal "nth-child-of" (by cbv) ⟨by decide, by decide⟩ (by decide) literal
    rw [selects_position read rfl element, stands.place.indexOfType, positionHolds_numeral]

/-- The literal `+0001`. -/
def paddedOne : IntegerLiteral :=
  ⟨.plus, [0, 0, 0, 1], by decide⟩

theorem answers_literal_paddedOne :
    circlingList.view.Built ∧
      circlingList.view.isElement 4 = true ∧
      ∃ index indexOfType,
        circlingList.view.AnswersLiteral 4 paddedOne index indexOfType := by
  have built : circlingList.view.Built := .document (DocumentTree.reachable_build _)
  have element : circlingList.view.isElement 4 = true := by
    decide
  exact ⟨built, element, built.answers_literal element paddedOne⟩

/-- The literal `9223372036854775808`, the first integer beyond sixty-four bits. -/
def beyondInt64 : IntegerLiteral :=
  ⟨.absent, [9, 2, 2, 3, 3, 7, 2, 0, 3, 6, 8, 5, 4, 7, 7, 5, 8, 0, 8], by decide⟩

/-- A literal that does not fit is an error, although it denotes an integer. -/
theorem not_comparesAsInteger_beyondInt64 :
    ¬ circlingList.view.ComparesAsInteger 4 beyondInt64 := by
  have ordered : circlingList.view.Ordered := (DocumentTree.reachable_build _).linked.ordered
  have element : circlingList.view.isElement 4 = true := by
    decide
  have index : circlingList.view.index? 4 = some 1 := by
    decide +kernel
  have indexOfType : circlingList.view.indexOfType? 4 = some 1 := by
    decide +kernel
  have failed : circlingList.view.selects .standard 4
      (.text (":nth-child(" ++ beyondInt64.text ++ ")")) =
      .error (.unmatchable (.argumentShape "nth-child" .singleInteger)) := by
    decide +kernel
  intro compares
  have compared := compares 1 1 ((ordered.index?_eq_some_iff element).mp index)
    ((ordered.indexOfType?_eq_some_iff element).mp indexOfType)
  rw [failed] at compared
  cases compared.1

end TreeView

end TreeSelectors
