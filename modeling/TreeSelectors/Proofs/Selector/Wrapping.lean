import TreeSelectors.Proofs.Selector.Acceptance

namespace TreeSelectors.Grammar

/-!
# A list in the parentheses of a pseudo selector

The tokens of a phrase close every parenthesis they open, whatever the phrases
in it are: `BalancedFront.ofDerives`. A list that can be read can therefore be
put in the parentheses of a pseudo selector that takes a list, where the same
list is read: `parseTokens_function`.
-/

open TreeSelectors.Parser
open TreeSelectors.Selector

section Inert

/-- A token that is no parenthesis and that no pseudo selector or bracket starts with. -/
def isInert : Token → Bool
  | .leftParen => false
  | .rightParen => false
  | .function _ => false
  | .colon => false
  | .leftBracket => false
  | _ => true

/-- An inert token is no parenthesis. -/
theorem isPlain_of_isInert
    {token : Token}
    (inert : isInert token = true) :
    isPlain token = true := by
  cases token with
  | function name => cases inert
  | leftParen => cases inert
  | rightParen => cases inert
  | _ => rfl

/-- Inert tokens are balanced, for there is no parenthesis among them. -/
theorem balanced_of_inert
    {tokens : List Token}
    (inert : ∀ token ∈ tokens, isInert token = true) :
    Balanced tokens :=
  Balanced.plain fun token member => isPlain_of_isInert (inert token member)

/-- Blanks are inert. -/
theorem isInert_of_blanks
    {blanks : List Token}
    (onlyBlanks : Blanks blanks) :
    ∀ token ∈ blanks, isInert token = true := by
  intro token member
  rw [onlyBlanks token member]
  rfl

theorem isInert_of_named
    {token : Token}
    (named : Named token) :
    isInert token = true := by
  cases named with
  | ident name => rfl
  | star => rfl

/-- A namespace and its bar are inert. -/
theorem isInert_of_optionalQualifier
    {qualifier : List Token}
    (isQualifier : OptionalQualifier qualifier) :
    ∀ token ∈ qualifier, isInert token = true := by
  rcases isQualifier with none | isQualifier
  · subst none
    exact List.forall_mem_nil _
  · cases isQualifier with
    | bare => exact List.forall_mem_singleton.mpr rfl
    | named isName =>
        exact List.forall_mem_cons.mpr
          ⟨isInert_of_named isName, List.forall_mem_singleton.mpr rfl⟩

/-- What an attribute asks for is inert. -/
theorem isInert_of_condition
    {condition : List Token}
    (isCondition : Condition condition) :
    ∀ token ∈ condition, isInert token = true := by
  cases isCondition with
  | absent => exact List.forall_mem_nil _
  | present isMatcher onlyBlanks isValue onlySpaces isFlag =>
      refine List.forall_mem_append.mpr ⟨?_, List.forall_mem_append.mpr
        ⟨isInert_of_blanks onlyBlanks, List.forall_mem_cons.mpr ⟨?_, List.forall_mem_append.mpr
          ⟨isInert_of_blanks onlySpaces, ?_⟩⟩⟩⟩
      · cases isMatcher with
        | equals => exact List.forall_mem_singleton.mpr rfl
        | marked => exact List.forall_mem_cons.mpr ⟨rfl, List.forall_mem_singleton.mpr rfl⟩
      · cases isValue with
        | string value => rfl
        | ident name => rfl
      · cases isFlag with
        | absent => exact List.forall_mem_nil _
        | present _ onlyMore => exact List.forall_mem_cons.mpr ⟨rfl, isInert_of_blanks onlyMore⟩

/-- What stands in the brackets of an attribute selector is inert. -/
theorem isInert_of_attribute
    {inside : List Token}
    (isAttribute : Attribute inside) :
    ∀ token ∈ inside, isInert token = true := by
  cases isAttribute with
  | intro onlyBlanks isQualifier onlySpaces isCondition =>
      exact List.forall_mem_append.mpr ⟨isInert_of_blanks onlyBlanks, List.forall_mem_append.mpr
        ⟨isInert_of_optionalQualifier isQualifier, List.forall_mem_cons.mpr
          ⟨rfl, List.forall_mem_append.mpr
            ⟨isInert_of_blanks onlySpaces, isInert_of_condition isCondition⟩⟩⟩⟩

end Inert

/-- What stands in front of a rest of tokens closes every parenthesis it opens. -/
def BalancedFront (tokens rest : List Token) : Prop :=
  ∃ front, tokens = front ++ rest ∧ Balanced front

namespace BalancedFront

variable {rules : ArgumentRules} {front tokens middle rest : List Token}

theorem nothing
    (tokens : List Token) :
    BalancedFront tokens tokens :=
  ⟨[], rfl, Balanced.nil⟩

/-- Balanced tokens can be put in front. -/
theorem prepend
    (balanced : Balanced front)
    (behind : BalancedFront tokens rest) :
    BalancedFront (front ++ tokens) rest := by
  obtain ⟨others, shape, balancedOthers⟩ := behind
  refine ⟨front ++ others, ?_, balanced.append balancedOthers⟩
  rw [shape, List.append_assoc]

theorem blanks
    {blanks : List Token}
    (onlyBlanks : Blanks blanks)
    (behind : BalancedFront tokens rest) :
    BalancedFront (blanks ++ tokens) rest :=
  behind.prepend (balanced_of_inert (isInert_of_blanks onlyBlanks))

theorem token
    {token : Token}
    (plain : isPlain token = true)
    (behind : BalancedFront tokens rest) :
    BalancedFront (token :: tokens) rest :=
  behind.prepend (Balanced.token plain)

/-- Balanced fronts can be put one behind the other. -/
theorem trans
    (first : BalancedFront tokens middle)
    (second : BalancedFront middle rest) :
    BalancedFront tokens rest := by
  obtain ⟨front, shape, balanced⟩ := first
  rw [shape]
  exact second.prepend balanced

theorem colons
    (form : PseudoForm)
    (behind : BalancedFront tokens rest) :
    BalancedFront (form.colons.map (fun _ => .colon) ++ tokens) rest := by
  cases form with
  | pseudoClass => exact token rfl behind
  | pseudoElement => exact token rfl (token rfl behind)

/-- A phrase closes every parenthesis it opens. -/
theorem ofDerives
    {symbol : Symbol}
    (derives : Derives rules symbol tokens rest) :
    BalancedFront tokens rest := by
  induction derives with
  | typeName isQualifier named =>
      have qualifier := balanced_of_inert (isInert_of_optionalQualifier isQualifier)
      exact prepend qualifier (token (isPlain_of_isInert (isInert_of_named named)) (nothing _))
  | identifier name kind rest => exact token rfl (nothing rest)
  | className name rest => exact token rfl (token rfl (nothing rest))
  | «attribute» rest isAttribute =>
      have inside := balanced_of_inert (isInert_of_attribute isAttribute)
      exact token rfl (prepend inside (token rfl (nothing rest)))
  | @unclosedAttribute inside isAttribute =>
      refine ⟨.leftBracket :: inside, (List.append_nil _).symm, ?_⟩
      exact Balanced.cons rfl (balanced_of_inert (isInert_of_attribute isAttribute))
  | pseudo form name rest => exact colons form (token rfl (nothing rest))
  | @function form name inside rest parenthesized _ _ =>
      have whole := Balanced.function name (parenthesized_iff_balanced.mp parenthesized)
      have behind := prepend whole (nothing rest)
      rw [List.append_assoc] at behind
      exact colons form behind
  | alone _ simple => exact simple
  | together _ _ simple compound => exact simple.trans compound
  | noLinks rest => exact nothing rest
  | descendant onlyBlanks _ _ _ compound links => exact blanks onlyBlanks (compound.trans links)
  | combinator onlyBlanks _ onlySpaces _ _ compound links =>
      exact blanks onlyBlanks (token rfl (blanks onlySpaces (compound.trans links)))
  | complex _ _ compound links => exact compound.trans links
  | relative _ onlySpaces _ _ compound links =>
      exact token rfl (blanks onlySpaces (compound.trans links))
  | @lastMember blanks onlyBlanks =>
      exact ⟨blanks, (List.append_nil _).symm, balanced_of_inert (isInert_of_blanks onlyBlanks)⟩
  | nextMember onlyBlanks onlySpaces _ _ complex later =>
      exact blanks onlyBlanks (token rfl (blanks onlySpaces (complex.trans later)))
  | @noMembers blanks onlyBlanks =>
      exact ⟨blanks, (List.append_nil _).symm, balanced_of_inert (isInert_of_blanks onlyBlanks)⟩
  | members onlyBlanks _ _ complex later => exact blanks onlyBlanks (complex.trans later)

end BalancedFront

section Reading

variable {rules : ArgumentRules} {inside : List Token} {members : List Selector}

/-- Tokens that are read as a list close every parenthesis they open. -/
theorem balanced_of_parseTokens
    (read : (parseTokens rules inside).outcome = .ok members) :
    Balanced inside := by
  obtain ⟨front, shape, balanced⟩ := BalancedFront.ofDerives (list_of_parseTokens read)
  rw [shape, List.append_nil]
  exact balanced

/-- One simple selector that takes up all tokens is the list that is read from them. -/
theorem parseTokens_of_simple?
    {tokens : List Token}
    {selector : Selector}
    (read : (simple? rules (parseTokens rules) tokens).outcome = .ok (some (selector, [])))
    (firm : skipBlanks tokens = tokens)
    (uncombined : explicitCombinator? tokens = none) :
    (parseTokens rules tokens).outcome = .ok [selector] := by
  have nonempty : tokens ≠ [] := by
    intro none
    rw [none] at read
    cases read
  have compound : (compound? rules (parseTokens rules) tokens).outcome =
      .ok (some (selector, [])) := by
    refine Reading.outcome_andThen_eq_ok.mpr ⟨([selector], []), ?_, rfl⟩
    exact (many_cons_iff advances_simple?).mpr ⟨[], read, many_of_none advances_simple? rfl⟩
  have complex : (complex? rules (parseTokens rules) tokens).outcome =
      .ok (some (selector, [])) := by
    refine Reading.outcome_andThen_eq_ok.mpr ⟨some (selector, []), ?_, ?_⟩
    · rw [chainStart?, uncombined]
      exact compound
    · refine Reading.outcome_andThen_eq_ok.mpr ⟨([], []), ?_, rfl⟩
      exact many_of_none advances_link? rfl
  have first : (member rules (parseTokens rules) tokens).outcome = .ok (selector, []) := by
    rw [member, firm]
    exact Reading.outcome_andThen_eq_ok.mpr ⟨_, complex, rfl⟩
  have some : ¬ (skipBlanks tokens).isEmpty = true := by
    rw [firm, List.isEmpty_iff]
    exact nonempty
  rw [parseTokens_eq, selectorList, if_neg some]
  refine Reading.outcome_andThen_eq_ok.mpr ⟨_, first, ?_⟩
  refine Reading.outcome_andThen_eq_ok.mpr ⟨([], []), ?_, rfl⟩
  exact many_of_none advances_furtherMember? rfl

/-- A list in the parentheses of a pseudo selector that takes a list is its argument. -/
theorem parseTokens_function
    (form : PseudoForm)
    {name : String}
    (rule : rules.get? (ruleKey form name) = some .selectorList)
    (read : (parseTokens rules inside).outcome = .ok members) :
    (parseTokens rules
        (form.colons.map (fun _ => .colon) ++
          .function name :: (inside ++ [.rightParen]))).outcome =
      .ok [.pseudo form name (.selectors members)] := by
  have cut := (balanced_of_parseTokens read).split []
  obtain ⟨behind, shape, named⟩ := pseudoName?_append form (Or.inr ⟨name, rfl⟩)
    (inside ++ [.rightParen])
  rw [shape]
  refine parseTokens_of_simple? ?_ rfl rfl
  show (pseudo? rules (parseTokens rules) behind).outcome = _
  simp only [pseudo?, named, cut]
  refine Reading.outcome_andThen_eq_ok.mpr ⟨.selectors members, ?_, rfl⟩
  simp only [argument, rule]
  exact Reading.outcome_andThen_eq_ok.mpr ⟨members, read, rfl⟩

end Reading

end TreeSelectors.Grammar
