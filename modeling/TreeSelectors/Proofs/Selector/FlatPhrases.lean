import TreeSelectors.Proofs.Selector.Derivation

namespace TreeSelectors.Grammar

/-!
# The phrases of one token after another are read

Names with their namespaces, what stands in brackets, and the tokens in front of
the parenthesis that closes an argument: each is read to its end, if what is
behind it cannot belong to it.
-/

open TreeSelectors.Parser
open TreeSelectors.Selector

/-- Blanks in front of tokens are skipped. -/
theorem skipBlanks_append
    {blanks : List Token}
    (onlyBlanks : Blanks blanks)
    (tokens : List Token) :
    skipBlanks (blanks ++ tokens) = skipBlanks tokens := by
  refine List.dropWhile_append_of_pos ?_
  intro token member
  rw [onlyBlanks token member]
  rfl

theorem skipBlanks_of_blanks
    {blanks : List Token}
    (onlyBlanks : Blanks blanks) :
    skipBlanks blanks = [] := by
  have skipped := skipBlanks_append onlyBlanks []
  rwa [List.append_nil] at skipped

/-- What the grammar takes for a name the parser does too. -/
theorem isNamed_of_named
    {token : Token}
    (named : Named token) :
    isNamed token = true := by
  cases named with
  | ident name => rfl
  | star => rfl

section Attributes

/-- A namespace of the grammar is read in front of a name. -/
theorem qualifier?_append
    {front : List Token}
    (qualifier : Qualifier front)
    {token : Token}
    (named : isNamed token = true)
    (rest : List Token) :
    ∃ name, qualifier? (front ++ token :: rest) = .ok (some (name, token :: rest)) := by
  cases qualifier with
  | bare => exact ⟨_, qualified?_of_isNamed named "" rest⟩
  | named isName =>
      cases isName with
      | ident name => exact ⟨_, qualified?_of_isNamed named name rest⟩
      | star => exact ⟨_, qualified?_of_isNamed named "*" rest⟩

/-- A namespace is read, and none where no bar follows that would make one. -/
theorem optionalQualifier_append
    {front : List Token}
    (isQualifier : OptionalQualifier front)
    {token : Token}
    (named : isNamed token = true)
    {rest : List Token}
    (noBar : front = [] →
      ∀ others, rest = .delim '|' :: others → ∃ more, others = .delim '=' :: more) :
    ∃ qualifier, optionalQualifier (front ++ token :: rest) = .ok (qualifier, token :: rest) := by
  unfold Parser.optionalQualifier
  rcases isQualifier with none | qualifier
  · subst none
    have notBar : token ≠ .delim '|' := by
      intro same
      rw [same] at named
      exact absurd named (by decide)
    rw [List.nil_append, qualifier?_eq_none notBar (noBar rfl)]
    exact ⟨none, rfl⟩
  · obtain ⟨name, read⟩ := qualifier?_append qualifier named rest
    rw [read]
    exact ⟨some name, rfl⟩

/-- A type selector of the grammar is read where a bar behind it starts a matcher. -/
theorem simple?_typeName
    (rules : ArgumentRules)
    {front : List Token}
    (isQualifier : OptionalQualifier front)
    {token : Token}
    (named : Named token)
    (rest : List Token)
    (noBar : front = [] →
      ∀ others, rest = .delim '|' :: others → ∃ more, others = .delim '=' :: more) :
    ∃ selector, (simple? rules (parseTokens rules) (front ++ token :: rest)).outcome =
      .ok (some (selector, rest)) := by
  obtain ⟨qualifier, read⟩ :=
    optionalQualifier_append isQualifier (isNamed_of_named named) noBar
  unfold simple? typeSelector?
  rw [read]
  cases named with
  | ident name => exact ⟨_, rfl⟩
  | star => exact ⟨_, rfl⟩

/-- A matcher of the grammar is read. -/
theorem attributeMatcher?_append
    {front : List Token}
    (matcher : Matcher front)
    (rest : List Token) :
    ∃ found, attributeMatcher? (front ++ rest) = some (found, rest) := by
  cases matcher with
  | equals => exact ⟨_, rfl⟩
  | @marked char notEquals =>
      refine ⟨.ofMark (some char), ?_⟩
      rw [List.cons_append, List.cons_append, List.nil_append, attributeMatcher?]
      intro same
      exact notEquals same

/-- The tokens that can stand behind an attribute. -/
def endsAttribute : List Token → Bool
  | [] => true
  | .rightBracket :: _ => true
  | _ => false

variable {rest : List Token}

/-- What ends an attribute selector is its bracket or the end of the tokens. -/
theorem endsAttribute_cases
    (ends : endsAttribute rest = true) :
    rest = [] ∨ ∃ more, rest = .rightBracket :: more := by
  unfold endsAttribute at ends
  split at ends
  · exact Or.inl rfl
  · exact Or.inr ⟨_, rfl⟩
  · exact absurd ends (by simp)

/-- A flag of the grammar is read up to the end of its attribute selector. -/
theorem optionalModifier_append
    {flag : List Token}
    (isFlag : Flag flag)
    (ends : endsAttribute rest = true) :
    (optionalModifier (skipBlanks (flag ++ rest))).2 = rest := by
  have noBlanks : skipBlanks rest = rest := by
    rcases endsAttribute_cases ends with nothing | ⟨more, bracket⟩
    · rw [nothing]
      rfl
    · rw [bracket]
      rfl
  cases isFlag with
  | absent =>
      rw [List.nil_append, noBlanks]
      rcases endsAttribute_cases ends with nothing | ⟨more, bracket⟩
      · rw [nothing]
        rfl
      · rw [bracket]
        rfl
  | @present name blanks isName onlyBlanks =>
      have skipped : skipBlanks (.ident name :: blanks ++ rest) =
          .ident name :: (blanks ++ rest) :=
        skipBlanks_cons rfl _
      have flagged : ∃ modifier, caseModifier? (.ident name :: (blanks ++ rest)) =
          some (modifier, blanks ++ rest) := by
        rw [caseModifier?]
        rcases mem_flagNames_iff.mp isName with insensitive | sensitive
        · exact ⟨_, if_pos insensitive⟩
        · by_cases insensitive : Text.eqIgnoringAsciiCase name "i" = true
          · exact ⟨_, if_pos insensitive⟩
          · exact ⟨_, by rw [if_neg insensitive, if_pos sensitive]⟩
      obtain ⟨modifier, read⟩ := flagged
      rw [skipped, optionalModifier, read]
      exact (skipBlanks_append onlyBlanks rest).trans noBlanks

/-- Where something is compared with, no blank stands in front of it. -/
theorem condition_cases
    {condition : List Token}
    (isCondition : Condition condition) :
    condition = [] ∨ (∃ more, condition = .delim '=' :: more) ∨
      ∃ char more, condition = .delim char :: .delim '=' :: more := by
  cases isCondition with
  | absent => exact Or.inl rfl
  | present matcher =>
      cases matcher with
      | equals => exact Or.inr (Or.inl ⟨_, rfl⟩)
      | marked => exact Or.inr (Or.inr ⟨_, _, rfl⟩)

/-- There are no blanks to skip in front of a condition. -/
theorem skipBlanks_condition
    {condition : List Token}
    (isCondition : Condition condition)
    (ends : endsAttribute rest = true) :
    skipBlanks (condition ++ rest) = condition ++ rest := by
  rcases condition_cases isCondition with absent | ⟨more, equals⟩ | ⟨char, more, marked⟩
  · rw [absent]
    rcases endsAttribute_cases ends with nothing | ⟨more, bracket⟩
    · rw [nothing]
      rfl
    · rw [bracket]
      rfl
  · rw [equals]
    rfl
  · rw [marked]
    rfl

/-- A condition of the grammar is read to its end. -/
theorem attributeCondition_append
    {condition : List Token}
    (isCondition : Condition condition)
    (ends : endsAttribute rest = true)
    (name : String)
    (qualifier : Option String) :
    ∃ test, attributeCondition name qualifier (condition ++ rest) = .ok (test, rest) := by
  cases isCondition with
  | absent =>
      have noMatcher : attributeMatcher? rest = none := by
        rcases endsAttribute_cases ends with nothing | ⟨more, bracket⟩
        · rw [nothing]
          rfl
        · rw [bracket]
          rfl
      exact ⟨_, by rw [List.nil_append, attributeCondition, noMatcher]⟩
  | @present matcher blanks spaces flag value isMatcher onlyBlanks isValue onlySpaces isFlag =>
      obtain ⟨found, matched⟩ := attributeMatcher?_append isMatcher
        (blanks ++ value :: (spaces ++ (flag ++ rest)))
      have valued : ∃ text, attributeValue? (skipBlanks (blanks ++ value ::
          (spaces ++ (flag ++ rest)))) = some (text, spaces ++ (flag ++ rest)) := by
        rw [skipBlanks_append onlyBlanks]
        cases isValue with
        | string text => exact ⟨text, rfl⟩
        | ident text => exact ⟨text, rfl⟩
      obtain ⟨text, valued⟩ := valued
      have flagged := optionalModifier_append isFlag ends
      simp only [List.append_assoc, List.cons_append, attributeCondition, matched, valued,
        skipBlanks_append onlySpaces, flagged]
      exact ⟨_, rfl⟩

/-- Behind the name of an attribute a bar belongs to the matcher. -/
theorem bar_of_condition
    {spaces condition others : List Token}
    (onlySpaces : Blanks spaces)
    (isCondition : Condition condition)
    (ends : endsAttribute rest = true)
    (bar : spaces ++ (condition ++ rest) = .delim '|' :: others) :
    ∃ more, others = .delim '=' :: more := by
  cases spaces with
  | cons space spaces =>
      cases bar
      exact absurd (onlySpaces _ List.mem_cons_self) (by simp)
  | nil =>
      rw [List.nil_append] at bar
      rcases condition_cases isCondition with absent | ⟨more, equals⟩ | ⟨char, more, marked⟩
      · rw [absent, List.nil_append] at bar
        rw [bar] at ends
        exact absurd ends (by simp [endsAttribute])
      · rw [equals] at bar
        cases bar
      · rw [marked] at bar
        cases bar
        exact ⟨_, rfl⟩

/-- What the grammar allows in brackets is read up to where they close. -/
theorem attributeTest_append
    {inside : List Token}
    (isAttribute : Attribute inside)
    (ends : endsAttribute rest = true) :
    ∃ test, attributeTest (inside ++ rest) = .ok (test, rest) := by
  obtain @⟨blanks, front, spaces, condition, name, onlyBlanks, isQualifier, onlySpaces,
    isCondition⟩ := isAttribute
  have skipped : skipBlanks (blanks ++ (front ++ .ident name :: (spaces ++ (condition ++ rest)))) =
      front ++ .ident name :: (spaces ++ (condition ++ rest)) := by
    rw [skipBlanks_append onlyBlanks]
    rcases isQualifier with none | qualifier
    · subst none
      rfl
    · cases qualifier with
      | bare => rfl
      | named isName =>
          cases isName with
          | ident name => rfl
          | star => rfl
  obtain ⟨qualifier, read⟩ := optionalQualifier_append isQualifier
    (show isNamed (.ident name) = true from rfl)
    (fun _ _ bar => bar_of_condition onlySpaces isCondition ends bar)
  obtain ⟨test, tested⟩ := attributeCondition_append isCondition ends name qualifier
  refine ⟨test, ?_⟩
  simp only [List.append_assoc, List.cons_append, attributeTest, skipped, read,
    skipBlanks_append onlySpaces, skipBlanks_condition isCondition ends, tested]

end Attributes

/-- Tokens that close all they open are cut off in front of the parenthesis behind them. -/
theorem splitArgument?_append
    {depth : Nat}
    {inside : List Token}
    (closing : Closing depth inside)
    (behind : List Token) :
    splitArgument? depth (inside ++ .rightParen :: behind) = some (inside, behind) := by
  induction inside generalizing depth with
  | nil =>
      rw [closing_nil_iff.mp closing]
      rfl
  | cons token inside inductionHypothesis =>
      rcases exists_step depth token with ⟨isZero, isClosing⟩ | ⟨after, step⟩
      · subst isZero
        subst isClosing
        exact absurd closing (not_closing_zero_rightParen inside)
      · have later := inductionHypothesis ((closing_cons_iff step).mp closing)
        rw [List.cons_append, splitArgument?_cons step, later]
        rfl

/-- An argument ends where its parentheses do. -/
theorem parenthesized_inj
    {inside other behind rest : List Token}
    (first : Parenthesized inside)
    (second : Parenthesized other)
    (same : inside ++ .rightParen :: behind = other ++ .rightParen :: rest) :
    inside = other ∧ behind = rest := by
  have cut := splitArgument?_append first behind
  rw [same, splitArgument?_append second rest] at cut
  cases cut
  exact ⟨rfl, rfl⟩

/-- Tokens close all that they open exactly if a scan for the end of an argument goes over them. -/
theorem parenthesized_iff_balanced
    {inside : List Token} :
    Parenthesized inside ↔ Balanced inside := by
  constructor
  · intro parenthesized
    exact balanced_splitArgument? (splitArgument?_append parenthesized [])
  · intro balanced
    exact closing_of_splitArgument? (balanced.split [])

end TreeSelectors.Grammar
