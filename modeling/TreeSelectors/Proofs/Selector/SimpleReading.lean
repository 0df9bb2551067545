import TreeSelectors.Proofs.Selector.Tokens
import TreeSelectors.Selector.ParserProgress

namespace TreeSelectors.Selector

/-!
# The tokens of a simple selector are read back

A simple selector is read back from its tokens in front of anything but a bar
that its name would take: `ReadsSimple`.
-/

open TreeSelectors.Parser

/-- The tokens that simple selectors start with. -/
def startsSimple : Token → Bool
  | .ident _ => true
  | .hash _ _ => true
  | .leftBracket => true
  | .colon => true
  | .delim char => char == '*' || char == '|' || char == '.'
  | _ => false

section Balance

theorem Balanced.nil :
    Balanced [] := by
  intro depth rest
  rw [List.nil_append]
  cases splitArgument? depth rest <;> rfl

/-- Two balanced rows of tokens are balanced one behind the other. -/
theorem Balanced.append
    {left right : List Token}
    (balancedLeft : Balanced left)
    (balancedRight : Balanced right) :
    Balanced (left ++ right) := by
  intro depth rest
  rw [List.append_assoc, balancedLeft, balancedRight, Option.map_map]
  simp [Function.comp_def]

/-- A token that is no parenthesis. -/
def isPlain : Token → Bool
  | .leftParen => false
  | .rightParen => false
  | .function _ => false
  | _ => true

/-- A token that is no parenthesis is balanced. -/
theorem Balanced.token
    {token : Token}
    (plain : isPlain token = true) :
    Balanced [token] := by
  intro depth rest
  cases token with
  | function name => simp [isPlain] at plain
  | leftParen => simp [isPlain] at plain
  | rightParen => simp [isPlain] at plain
  | _ => simp [splitArgument?]

theorem Balanced.cons
    {token : Token}
    (plain : isPlain token = true)
    {rest : List Token}
    (balanced : Balanced rest) :
    Balanced (token :: rest) :=
  (Balanced.token plain).append balanced

/-- Tokens of which none is a parenthesis. -/
theorem Balanced.plain
    {inside : List Token}
    (plain : ∀ token ∈ inside, isPlain token = true) :
    Balanced inside := by
  induction inside with
  | nil => exact Balanced.nil
  | cons token inside inductionHypothesis =>
      obtain ⟨head, tail⟩ := List.forall_mem_cons.mp plain
      exact Balanced.cons head (inductionHypothesis tail)

/-- A function and what stands up to its parenthesis. -/
theorem Balanced.function
    (name : String)
    {inside : List Token}
    (balanced : Balanced inside) :
    Balanced (.function name :: inside ++ [.rightParen]) := by
  intro depth rest
  rw [List.cons_append, List.cons_append, List.append_assoc, splitArgument?.eq_def]
  simp only [balanced (depth + 1), List.singleton_append, splitArgument?, Option.map_map]
  simp [Function.comp_def]

/-- The parenthesis behind balanced tokens closes them. -/
theorem Balanced.split
    {inside : List Token}
    (balanced : Balanced inside)
    (rest : List Token) :
    splitArgument? 0 (inside ++ .rightParen :: rest) = some (inside, rest) := by
  rw [balanced, splitArgument?]
  simp

end Balance

section Plain

/-- A namespace holds no parenthesis. -/
theorem isPlain_qualifierTokens
    (qualifier : Option String) :
    ∀ token ∈ qualifierTokens qualifier, isPlain token = true := by
  cases qualifier with
  | none => exact List.forall_mem_nil _
  | some qualifier =>
      rw [qualifierTokens]
      split
      · decide
      split
      · decide
      · exact List.forall_mem_cons.mpr ⟨rfl, List.forall_mem_singleton.mpr rfl⟩

/-- A name is no parenthesis. -/
theorem isPlain_nameToken
    (name : String) :
    isPlain (nameToken name) = true := by
  unfold nameToken
  split
  · rfl
  · rfl

/-- An attribute selector holds no parenthesis. -/
theorem isPlain_attributeTokens
    (test : AttributeTest) :
    ∀ token ∈ attributeTokens test, isPlain token = true := by
  have matcher : ∀ matcher, ∀ token ∈ matcherTokens matcher, isPlain token = true := by
    intro matcher
    rw [matcherTokens]
    cases matcher.mark? with
    | none => exact List.forall_mem_singleton.mpr rfl
    | some char => exact List.forall_mem_cons.mpr ⟨rfl, List.forall_mem_singleton.mpr rfl⟩
  have modifier : ∀ modifier, ∀ token ∈ modifierTokens modifier, isPlain token = true := by
    intro modifier
    cases modifier with
    | none => exact List.forall_mem_nil _
    | some modifier => exact List.forall_mem_cons.mpr ⟨rfl, List.forall_mem_singleton.mpr rfl⟩
  have condition : ∀ token ∈ conditionTokens test, isPlain token = true := by
    rw [conditionTokens]
    cases test.matcher with
    | none => exact List.forall_mem_nil _
    | some found =>
        exact List.forall_mem_append.mpr
          ⟨matcher found, List.forall_mem_cons.mpr ⟨rfl, modifier _⟩⟩
  rw [attributeTokens]
  exact List.forall_mem_append.mpr ⟨List.forall_mem_cons.mpr ⟨rfl, List.forall_mem_append.mpr
    ⟨isPlain_qualifierTokens _, List.forall_mem_cons.mpr ⟨rfl, condition⟩⟩⟩,
    List.forall_mem_singleton.mpr rfl⟩

end Plain

section Types

/-- The tokens that can stand behind a namespace. -/
def isNamed : Token → Bool
  | .ident _ => true
  | .delim char => char == '*'
  | _ => false

theorem isNamed_nameToken
    (name : String) :
    isNamed (nameToken name) = true := by
  unfold nameToken
  split
  · rfl
  · rfl

/-- A name behind a bar makes what stands before the bar a namespace. -/
theorem qualified?_of_isNamed
    {token : Token}
    (named : isNamed token = true)
    (qualifier : String)
    (rest : List Token) :
    qualified? qualifier (token :: rest) = .ok (some (qualifier, token :: rest)) := by
  unfold isNamed at named
  split at named
  · rfl
  · rw [beq_iff_eq.mp named]
    rfl
  · exact absurd named (by simp)

/-- No namespace is read where no bar follows. -/
theorem qualifier?_eq_none
    {token : Token}
    {rest : List Token}
    (notBar : token ≠ .delim '|')
    (noBar : ∀ others, rest = .delim '|' :: others → ∃ more, others = .delim '=' :: more) :
    qualifier? (token :: rest) = .ok none := by
  unfold qualifier?
  split
  · next shape =>
      obtain ⟨more, same⟩ := noBar _ (List.cons.inj shape).2
      rw [same]
      rfl
  · next shape =>
      obtain ⟨more, same⟩ := noBar _ (List.cons.inj shape).2
      rw [same]
      rfl
  · next shape => exact absurd (List.cons.inj shape).1 notBar
  · rfl

/-- A namespace is read back with its bar. -/
theorem qualifier?_qualifierTokens
    {token : Token}
    (named : isNamed token = true)
    (qualifier : String)
    (rest : List Token) :
    qualifier? (qualifierTokens (some qualifier) ++ token :: rest) =
      .ok (some (qualifier, token :: rest)) := by
  unfold qualifierTokens
  by_cases star : qualifier = "*"
  · subst star
    exact qualified?_of_isNamed named "*" rest
  · by_cases empty : qualifier = ""
    · subst empty
      exact qualified?_of_isNamed named "" rest
    · simp only [star, empty, if_false]
      exact qualified?_of_isNamed named qualifier rest

/-- A namespace is read back, and none where no bar follows that would make one. -/
theorem optionalQualifier_qualifierTokens
    {token : Token}
    (named : isNamed token = true)
    {qualifier : Option String}
    {rest : List Token}
    (noBar : qualifier = none →
      ∀ others, rest = .delim '|' :: others → ∃ more, others = .delim '=' :: more) :
    optionalQualifier (qualifierTokens qualifier ++ token :: rest) =
      .ok (qualifier, token :: rest) := by
  unfold optionalQualifier
  cases qualifier with
  | none =>
      have notBar : token ≠ .delim '|' := by
        intro same
        rw [same] at named
        exact absurd named (by decide)
      rw [qualifierTokens, List.nil_append, qualifier?_eq_none notBar (noBar rfl)]
  | some qualifier =>
      rw [qualifier?_qualifierTokens named]

/-- A node name is read back where no bar follows that would turn it into a namespace. -/
theorem typeSelector?_tokens
    {qualifier : Option String}
    (name : String)
    {rest : List Token}
    (noBar : qualifier = none → rest.head? ≠ some (.delim '|')) :
    typeSelector? (qualifierTokens qualifier ++ nameToken name :: rest) =
      .ok (some (.typeName name qualifier, rest)) := by
  have noNamespace : qualifier = none →
      ∀ others, rest = .delim '|' :: others → ∃ more, others = .delim '=' :: more := by
    intro none others same
    exact absurd (congrArg List.head? same) (noBar none)
  unfold typeSelector?
  rw [optionalQualifier_qualifierTokens (isNamed_nameToken name) noNamespace]
  unfold nameToken
  by_cases star : name = "*"
  · subst star
    rfl
  · rw [if_neg star]

end Types

section Attributes

/-- A matcher is read back from its tokens. -/
theorem attributeMatcher?_matcherTokens
    {matcher : AttributeMatcher}
    (named : AttributeMatcher.ofMark matcher.mark? = matcher)
    (notEquals : matcher.mark? ≠ some '=')
    (rest : List Token) :
    attributeMatcher? (matcherTokens matcher ++ rest) = some (matcher, rest) := by
  unfold matcherTokens
  cases mark : matcher.mark? with
  | none =>
      rw [mark] at named
      subst named
      rfl
  | some char =>
      rw [mark] at named notEquals
      have different : char ≠ '=' := fun same => notEquals (by rw [same])
      simp only [Option.toList_some, List.map_cons, List.map_nil, List.cons_append,
        List.nil_append]
      unfold attributeMatcher?
      split
      · next shape => exact absurd (Token.delim.inj (List.cons.inj shape).1) different
      · next shape =>
          obtain ⟨first, later⟩ := List.cons.inj shape
          cases first
          cases later
          rw [named]
      · next noMatcher => exact absurd rfl (noMatcher _ _)

/-- A flag is read back, or its absence, up to the closing bracket. -/
theorem optionalModifier_modifierTokens
    (modifier : Option CaseModifier)
    (rest : List Token) :
    optionalModifier (skipBlanks (modifierTokens modifier ++ .rightBracket :: rest)) =
      (modifier, .rightBracket :: rest) := by
  rcases modifier with none | modifier
  · rfl
  · have flag : caseModifier? (.ident (String.singleton modifier.char) :: .rightBracket :: rest) =
        some (modifier, .rightBracket :: rest) := by
      cases modifier with
      | insensitive =>
          have same : Text.eqIgnoringAsciiCase (String.singleton 'i') "i" = true := by
            simp [Text.eqIgnoringAsciiCase]
          simp only [caseModifier?, CaseModifier.char, same, if_true]
      | sensitive =>
          have different : Text.eqIgnoringAsciiCase (String.singleton 's') "i" = false := by
            simp [Text.eqIgnoringAsciiCase, Text.asciiLower, ← String.toList_inj]
          have same : Text.eqIgnoringAsciiCase (String.singleton 's') "s" = true := by
            simp [Text.eqIgnoringAsciiCase]
          simp only [caseModifier?, CaseModifier.char, different, same, if_true,
            Bool.false_eq_true, if_false]
    have noBlank : skipBlanks (modifierTokens (some modifier) ++ .rightBracket :: rest) =
        .ident (String.singleton modifier.char) :: .rightBracket :: rest := by
      rfl
    rw [noBlank, optionalModifier, flag]
    rfl

/-- The condition of an attribute is read back up to the closing bracket. -/
theorem attributeCondition_conditionTokens
    {test : AttributeTest}
    (fits : FitsAttribute test)
    (rest : List Token) :
    attributeCondition test.name test.qualifier (conditionTokens test ++ .rightBracket :: rest) =
      .ok (test, .rightBracket :: rest) := by
  obtain ⟨name, qualifier, matcher?, value?, modifier?⟩ := test
  cases matcher? with
  | none =>
      obtain ⟨noValue, noModifier⟩ := fits
      cases noValue
      cases noModifier
      rfl
  | some matcher =>
      obtain ⟨someValue, named, notEquals⟩ := fits
      obtain ⟨value, same⟩ := Option.ne_none_iff_exists'.mp someValue
      cases same
      have read := attributeMatcher?_matcherTokens named notEquals
        (.string value :: (modifierTokens modifier? ++ .rightBracket :: rest))
      have flag := optionalModifier_modifierTokens modifier? rest
      have noBlank : skipBlanks (.string value :: (modifierTokens modifier? ++
          .rightBracket :: rest)) =
          .string value :: (modifierTokens modifier? ++ .rightBracket :: rest) := by
        rfl
      simp only [conditionTokens, Option.getD_some, List.append_assoc, List.cons_append]
      simp only [attributeCondition, read, noBlank, attributeValue?, flag]

/-- No blanks stand in front of an attribute's name and namespace. -/
theorem skipBlanks_qualifierTokens
    (qualifier : Option String)
    (name : String)
    (rest : List Token) :
    skipBlanks (qualifierTokens qualifier ++ .ident name :: rest) =
      qualifierTokens qualifier ++ .ident name :: rest := by
  cases qualifier with
  | none => rfl
  | some qualifier =>
      rw [qualifierTokens]
      split
      · rfl
      split
      · rfl
      · rfl

/-- What stands behind the name of an attribute. -/
theorem conditionTokens_cases
    (test : AttributeTest)
    (rest : List Token) :
    conditionTokens test ++ .rightBracket :: rest = .rightBracket :: rest ∨
      (∃ more, conditionTokens test ++ .rightBracket :: rest = .delim '=' :: more) ∨
      ∃ char more, conditionTokens test ++ .rightBracket :: rest =
        .delim char :: .delim '=' :: more := by
  obtain ⟨name, qualifier, matcher?, value?, modifier?⟩ := test
  cases matcher? with
  | none => exact Or.inl rfl
  | some matcher =>
      right
      simp only [conditionTokens, matcherTokens]
      cases matcher.mark? with
      | none => exact Or.inl ⟨_, rfl⟩
      | some char => exact Or.inr ⟨char, _, rfl⟩

/-- Behind the name of an attribute a bar belongs to the matcher. -/
theorem conditionTokens_bar
    {test : AttributeTest}
    {rest others : List Token}
    (starts : conditionTokens test ++ .rightBracket :: rest = .delim '|' :: others) :
    ∃ more, others = .delim '=' :: more := by
  rcases conditionTokens_cases test rest with closed | ⟨more, equals⟩ | ⟨char, more, marked⟩
  · rw [closed] at starts
    cases starts
  · rw [equals] at starts
    cases starts
  · rw [marked] at starts
    cases starts
    exact ⟨more, rfl⟩

/-- An attribute selector is read back, without a notice. -/
theorem bracketed_attributeTokens
    {test : AttributeTest}
    (fits : FitsAttribute test)
    (rest : List Token) :
    bracketed (qualifierTokens test.qualifier ++ .ident test.name :: (conditionTokens test ++
      .rightBracket :: rest)) = .value (.attribute test, rest) := by
  have noBlanks : skipBlanks (conditionTokens test ++ .rightBracket :: rest) =
      conditionTokens test ++ .rightBracket :: rest := by
    rcases conditionTokens_cases test rest with
      closed | ⟨more, equals⟩ | ⟨char, more, marked⟩
    · rw [closed]
      rfl
    · rw [equals]
      rfl
    · rw [marked]
      rfl
  have read : attributeTest (qualifierTokens test.qualifier ++ .ident test.name ::
      (conditionTokens test ++ .rightBracket :: rest)) = .ok (test, .rightBracket :: rest) := by
    simp only [attributeTest, skipBlanks_qualifierTokens,
      optionalQualifier_qualifierTokens (show isNamed (.ident test.name) = true from rfl)
        (fun _ _ starts => conditionTokens_bar starts),
      noBlanks, attributeCondition_conditionTokens fits]
  rw [bracketed, read]

end Attributes

section Simple

variable (rules : ArgumentRules)

/-- A simple selector is read back from its tokens. -/
structure ReadsSimple (selector : Selector) : Prop where
  starts :
    ∃ first others, selector.tokens = first :: others ∧ startsSimple first = true ∧
      (first = .delim '|' → startsBar selector = true)
  balanced :
    Balanced selector.tokens
  read :
    ∀ rest, (takesBar selector = true → rest.head? ≠ some (.delim '|')) →
      simple? rules (parseTokens rules) (selector.tokens ++ rest) = .value (some (selector, rest))

/-- What a pseudo selector has in its parentheses is read back by the rule for its name. -/
structure ReadsInside (form : PseudoForm) (name : String) (argument : Argument)
    (inside : List Token) : Prop where
  tokens :
    argumentTokens name argument = .function name :: inside ++ [.rightParen]
  balanced :
    Balanced inside
  read :
    Parser.argument rules (parseTokens rules) form name inside = .value argument

variable {rules}

/-- A type selector is read back, with its namespace or without. -/
theorem readsSimple_typeName
    (name : String)
    (qualifier : Option String) :
    ReadsSimple rules (.typeName name qualifier) := by
  constructor
  · rw [tokens]
    cases qualifier with
    | none =>
        refine ⟨nameToken name, [], rfl, ?_, ?_⟩
        · unfold nameToken
          split
          · rfl
          · rfl
        · intro same
          have named := isNamed_nameToken name
          rw [same] at named
          exact absurd named (by decide)
    | some qualifier =>
        rw [qualifierTokens]
        split
        · exact ⟨_, _, rfl, rfl, fun same => absurd same (by decide)⟩
        split
        · next empty =>
            subst empty
            exact ⟨_, _, rfl, rfl, fun _ => rfl⟩
        · exact ⟨_, _, rfl, rfl, fun same => absurd same (by simp)⟩
  · rw [tokens]
    exact (Balanced.plain (isPlain_qualifierTokens qualifier)).append
      (Balanced.token (isPlain_nameToken name))
  · intro rest noBar
    have noNamespace : qualifier = none → rest.head? ≠ some (.delim '|') := by
      intro none
      subst none
      exact noBar rfl
    have read := typeSelector?_tokens name noNamespace
    rw [tokens, List.append_assoc, List.singleton_append]
    unfold simple?
    rw [read]

theorem readsSimple_identifier
    (name : String) :
    ReadsSimple rules (.identifier name) :=
  ⟨⟨_, _, rfl, rfl, fun same => absurd same (by simp)⟩, Balanced.token rfl, fun _ _ => rfl⟩

theorem readsSimple_className
    (name : String) :
    ReadsSimple rules (.className name) :=
  ⟨⟨_, _, rfl, rfl, fun same => absurd same (by decide)⟩,
    Balanced.cons rfl (Balanced.token rfl), fun _ _ => rfl⟩

/-- An attribute selector is read back from its brackets. -/
theorem readsSimple_attribute
    {test : AttributeTest}
    (fits : FitsAttribute test) :
    ReadsSimple rules (.attribute test) := by
  constructor
  · exact ⟨_, _, rfl, rfl, fun same => absurd same (by decide)⟩
  · rw [tokens]
    exact Balanced.plain (isPlain_attributeTokens test)
  · intro rest _
    have read := bracketed_attributeTokens fits rest
    have shape : tokens (.attribute test) ++ rest = .leftBracket ::
        (qualifierTokens test.qualifier ++ .ident test.name :: (conditionTokens test ++
          .rightBracket :: rest)) := by
      simp [tokens, attributeTokens]
    generalize qualifierTokens test.qualifier ++ .ident test.name :: (conditionTokens test ++
      .rightBracket :: rest) = inside at read shape
    have noType : typeSelector? (.leftBracket :: inside) = .ok none := by
      rfl
    rw [shape, simple?, noType]
    simp only [read, Reading.bind_eq_andThen, Reading.value_andThen, Reading.pure_eq_value]

/-- A pseudo selector without parentheses is read back as such. -/
theorem readsSimple_absent
    (form : PseudoForm)
    (name : String) :
    ReadsSimple rules (.pseudo form name .absent) := by
  cases form with
  | pseudoClass =>
      exact ⟨⟨_, _, rfl, rfl, fun same => absurd same (by decide)⟩,
        Balanced.cons rfl (Balanced.token rfl), fun _ _ => rfl⟩
  | pseudoElement =>
      exact ⟨⟨_, _, rfl, rfl, fun same => absurd same (by decide)⟩,
        Balanced.cons rfl (Balanced.cons rfl (Balanced.token rfl)), fun _ _ => rfl⟩

/-- A pseudo selector is read back if its argument is. -/
theorem readsSimple_function
    {form : PseudoForm}
    {name : String}
    {argument : Argument}
    {inside : List Token}
    (reads : ReadsInside rules form name argument inside) :
    ReadsSimple rules (.pseudo form name argument) := by
  have shape : tokens (.pseudo form name argument) =
      colonTokens form ++ (.function name :: inside ++ [.rightParen]) := by
    rw [tokens, reads.tokens]
  have colons : Balanced (colonTokens form) := by
    cases form with
    | pseudoClass => exact Balanced.token rfl
    | pseudoElement => exact Balanced.cons rfl (Balanced.token rfl)
  constructor
  · rw [shape]
    cases form <;> exact ⟨_, _, rfl, rfl, fun same => absurd same (by decide)⟩
  · rw [shape]
    exact colons.append (Balanced.function name reads.balanced)
  · intro rest _
    have split := reads.balanced.split rest
    have written : tokens (.pseudo form name argument) ++ rest =
        colonTokens form ++ .function name :: (inside ++ .rightParen :: rest) := by
      rw [shape]
      simp
    rw [written]
    generalize inside ++ .rightParen :: rest = behind at split
    have read : pseudo? rules (parseTokens rules)
        ((colonTokens form).tail ++ .function name :: behind) =
          .value (some (.pseudo form name argument, rest)) := by
      have named : pseudoName? ((colonTokens form).tail ++ .function name :: behind) =
          some (form, .function name, behind) := by
        cases form <;> rfl
      rw [pseudo?, named]
      simp only [split, reads.read, Reading.bind_eq_andThen, Reading.value_andThen,
        Reading.pure_eq_value]
    cases form <;> exact read

/-- A pseudo selector is read back with its argument or without one. -/
theorem readsSimple_pseudo
    {form : PseudoForm}
    {name : String}
    {argument : Argument}
    (reads : argument = .absent ∨ ∃ inside, ReadsInside rules form name argument inside) :
    ReadsSimple rules (.pseudo form name argument) := by
  rcases reads with absent | ⟨inside, reads⟩
  · subst absent
    exact readsSimple_absent form name
  · exact readsSimple_function reads

end Simple

end TreeSelectors.Selector
