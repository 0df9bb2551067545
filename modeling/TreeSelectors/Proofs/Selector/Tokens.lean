import TreeSelectors.Proofs.Token.Legibility
import TreeSelectors.Selector.ArgumentRules
import TreeSelectors.Selector.Parser
import TreeSelectors.Selector.Printer

namespace TreeSelectors.Selector

/-!
# The tokens of a selector

A selector is written as a row of tokens, one behind the other: `chars_eq`. A
list of selectors that fits a table of rules has the shape of what is read with
it: `FitsList`.
-/

open TreeSelectors.Text

/-- A namespace and its bar. -/
def qualifierTokens : Option String → List Token
  | none => []
  | some qualifier =>
      if qualifier = "*" then [.delim '*', .delim '|']
      else if qualifier = "" then [.delim '|']
      else [.ident qualifier, .delim '|']

/-- A node name or `*`. -/
def nameToken (name : String) : Token :=
  if name = "*" then .delim '*' else .ident name

/-- A matcher. -/
def matcherTokens (matcher : AttributeMatcher) : List Token :=
  matcher.mark?.toList.map .delim ++ [.delim '=']

/-- The flag at the end of an attribute selector. -/
def modifierTokens : Option CaseModifier → List Token
  | none => []
  | some modifier => [.whitespace, .ident (String.singleton modifier.char)]

/-- The matcher, value and flag of an attribute selector. -/
def conditionTokens (test : AttributeTest) : List Token :=
  match test.matcher with
  | none => []
  | some matcher =>
      matcherTokens matcher ++ .string (test.value.getD "") :: modifierTokens test.modifier

/-- An attribute selector. -/
def attributeTokens (test : AttributeTest) : List Token :=
  .leftBracket :: qualifierTokens test.qualifier ++ .ident test.name :: conditionTokens test ++
    [.rightBracket]

/-- A combinator and the blank behind it. -/
def combinatorTokens : Combinator → List Token
  | .descendant => []
  | combinator => [.delim combinator.char, .whitespace]

/-- The colons in front of a pseudo selector. -/
def colonTokens : PseudoForm → List Token
  | .pseudoClass => [.colon]
  | .pseudoElement => [.colon, .colon]

mutual

/-- The tokens that are written for a selector. -/
def tokens : Selector → List Token
  | .list members => listTokens members
  | .complex left combinator right =>
      tokens left ++ .whitespace :: combinatorTokens combinator ++ tokens right
  | .relative combinator right => combinatorTokens combinator ++ tokens right
  | .compound members => compoundTokens members
  | .typeName name qualifier => qualifierTokens qualifier ++ [nameToken name]
  | .identifier name => [.hash name (Token.hashKind name)]
  | .className name => [.delim '.', .ident name]
  | .attribute test => attributeTokens test
  | .pseudo form name argument => colonTokens form ++ argumentTokens name argument

/-- The name of a pseudo selector and the tokens of its argument. -/
def argumentTokens (name : String) : Argument → List Token
  | .absent => [.ident name]
  | .raw inside => .function name :: inside ++ [.rightParen]
  | .selectors members => .function name :: listTokens members ++ [.rightParen]
  | .anPlusB inside => .function name :: inside ++ [.rightParen]
  | .custom _ => [.function name, .rightParen]

/-- The tokens of the members of a compound. -/
def compoundTokens : List Selector → List Token
  | [] => []
  | member :: rest => tokens member ++ compoundTokens rest

/-- The tokens of the members of a list. -/
def listTokens : List Selector → List Token
  | [] => []
  | member :: rest => tokens member ++ furtherTokens rest

/-- The tokens of the members of a list behind the first. -/
def furtherTokens : List Selector → List Token
  | [] => []
  | member :: rest => .comma :: .whitespace :: tokens member ++ furtherTokens rest

end

/-- What a selector can be a part of. -/
inductive Layer where
  | simple
  | compound
  | chain
deriving DecidableEq

/-- A node name without a namespace, which a bar behind it would turn into one. -/
def takesBar : Selector → Bool
  | .typeName _ none => true
  | _ => false

/-- A node name that is written with nothing in front of its bar. -/
def startsBar : Selector → Bool
  | .typeName _ (some "") => true
  | _ => false

/-- No member of a compound takes the bar of the next one. -/
def KeepsBars : List Selector → Prop
  | first :: second :: rest =>
      ¬ (takesBar first = true ∧ startsBar second = true) ∧ KeepsBars (second :: rest)
  | _ => True

/-- An attribute selector as it can be read. -/
def FitsAttribute (test : AttributeTest) : Prop :=
  match test.matcher with
  | none => test.value = none ∧ test.modifier = none
  | some matcher =>
      test.value ≠ none ∧ AttributeMatcher.ofMark matcher.mark? = matcher ∧
        matcher.mark? ≠ some '='

/-- Tokens in which every parenthesis is closed. -/
def Balanced (inside : List Token) : Prop :=
  ∀ depth rest, Parser.splitArgument? depth (inside ++ rest) =
    (Parser.splitArgument? depth rest).map fun found => (inside ++ found.1, found.2)

mutual

/-- A selector has the shape of what is read with a table of rules. -/
def Fits (rules : ArgumentRules) : Layer → Selector → Prop
  | .chain, .complex left _ right => Fits rules .chain left ∧ Fits rules .compound right
  | .chain, .relative combinator right => combinator ≠ .descendant ∧ Fits rules .compound right
  | .simple, .compound _ => False
  | _, .compound members => 2 ≤ members.length ∧ FitsEach rules members ∧ KeepsBars members
  | _, .typeName _ _ => True
  | _, .identifier _ => True
  | _, .className _ => True
  | _, .attribute test => FitsAttribute test
  | _, .pseudo form name argument =>
      FitsArgument rules (rules.get? (Parser.ruleKey form name)) argument
  | _, _ => False

/-- An argument has the shape of what is read by a rule, if there is one. -/
def FitsArgument (rules : ArgumentRules) : Option ArgumentRule → Argument → Prop
  | _, .absent => True
  | none, .raw inside => Balanced inside
  | some .raw, .raw inside => Balanced inside
  | some .selectorList, .selectors members => FitsList rules members
  | some .anPlusB, .anPlusB inside => Balanced inside
  | _, _ => False

/-- Simple selectors as they are read. -/
def FitsEach (rules : ArgumentRules) : List Selector → Prop
  | [] => True
  | member :: rest => Fits rules .simple member ∧ FitsEach rules rest

/-- Members of a list as they are read. -/
def FitsList (rules : ArgumentRules) : List Selector → Prop
  | [] => True
  | member :: rest => Fits rules .chain member ∧ FitsList rules rest

end

section Layers

variable {rules : ArgumentRules} {layer : Layer} {combinator : Combinator} {left right : Selector}
  {members : List Selector}

/-- A list as a node is read from no tokens: lists stand in arguments only. -/
theorem not_fits_list :
    ¬ Fits rules layer (.list members) := by
  cases layer <;> exact id

/--
A complex selector fits where chains do, with a chain on its left and a compound on its right.
-/
theorem fits_complex_iff :
    Fits rules layer (.complex left combinator right) ↔
      layer = .chain ∧ Fits rules .chain left ∧ Fits rules .compound right := by
  cases layer <;> simp [Fits]

/-- A relative selector fits where chains do, if its combinator is written out. -/
theorem fits_relative_iff :
    Fits rules layer (.relative combinator right) ↔
      layer = .chain ∧ combinator ≠ .descendant ∧ Fits rules .compound right := by
  cases layer <;> simp [Fits]

/-- A compound has two members or more, and no bar comes between them. -/
theorem fits_compound_iff :
    Fits rules layer (.compound members) ↔
      layer ≠ .simple ∧ 2 ≤ members.length ∧
        FitsEach rules members ∧ KeepsBars members := by
  cases layer <;> simp [Fits]

theorem fits_attribute_iff
    {test : AttributeTest} :
    Fits rules layer (.attribute test) ↔ FitsAttribute test := by
  cases layer <;> exact Iff.rfl

theorem fits_pseudo_iff
    {form : PseudoForm}
    {name : String}
    {argument : Argument} :
    Fits rules layer (.pseudo form name argument) ↔
      FitsArgument rules (rules.get? (Parser.ruleKey form name)) argument := by
  cases layer <;> exact Iff.rfl

end Layers

/-! Every part of a selector is written as its tokens are. -/

/-- A namespace is written as its tokens are. -/
theorem qualifierChars_eq
    (qualifier : Option String) :
    qualifierChars qualifier = Token.listChars (qualifierTokens qualifier) := by
  cases qualifier with
  | none => rfl
  | some name =>
      by_cases star : name = "*"
      · subst star
        rfl
      · by_cases empty : name = ""
        · subst empty
          rfl
        · simp [qualifierChars, qualifierTokens, star, empty, Token.chars]

/-- A node name or `*` is written as its token is. -/
theorem typeNameChars_eq
    (name : String) :
    typeNameChars name = (nameToken name).chars := by
  unfold typeNameChars nameToken
  split
  · rfl
  · rfl

/-- A matcher is written as its tokens are. -/
theorem matcherChars_eq
    (matcher : AttributeMatcher) :
    matcher.chars = Token.listChars (matcherTokens matcher) := by
  unfold AttributeMatcher.chars matcherTokens
  cases matcher.mark? <;> rfl

/-- A flag is written with the blank in front of it. -/
theorem modifierChars_eq
    (modifier : Option CaseModifier) :
    modifierChars modifier = Token.listChars (modifierTokens modifier) := by
  rcases modifier with none | (insensitive | sensitive) <;> rfl

/-- The condition of an attribute is written as its tokens are. -/
theorem conditionChars_eq
    (test : AttributeTest) :
    conditionChars test = Token.listChars (conditionTokens test) := by
  unfold conditionChars conditionTokens
  cases test.matcher with
  | none => rfl
  | some matcher =>
      simp [matcherChars_eq, modifierChars_eq, Token.chars]

/-- An attribute selector is written as its tokens are, brackets included. -/
theorem attributeChars_eq
    (test : AttributeTest) :
    attributeChars test = Token.listChars (attributeTokens test) := by
  simp [attributeChars, attributeTokens, qualifierChars_eq, conditionChars_eq, Token.chars]

/-- A combinator is written with the blanks that its tokens have. -/
theorem combinatorChars_eq
    (combinator : Combinator) :
    combinatorChars combinator = Token.listChars (combinatorTokens combinator) := by
  cases combinator <;> rfl

theorem colons_eq
    (form : PseudoForm) :
    form.colons = Token.listChars (colonTokens form) := by
  cases form <;> rfl

variable {rules : ArgumentRules}

/-- Selectors are an argument only where the rule asks for them. -/
theorem fitsArgument_selectors
    {rule : Option ArgumentRule}
    {members : List Selector}
    (fits : FitsArgument rules rule (.selectors members)) :
    rule = some .selectorList ∧ FitsList rules members := by
  rcases rule with none | (raw | selectorList | anPlusB | custom)
  · exact fits.elim
  · exact fits.elim
  · exact ⟨rfl, fits⟩
  · exact fits.elim
  · exact fits.elim

/-- No rule of a table makes a custom node that its tokens give back. -/
theorem not_fitsArgument_custom
    {rule : Option ArgumentRule}
    {node : CustomNode} :
    ¬ FitsArgument rules rule (.custom node) := by
  rcases rule with none | (raw | selectorList | anPlusB | custom) <;> exact id

mutual

/-- A selector that fits is written as its tokens are, whatever printer there is. -/
theorem chars_eq
    (printer : CustomPrinter) :
    (selector : Selector) → {layer : Layer} → Fits rules layer selector →
      chars printer selector = .ok (Token.listChars selector.tokens)
  | .list members, _, fits => (not_fits_list fits).elim
  | .complex left combinator right, _, fits => by
      obtain ⟨_, fitsLeft, fitsRight⟩ := fits_complex_iff.mp fits
      simp [chars, chars_eq printer left fitsLeft, chars_eq printer right fitsRight, tokens,
        combinatorChars_eq, Token.chars, bind, Except.bind, pure, Except.pure]
  | .relative combinator right, _, fits => by
      obtain ⟨_, _, fitsRight⟩ := fits_relative_iff.mp fits
      simp [chars, chars_eq printer right fitsRight, tokens, combinatorChars_eq, bind,
        Except.bind, pure, Except.pure]
  | .compound members, _, fits => by
      obtain ⟨_, _, each, _⟩ := fits_compound_iff.mp fits
      rw [chars, tokens, compoundChars_eq printer members each]
  | .typeName name qualifier, _, _ => by
      simp [chars, tokens, qualifierChars_eq, typeNameChars_eq, pure, Except.pure]
  | .identifier name, _, _ => by
      simp [chars, tokens, Token.chars, pure, Except.pure]
  | .className name, _, _ => by
      simp [chars, tokens, Token.chars, pure, Except.pure]
  | .attribute test, _, _ => by
      simp [chars, tokens, attributeChars_eq, pure, Except.pure]
  | .pseudo form name argument, _, fits => by
      have behind := argumentChars_eq printer name argument (fits_pseudo_iff.mp fits)
      rw [chars, tokens, Token.listChars_append, ← colons_eq]
      cases written : argumentChars printer argument with
      | error error => simp [written, Except.map] at behind
      | ok inside =>
          simp only [written, Except.map, Except.ok.injEq] at behind
          simp [← behind, bind, Except.bind, pure, Except.pure]

/-- An argument that fits is written between its parentheses as its tokens are. -/
theorem argumentChars_eq
    (printer : CustomPrinter)
    (name : String) :
    (argument : Argument) → {rule : Option ArgumentRule} → FitsArgument rules rule argument →
      (argumentChars printer argument).map (escapeIdentChars name.toList ++ ·) =
        .ok (Token.listChars (argumentTokens name argument))
  | .absent, _, _ => by
      simp [argumentChars, argumentTokens, Token.chars, pure, Except.pure, Except.map]
  | .raw inside, _, _ => by
      simp [argumentChars, argumentTokens, Token.chars, pure, Except.pure, Except.map]
  | .selectors members, rule, fits => by
      have inside := listChars_eq printer members (fitsArgument_selectors fits).2
      simp [argumentChars, argumentTokens, inside, Token.chars, bind, Except.bind, pure,
        Except.pure, Except.map]
  | .anPlusB inside, _, _ => by
      simp [argumentChars, argumentTokens, Token.chars, pure, Except.pure, Except.map]
  | .custom node, rule, fits => (not_fitsArgument_custom fits).elim

/-- The members of a compound are written one behind the other. -/
theorem compoundChars_eq
    (printer : CustomPrinter) :
    (members : List Selector) → FitsEach rules members →
      compoundChars printer members = .ok (Token.listChars (compoundTokens members))
  | [], _ => rfl
  | member :: rest, fits => by
      simp [compoundChars, compoundTokens, chars_eq printer member fits.1,
        compoundChars_eq printer rest fits.2, bind, Except.bind, pure, Except.pure]

/-- A list is written with a comma and a blank between its members. -/
theorem listChars_eq
    (printer : CustomPrinter) :
    (members : List Selector) → FitsList rules members →
      listChars printer members = .ok (Token.listChars (listTokens members))
  | [], _ => rfl
  | member :: rest, fits => by
      simp [listChars, listTokens, chars_eq printer member fits.1,
        furtherChars_eq printer rest fits.2, bind, Except.bind, pure, Except.pure]

/-- The members behind the first are written with a comma in front of each. -/
theorem furtherChars_eq
    (printer : CustomPrinter) :
    (members : List Selector) → FitsList rules members →
      furtherChars printer members = .ok (Token.listChars (furtherTokens members))
  | [], _ => rfl
  | member :: rest, fits => by
      simp [furtherChars, furtherTokens, chars_eq printer member fits.1,
        furtherChars_eq printer rest fits.2, Token.chars, bind, Except.bind, pure, Except.pure]

end

end TreeSelectors.Selector
