import Mathlib
import TreeSelectors.Proofs.Selector.RoundTrip

namespace TreeSelectors.Selector

/-!
# Regular selectors

Selectors whose names are not empty and hold no white space, and whose
arguments are selector lists, are read back from what is written for them:
`parse_listText_of_regular`. Going through the tree, what is written for every
part of such a selector is legible in front of whatever bounds it.
-/

open TreeSelectors.Text
open TreeSelectors.Lexer
open TreeSelectors.Parser
open TreeSelectors.Token

/-- A name that is not empty and holds neither NUL nor white space. -/
def IsName (name : String) : Prop :=
  name ≠ "" ∧ ∀ char ∈ name.toList, char ≠ '\x00' ∧ isWhiteSpace char = false

/-- No namespace, the empty one, or a name. -/
def IsQualifier : Option String → Prop
  | none => True
  | some qualifier => qualifier = "" ∨ IsName qualifier

/-- The matchers that have a name. -/
def namedMatchers : List AttributeMatcher :=
  [.equals, .includes, .dashMatch, .startsWith, .endsWith, .contains]

/-- An attribute asked for, or compared with a value without line breaks and NUL. -/
def RegularAttribute (test : AttributeTest) : Prop :=
  IsName test.name ∧ IsQualifier test.qualifier ∧
    match test.matcher with
    | none => test.value = none ∧ test.modifier = none
    | some matcher => matcher ∈ namedMatchers ∧
        ∃ value, test.value = some value ∧
          ∀ char ∈ value.toList,
            char ≠ '\n' ∧ char ≠ '\r' ∧ char ≠ '\x0C' ∧ char ≠ '\x00'

/-- Whether a selector asks for a node name. -/
def isTypeName : Selector → Bool
  | .typeName _ _ => true
  | _ => false

mutual

/-- Chains of compounds of simple selectors with regular names and arguments. -/
def Regular : Layer → Selector → Prop
  | .chain, .complex left _ right => Regular .chain left ∧ Regular .compound right
  | .chain, .relative combinator right => combinator ≠ .descendant ∧ Regular .compound right
  | .simple, .compound _ => False
  | _, .compound members =>
      2 ≤ members.length ∧ RegularEach members ∧
        ∀ member ∈ members.tail, isTypeName member = false
  | _, .typeName name qualifier => IsName name ∧ IsQualifier qualifier
  | _, .identifier name => IsName name
  | _, .className name => IsName name
  | _, .attribute test => RegularAttribute test
  | _, .pseudo form name argument => IsName name ∧ RegularArgument form name argument
  | _, _ => False

/-- No argument, or a selector list where the default rules ask for one. -/
def RegularArgument (form : PseudoForm) (name : String) : Argument → Prop
  | .absent => True
  | .selectors members =>
      form = .pseudoClass ∧
        ArgumentRules.standard.get? (ruleKey .pseudoClass name) = some .selectorList ∧
        RegularList members
  | _ => False

/-- Regular simple selectors. -/
def RegularEach : List Selector → Prop
  | [] => True
  | member :: rest => Regular .simple member ∧ RegularEach rest

/-- A list of regular chains. -/
def RegularList : List Selector → Prop
  | [] => True
  | member :: rest => Regular .chain member ∧ RegularList rest

end

section Layers

variable {layer : Layer} {combinator : Combinator} {left right : Selector}
  {members : List Selector} {name : String}

/-- A list as a node is nowhere regular: lists stand in arguments only. -/
theorem not_regular_list :
    ¬ Regular layer (.list members) := by
  cases layer <;> exact id

/-- A complex selector is regular if it adds a regular compound to a regular chain. -/
theorem regular_complex_iff :
    Regular layer (.complex left combinator right) ↔
      layer = .chain ∧ Regular .chain left ∧ Regular .compound right := by
  cases layer <;> simp [Regular]

/-- A relative selector is regular if its combinator is written out and what follows is regular. -/
theorem regular_relative_iff :
    Regular layer (.relative combinator right) ↔
      layer = .chain ∧ combinator ≠ .descendant ∧ Regular .compound right := by
  cases layer <;> simp [Regular]

/-- A compound has two parts or more, and a node name is only ever the first of them. -/
theorem regular_compound_iff :
    Regular layer (.compound members) ↔
      layer ≠ .simple ∧ 2 ≤ members.length ∧ RegularEach members ∧
        ∀ member ∈ members.tail, isTypeName member = false := by
  cases layer <;> simp [Regular]

theorem regular_typeName_iff
    {qualifier : Option String} :
    Regular layer (.typeName name qualifier) ↔ IsName name ∧ IsQualifier qualifier := by
  cases layer <;> exact Iff.rfl

theorem regular_identifier_iff :
    Regular layer (.identifier name) ↔ IsName name := by
  cases layer <;> exact Iff.rfl

theorem regular_className_iff :
    Regular layer (.className name) ↔ IsName name := by
  cases layer <;> exact Iff.rfl

theorem regular_attribute_iff
    {test : AttributeTest} :
    Regular layer (.attribute test) ↔ RegularAttribute test := by
  cases layer <;> exact Iff.rfl

theorem regular_pseudo_iff
    {form : PseudoForm}
    {argument : Argument} :
    Regular layer (.pseudo form name argument) ↔
      IsName name ∧ RegularArgument form name argument := by
  cases layer <;> exact Iff.rfl

end Layers

section Fitting

/-- Only a type selector is written with a bar at its start. -/
theorem isType_of_startsBar
    {selector : Selector}
    (starts : startsBar selector = true) :
    isTypeName selector = true := by
  cases selector with
  | typeName name qualifier => rfl
  | _ => exact absurd starts (by simp [startsBar])

/-- Where only the first member asks for a node name, no bar is taken. -/
theorem keepsBars_of_tail
    {members : List Selector}
    (noTypes : ∀ member ∈ members.tail, isTypeName member = false) :
    KeepsBars members := by
  induction members with
  | nil => trivial
  | cons first members inductionHypothesis =>
      cases members with
      | nil => trivial
      | cons second members =>
          obtain ⟨head, tail⟩ := List.forall_mem_cons.mp noTypes
          refine ⟨?_, inductionHypothesis tail⟩
          rintro ⟨_, starts⟩
          rw [isType_of_startsBar starts] at head
          exact absurd head (by simp)

/-- A regular attribute selector can be read back from its tokens. -/
theorem fitsAttribute_of_regular
    {test : AttributeTest}
    (regular : RegularAttribute test) :
    FitsAttribute test := by
  obtain ⟨name, qualifier, matcher?, value?, modifier?⟩ := test
  obtain ⟨_, _, condition⟩ := regular
  cases matcher? with
  | none => exact condition
  | some matcher =>
      obtain ⟨named, value, same, _⟩ := condition
      have marked : ∀ matcher ∈ namedMatchers,
          AttributeMatcher.ofMark matcher.mark? = matcher ∧ matcher.mark? ≠ some '=' := by
        decide
      exact ⟨by rw [same]; simp, marked matcher named⟩

mutual

/-- Regular selectors fit the default rules. -/
theorem fits_of_regular :
    (selector : Selector) → (layer : Layer) → Regular layer selector →
      Fits .standard layer selector
  | .list _, _, regular => (not_regular_list regular).elim
  | .complex left _ right, _, regular => by
      obtain ⟨isChain, regularLeft, regularRight⟩ := regular_complex_iff.mp regular
      exact fits_complex_iff.mpr ⟨isChain, fits_of_regular left .chain regularLeft,
        fits_of_regular right .compound regularRight⟩
  | .relative _ right, _, regular => by
      obtain ⟨isChain, isLink, regularRight⟩ := regular_relative_iff.mp regular
      exact fits_relative_iff.mpr
        ⟨isChain, isLink, fits_of_regular right .compound regularRight⟩
  | .compound members, _, regular => by
      obtain ⟨notSimple, several, each, noTypes⟩ := regular_compound_iff.mp regular
      exact fits_compound_iff.mpr ⟨notSimple, several, fitsEach_of_regular members each,
        keepsBars_of_tail noTypes⟩
  | .typeName _ _, _, _ => by
      simp [Fits]
  | .identifier _, _, _ => by
      simp [Fits]
  | .className _, _, _ => by
      simp [Fits]
  | .attribute _, _, regular =>
      fits_attribute_iff.mpr (fitsAttribute_of_regular (regular_attribute_iff.mp regular))
  | .pseudo _ _ argument, _, regular =>
      fits_pseudo_iff.mpr (fitsArgument_of_regular argument (regular_pseudo_iff.mp regular).2)

/-- A regular argument is one that the usual rules give back. -/
theorem fitsArgument_of_regular
    {form : PseudoForm}
    {name : String} :
    (argument : Argument) → RegularArgument form name argument →
      FitsArgument .standard (ArgumentRules.standard.get? (ruleKey form name)) argument
  | .absent, _ => by
      simp [FitsArgument]
  | .selectors members, regular => by
      obtain ⟨isClass, isList, list⟩ := regular
      subst isClass
      rw [isList]
      exact fitsList_of_regular members list
  | .raw _, regular => regular.elim
  | .anPlusB _, regular => regular.elim
  | .custom _, regular => regular.elim

/-- The parts of a regular compound fit, each for itself. -/
theorem fitsEach_of_regular :
    (members : List Selector) → RegularEach members → FitsEach .standard members
  | [], _ => trivial
  | member :: rest, regular =>
      ⟨fits_of_regular member .simple regular.1, fitsEach_of_regular rest regular.2⟩

/-- The members of a regular list fit, each as a chain. -/
theorem fitsList_of_regular :
    (members : List Selector) → RegularList members → FitsList .standard members
  | [], _ => trivial
  | member :: rest, regular =>
      ⟨fits_of_regular member .chain regular.1, fitsList_of_regular rest regular.2⟩

end

end Fitting

section Pieces

/-- The characters that can stand behind a part of a selector. -/
def boundaries : List Char :=
  [' ', ',', ')', '#', '.', '[', ':']

/-- The text goes on with none of the names in front of it. -/
def Bounded (text : List Char) : Prop :=
  ∀ char ∈ text.head?, char ∈ boundaries

/-- A token that is not blank and keeps no white space. -/
def Solid (token : Token) : Prop :=
  token ≠ .whitespace ∧ ∀ char ∈ token.content, isWhiteSpace char = false

/-- Tokens whose text is read back in front of whatever bounds it. -/
structure Readable (tokens : List Token) : Prop where
  wellFormed :
    AllWellFormed tokens
  legible :
    ∀ text, Bounded text → legibleBefore text tokens = true

/-- Tokens with nothing at their ends that is dropped from a text. -/
structure Edged (tokens : List Token) : Prop where
  starts :
    ∃ first others, tokens = first :: others ∧ Solid first
  ends :
    ∃ init last, tokens = init ++ [last] ∧ Solid last

/-- A name ends before a boundary, and no function starts there. -/
theorem standsApart_of_bounded
    {text : List Char}
    (bounded : Bounded text) :
    endsName text = true ∧ text.head? ≠ some '(' := by
  have stops : ∀ char ∈ boundaries,
      (!isNameChar char && char != '\\') = true ∧ char ≠ '(' := by
    decide
  cases text with
  | nil => exact ⟨rfl, by simp⟩
  | cons char text =>
      have stop := stops char (bounded char rfl)
      exact ⟨stop.1, by simpa using stop.2⟩

/-- A name token stays the token it is before a boundary. -/
theorem standsApart_ident
    (name : String)
    {text : List Char}
    (bounded : Bounded text) :
    (Token.ident name).standsApart text = true := by
  obtain ⟨ends, noParenthesis⟩ := standsApart_of_bounded bounded
  simp [standsApart, ends, noParenthesis]

/-- A name of a regular selector is a name that a token can have. -/
theorem IsName.wellFormed
    {name : String}
    (isName : IsName name) :
    name.toList ≠ [] ∧ Settled name.toList := by
  obtain ⟨nonempty, clean⟩ := isName
  refine ⟨by simpa using nonempty, fun char member => ?_⟩
  obtain ⟨notNull, notWhite⟩ := clean char member
  refine ⟨?_, ?_, ?_, notNull⟩ <;>
  · intro same
    rw [same] at notWhite
    exact absurd notWhite (by decide)

/-- A name holds no white space, so trimming takes nothing of it. -/
theorem IsName.solid
    {name : String}
    (isName : IsName name) :
    ∀ char ∈ name.toList, isWhiteSpace char = false :=
  fun char member => (isName.2 char member).2

/-- A text that starts with a boundary is bounded, whatever follows. -/
theorem bounded_cons
    {char : Char}
    (isBoundary : char ∈ boundaries)
    (text : List Char) :
    Bounded (char :: text) := by
  intro other same
  cases same
  exact isBoundary

namespace Readable

variable {token : Token} {tokens left right : List Token}

/-- No tokens are readable. -/
theorem nil :
    Readable [] :=
  ⟨List.forall_mem_nil _, fun _ _ => rfl⟩

/-- Tokens in front of others whose text bounds them. -/
theorem append
    (first : Readable left)
    (second : Readable right)
    (bounded : ∀ text, Bounded text → Bounded (Token.listChars right ++ text)) :
    Readable (left ++ right) := by
  refine ⟨List.forall_mem_append.mpr ⟨first.wellFormed, second.wellFormed⟩, ?_⟩
  intro text boundedText
  rw [legibleBefore_append, first.legible _ (bounded text boundedText),
    second.legible text boundedText]
  rfl

/-- A token that stands apart from what is written behind it. -/
theorem cons
    (wellFormed : token.WellFormed)
    (apart : ∀ text, Bounded text → token.standsApart (Token.listChars tokens ++ text) = true)
    (later : Readable tokens) :
    Readable (token :: tokens) := by
  refine ⟨List.forall_mem_cons.mpr ⟨wellFormed, later.wellFormed⟩, fun text bounded => ?_⟩
  rw [legibleBefore, apart text bounded, later.legible text bounded]
  rfl

/-- A token that stands apart from every boundary is readable alone. -/
theorem singleton
    (wellFormed : token.WellFormed)
    (apart : ∀ text, Bounded text → token.standsApart text = true) :
    Readable [token] :=
  cons wellFormed apart nil

/-- A blank in front of a token that is not one. -/
theorem whitespace
    (later : Readable (token :: tokens))
    (notBlank : token ≠ .whitespace) :
    Readable (.whitespace :: token :: tokens) := by
  refine cons trivial (fun text _ => ?_) later
  obtain ⟨char, chars, written, solid⟩ :=
    chars_eq_cons (later.wellFormed token List.mem_cons_self) notBlank
  rw [Token.listChars_cons, written]
  simp [standsApart, solid]

end Readable

namespace Edged

variable {token : Token} {tokens left right : List Token}

/-- Whatever stands between two edged rows is edged. -/
theorem append
    (first : Edged left)
    (second : Edged right)
    (middle : List Token) :
    Edged (left ++ middle ++ right) := by
  obtain ⟨token, others, startShape, solidStart⟩ := first.starts
  obtain ⟨init, last, endShape, solidEnd⟩ := second.ends
  exact ⟨⟨token, others ++ middle ++ right, by rw [startShape]; simp, solidStart⟩,
    ⟨left ++ middle ++ init, last, by rw [endShape]; simp, solidEnd⟩⟩

/-- Solid tokens at both ends are enough, whatever stands between them. -/
theorem between
    {first last : Token}
    (solidStart : Solid first)
    (solidEnd : Solid last)
    (middle : List Token) :
    Edged (first :: middle ++ [last]) :=
  ⟨⟨first, middle ++ [last], rfl, solidStart⟩, ⟨first :: middle, last, rfl, solidEnd⟩⟩

/-- A solid token is an edge on both sides. -/
theorem singleton
    (solid : Solid token) :
    Edged [token] :=
  ⟨⟨token, [], rfl, solid⟩, ⟨[], token, rfl, solid⟩⟩

end Edged

/-- The delimiters that are read alone whatever stands behind them. -/
theorem delimStandsApart_of_mem
    {char : Char}
    (isPlain : char ∈ ['*', '|', '=', '~', '^', '$', '>'])
    (text : List Char) :
    delimStandsApart char text = true := by
  simp only [List.mem_cons, List.not_mem_nil, or_false] at isPlain
  rcases isPlain with same | same | same | same | same | same | same <;>
  · subst same
    rfl

/-- The marks of regular selectors are delimiters that trimming leaves. -/
theorem delim_of_mem
    {char : Char}
    (isPlain : char ∈ ['*', '|', '=', '~', '^', '$', '>']) :
    (Token.delim char).WellFormed ∧ Solid (.delim char) := by
  simp only [List.mem_cons, List.not_mem_nil, or_false] at isPlain
  rcases isPlain with same | same | same | same | same | same | same <;>
  · subst same
    exact ⟨⟨by decide, by decide⟩, by simp, by decide⟩

/-- A mark can be put in front of readable tokens. -/
theorem readable_delim
    {char : Char}
    (isPlain : char ∈ ['*', '|', '=', '~', '^', '$', '>'])
    {tokens : List Token}
    (later : Readable tokens) :
    Readable (.delim char :: tokens) :=
  Readable.cons (delim_of_mem isPlain).1 (fun _ _ => delimStandsApart_of_mem isPlain _) later

/-- A name is readable alone. -/
theorem readable_ident
    {name : String}
    (isName : IsName name) :
    Readable [.ident name] :=
  Readable.singleton isName.wellFormed fun _ bounded => standsApart_ident name bounded

/-- A namespace and its bar in front of what they belong to. -/
theorem readable_qualifierTokens
    {qualifier : Option String}
    (isQualifier : IsQualifier qualifier)
    {tokens : List Token}
    (later : Readable tokens) :
    Readable (qualifierTokens qualifier ++ tokens) := by
  have bar : Readable (.delim '|' :: tokens) := readable_delim (by decide) later
  cases qualifier with
  | none => exact later
  | some qualifier =>
      rw [qualifierTokens]
      split
      · exact readable_delim (by decide) bar
      split
      · exact bar
      · next notEmpty =>
          have isName := isQualifier.resolve_left notEmpty
          exact Readable.cons isName.wellFormed (fun _ _ => rfl) bar

/-- A namespace, its bar and a solid token start with a solid one. -/
theorem solid_qualifierTokens
    {qualifier : Option String}
    (isQualifier : IsQualifier qualifier)
    {token : Token}
    (solid : Solid token) :
    ∃ first others, qualifierTokens qualifier ++ [token] = first :: others ∧ Solid first := by
  cases qualifier with
  | none => exact ⟨token, [], rfl, solid⟩
  | some qualifier =>
      rw [qualifierTokens]
      split
      · exact ⟨_, _, rfl, (delim_of_mem (by decide)).2⟩
      split
      · exact ⟨_, _, rfl, (delim_of_mem (by decide)).2⟩
      · next notEmpty =>
          exact ⟨_, _, rfl, by simp, (isQualifier.resolve_left notEmpty).solid⟩

/-- An identifier behind its mark is readable and solid. -/
theorem readable_nameToken
    {name : String}
    (isName : IsName name) :
    Readable [nameToken name] ∧ Solid (nameToken name) := by
  unfold nameToken
  split
  · exact ⟨readable_delim (by decide) Readable.nil, (delim_of_mem (by decide)).2⟩
  · exact ⟨readable_ident isName, by simp, isName.solid⟩

/-- The matcher, value and flag of an attribute in front of its bracket. -/
theorem readable_conditionTokens
    {test : AttributeTest}
    (regular : RegularAttribute test) :
    Readable (conditionTokens test ++ [.rightBracket]) ∧
      ∀ name text, (Token.ident name).standsApart
        (Token.listChars (conditionTokens test ++ [.rightBracket]) ++ text) = true := by
  obtain ⟨name, qualifier, matcher?, value?, modifier?⟩ := test
  obtain ⟨_, _, condition⟩ := regular
  have closing : Readable [.rightBracket] := Readable.singleton trivial fun _ _ => rfl
  cases matcher? with
  | none => exact ⟨closing, fun _ _ => rfl⟩
  | some matcher =>
      obtain ⟨named, value, same, clean⟩ := condition
      cases same
      have flagged : Readable (modifierTokens modifier? ++ [.rightBracket]) := by
        rcases modifier? with none | modifier
        · exact closing
        · have flag : (Token.ident (String.singleton modifier.char)).WellFormed := by
            cases modifier <;> exact ⟨by decide, by decide⟩
          exact Readable.whitespace (Readable.cons flag (fun _ _ => rfl) closing) (by simp)
      have quoted : Readable (.string value :: (modifierTokens modifier? ++ [.rightBracket])) :=
        Readable.cons clean (fun _ _ => rfl) flagged
      have equals : Readable (.delim '=' :: .string value ::
          (modifierTokens modifier? ++ [.rightBracket])) :=
        readable_delim (by decide) quoted
      simp only [namedMatchers, List.mem_cons, List.not_mem_nil, or_false] at named
      simp only [conditionTokens, Option.getD_some, List.append_assoc, List.cons_append]
      rcases named with same | same | same | same | same | same
      · subst same
        exact ⟨equals, fun _ _ => rfl⟩
      all_goals
        subst same
        exact ⟨readable_delim (by decide) equals, fun _ _ => rfl⟩

/-- What is written for one part of a selector. -/
structure Written (tokens : List Token) : Prop where
  readable :
    Readable tokens
  edged :
    Edged tokens

/-- A blank in front of what is written for a part. -/
theorem Written.blank
    {tokens : List Token}
    (written : Written tokens) :
    Readable (.whitespace :: tokens) := by
  obtain ⟨first, others, shape, solid⟩ := written.edged.starts
  have readable := written.readable
  rw [shape] at readable ⊢
  exact readable.whitespace solid.1

/-- A simple selector, which bounds what stands in front of it unless it asks for a node name. -/
structure WrittenSimple (selector : Selector) : Prop where
  written :
    Written selector.tokens
  bounds :
    isTypeName selector = false → ∀ text, Bounded (Token.listChars selector.tokens ++ text)

/-- A type selector is written with or without its namespace. -/
theorem writtenSimple_typeName
    {name : String}
    {qualifier : Option String}
    (isName : IsName name)
    (isQualifier : IsQualifier qualifier) :
    WrittenSimple (.typeName name qualifier) := by
  obtain ⟨readable, solid⟩ := readable_nameToken isName
  exact ⟨⟨readable_qualifierTokens isQualifier readable,
    solid_qualifierTokens isQualifier solid, ⟨qualifierTokens qualifier, _, rfl, solid⟩⟩,
    by simp [isTypeName]⟩

theorem writtenSimple_identifier
    {name : String}
    (isName : IsName name) :
    WrittenSimple (.identifier name) := by
  refine ⟨⟨Readable.singleton isName.wellFormed fun text bounded => ?_,
    Edged.singleton ⟨by simp, isName.solid⟩⟩, fun _ text => bounded_cons (by decide) _⟩
  simp [standsApart, (standsApart_of_bounded bounded).1]

theorem writtenSimple_className
    {name : String}
    (isName : IsName name) :
    WrittenSimple (.className name) := by
  have solid : Solid (.ident name) := ⟨by simp, isName.solid⟩
  refine ⟨⟨Readable.cons ⟨by decide, by decide⟩ (fun text _ => ?_) (readable_ident isName),
    Edged.between ⟨by simp, by decide⟩ solid []⟩, fun _ text => bounded_cons (by decide) _⟩
  have noNumber := startsNumber_escapeIdentChars isName.wellFormed.1 text
  have noDigit : startsDigit (Text.escapeIdentChars name.toList ++ text) = false := by
    generalize Text.escapeIdentChars name.toList ++ text = written at noNumber
    cases written with
    | nil => rfl
    | cons first others =>
        rw [Bool.eq_false_iff]
        intro digit
        rw [startsNumber_of_isDigit digit] at noNumber
        exact absurd noNumber (by simp)
  have apart : startsNumber ('.' :: (Text.escapeIdentChars name.toList ++ text)) = false := noDigit
  have noIdent : startsIdent ('.' :: (Text.escapeIdentChars name.toList ++ text)) = false := rfl
  simp [standsApart, delimStandsApart, Token.chars, apart, noIdent]

/-- An attribute selector is written up to the bracket that closes it. -/
theorem writtenSimple_attribute
    {test : AttributeTest}
    (regular : RegularAttribute test) :
    WrittenSimple (.attribute test) := by
  obtain ⟨condition, apart⟩ := readable_conditionTokens regular
  have named : Readable (.ident test.name :: (conditionTokens test ++ [.rightBracket])) :=
    Readable.cons regular.1.wellFormed (fun text _ => apart test.name text) condition
  have inside := readable_qualifierTokens regular.2.1 named
  have opened : Readable (.leftBracket :: (qualifierTokens test.qualifier ++
      .ident test.name :: (conditionTokens test ++ [.rightBracket]))) :=
    Readable.cons trivial (fun _ _ => rfl) inside
  have shape : tokens (.attribute test) = .leftBracket :: (qualifierTokens test.qualifier ++
      .ident test.name :: (conditionTokens test ++ [.rightBracket])) := by
    simp [tokens, attributeTokens]
  refine ⟨⟨by rw [shape]; exact opened, ?_⟩, fun _ text => ?_⟩
  · exact Edged.between ⟨by simp, by simp [content]⟩ ⟨by simp, by simp [content]⟩
      (qualifierTokens test.qualifier ++ .ident test.name :: conditionTokens test)
  · rw [shape]
    exact bounded_cons (by decide) _

/-- Colons can be put in front of readable tokens. -/
theorem readable_colonTokens
    (form : PseudoForm)
    {tokens : List Token}
    (later : Readable tokens) :
    Readable (colonTokens form ++ tokens) := by
  have one : Readable (.colon :: tokens) := Readable.cons trivial (fun _ _ => rfl) later
  cases form with
  | pseudoClass => exact one
  | pseudoElement => exact Readable.cons trivial (fun _ _ => rfl) one

/-- A pseudo selector whose name and argument are read back. -/
theorem writtenSimple_pseudo
    (form : PseudoForm)
    {name : String}
    {argument : Argument}
    {init : List Token}
    {last : Token}
    (readable : Readable (argumentTokens name argument))
    (shape : argumentTokens name argument = init ++ [last])
    (solid : Solid last) :
    WrittenSimple (.pseudo form name argument) := by
  obtain ⟨others, colons⟩ : ∃ others, colonTokens form = .colon :: others := by
    cases form with
    | pseudoClass => exact ⟨[], rfl⟩
    | pseudoElement => exact ⟨[.colon], rfl⟩
  have first : Solid .colon := ⟨by simp, by simp [content]⟩
  have written : tokens (.pseudo form name argument) = .colon :: (others ++ init) ++ [last] := by
    rw [tokens, shape, colons]
    simp
  refine ⟨⟨readable_colonTokens form readable, ?_⟩, fun _ text => ?_⟩
  · rw [written]
    exact Edged.between first solid _
  · rw [written]
    exact bounded_cons (by decide) _

end Pieces

section Joints

/-- The tokens of a list, which may be none. -/
structure WrittenList (members : List Selector) : Prop where
  readable :
    Readable (listTokens members)
  edged :
    members ≠ [] → Edged (listTokens members)

/-- A combinator and its blanks can be put in front of what it leads to. -/
theorem readable_combinatorTokens
    {combinator : Combinator}
    {tokens : List Token}
    (isLink : combinator ≠ .descendant)
    (written : Written tokens) :
    Readable (combinatorTokens combinator ++ tokens) := by
  cases combinator with
  | descendant => exact absurd rfl isLink
  | child => exact Readable.cons ⟨by decide, by decide⟩ (fun _ _ => rfl) written.blank
  | nextSibling => exact Readable.cons ⟨by decide, by decide⟩ (fun _ _ => rfl) written.blank
  | subsequentSibling =>
      exact Readable.cons ⟨by decide, by decide⟩ (fun _ _ => rfl) written.blank

/-- A chain and the link in front of its last compound. -/
theorem written_complex
    {left right : List Token}
    {combinator : Combinator}
    (first : Written left)
    (second : Written right) :
    Written (left ++ .whitespace :: combinatorTokens combinator ++ right) := by
  have linked : combinator ≠ .descendant → Readable (combinatorTokens combinator ++ right) :=
    fun isLink => readable_combinatorTokens isLink second
  have link : Readable (.whitespace :: (combinatorTokens combinator ++ right)) := by
    cases combinator with
    | descendant => exact second.blank
    | child => exact (linked (by simp)).whitespace (by simp)
    | nextSibling => exact (linked (by simp)).whitespace (by simp)
    | subsequentSibling => exact (linked (by simp)).whitespace (by simp)
  refine ⟨?_, first.edged.append second.edged _⟩
  simpa using first.readable.append link fun _ _ => bounded_cons (by decide) _

/-- What a combinator leads to is written behind it. -/
theorem written_relative
    {right : List Token}
    {combinator : Combinator}
    (isLink : combinator ≠ .descendant)
    (written : Written right) :
    Written (combinatorTokens combinator ++ right) := by
  refine ⟨readable_combinatorTokens isLink written, ?_⟩
  have marked : ∀ {mark : Char}, isWhiteSpace mark = false →
      Edged (.delim mark :: .whitespace :: right) := by
    intro mark visible
    have solid : Solid (.delim mark) := ⟨by simp, by simpa [content] using visible⟩
    exact (Edged.singleton solid).append written.edged [.whitespace]
  cases combinator with
  | descendant => exact absurd rfl isLink
  | child => exact marked (by decide)
  | nextSibling => exact marked (by decide)
  | subsequentSibling => exact marked (by decide)

/-- Simple selectors one behind the other, of which only the first asks for a node name. -/
theorem written_compoundTokens :
    (members : List Selector) → members ≠ [] →
      (∀ member ∈ members, WrittenSimple member) →
      (∀ member ∈ members.tail, isTypeName member = false) → Written (compoundTokens members)
  | [], nonempty, _, _ => absurd rfl nonempty
  | [member], _, each, _ => by
      simpa [compoundTokens] using (each member List.mem_cons_self).written
  | member :: next :: rest, _, each, noTypes => by
      obtain ⟨first, eachLater⟩ := List.forall_mem_cons.mp each
      obtain ⟨noType, noTypesLater⟩ := List.forall_mem_cons.mp noTypes
      have later := written_compoundTokens (next :: rest) (by simp) eachLater noTypesLater
      have bounds := (eachLater next List.mem_cons_self).bounds noType
      refine ⟨first.written.readable.append later.readable fun text _ => ?_, ?_⟩
      · simpa [compoundTokens] using bounds (Token.listChars (compoundTokens rest) ++ text)
      · rw [compoundTokens]
        simpa using first.written.edged.append later.edged []

/-- Behind the first member of a list stands a comma or what bounds the list. -/
theorem bounded_furtherTokens
    (members : List Selector)
    {text : List Char}
    (bounded : Bounded text) :
    Bounded (Token.listChars (furtherTokens members) ++ text) := by
  cases members with
  | nil => exact bounded
  | cons member members => exact bounded_cons (by decide) _

/-- The members behind the first are readable with the commas in front of them. -/
theorem readable_furtherTokens
    {members : List Selector}
    (each : ∀ member ∈ members, Written member.tokens) :
    Readable (furtherTokens members) := by
  induction members with
  | nil => exact Readable.nil
  | cons member members inductionHypothesis =>
      obtain ⟨first, later⟩ := List.forall_mem_cons.mp each
      have behind : Readable (.whitespace :: member.tokens ++ furtherTokens members) :=
        first.blank.append (inductionHypothesis later) fun _ => bounded_furtherTokens members
      exact Readable.cons trivial (fun _ _ => rfl) behind

/-- A list ends where its last member does. -/
theorem edged_furtherTokens
    {members : List Selector}
    (each : ∀ member ∈ members, Written member.tokens)
    {tokens : List Token}
    (edged : Edged tokens) :
    Edged (tokens ++ furtherTokens members) := by
  induction members generalizing tokens with
  | nil => simpa [furtherTokens] using edged
  | cons member members inductionHypothesis =>
      obtain ⟨first, later⟩ := List.forall_mem_cons.mp each
      simpa [furtherTokens] using
        inductionHypothesis later (edged.append first.edged [.comma, .whitespace])

/-- A list is written if each of its members is. -/
theorem writtenList_of_forall
    {members : List Selector}
    (each : ∀ member ∈ members, Written member.tokens) :
    WrittenList members := by
  cases members with
  | nil => exact ⟨Readable.nil, fun nonempty => absurd rfl nonempty⟩
  | cons member members =>
      obtain ⟨first, later⟩ := List.forall_mem_cons.mp each
      exact ⟨first.readable.append (readable_furtherTokens later)
        fun _ => bounded_furtherTokens members, fun _ => edged_furtherTokens later first.edged⟩

end Joints

section Trees

mutual

/-- What is written for a regular selector is read back in front of whatever bounds it. -/
theorem written_of_regular :
    (selector : Selector) → (layer : Layer) → Regular layer selector →
      Written selector.tokens ∧ (layer = .simple → WrittenSimple selector)
  | .list _, _, regular => (not_regular_list regular).elim
  | .complex left _ right, _, regular => by
      obtain ⟨isChain, regularLeft, regularRight⟩ := regular_complex_iff.mp regular
      have first := (written_of_regular left .chain regularLeft).1
      have second := (written_of_regular right .compound regularRight).1
      exact ⟨written_complex first second, by simp [isChain]⟩
  | .relative _ right, _, regular => by
      obtain ⟨isChain, isLink, regularRight⟩ := regular_relative_iff.mp regular
      have written := (written_of_regular right .compound regularRight).1
      exact ⟨written_relative isLink written, by simp [isChain]⟩
  | .compound members, _, regular => by
      obtain ⟨notSimple, several, each, noTypes⟩ := regular_compound_iff.mp regular
      have nonempty : members ≠ [] := by
        intro none
        simp [none] at several
      have written := written_compoundTokens members nonempty
        (writtenSimple_of_regularEach members each) noTypes
      exact ⟨written, fun isSimple => absurd isSimple notSimple⟩
  | .typeName _ _, _, regular => by
      obtain ⟨isName, isQualifier⟩ := regular_typeName_iff.mp regular
      have simple := writtenSimple_typeName isName isQualifier
      exact ⟨simple.written, fun _ => simple⟩
  | .identifier _, _, regular => by
      have simple := writtenSimple_identifier (regular_identifier_iff.mp regular)
      exact ⟨simple.written, fun _ => simple⟩
  | .className _, _, regular => by
      have simple := writtenSimple_className (regular_className_iff.mp regular)
      exact ⟨simple.written, fun _ => simple⟩
  | .attribute _, _, regular => by
      have simple := writtenSimple_attribute (regular_attribute_iff.mp regular)
      exact ⟨simple.written, fun _ => simple⟩
  | .pseudo form _ argument, _, regular => by
      obtain ⟨isName, regularArgument⟩ := regular_pseudo_iff.mp regular
      obtain ⟨init, last, readable, shape, solid⟩ :=
        written_of_regularArgument form isName argument regularArgument
      have simple := writtenSimple_pseudo form readable shape solid
      exact ⟨simple.written, fun _ => simple⟩

/-- A regular argument is written between its function and the closing parenthesis. -/
theorem written_of_regularArgument
    (form : PseudoForm)
    {name : String}
    (isName : IsName name) :
    (argument : Argument) → RegularArgument form name argument →
      ∃ init last, Readable (argumentTokens name argument) ∧
        argumentTokens name argument = init ++ [last] ∧ Solid last
  | .absent, _ =>
      ⟨[], .ident name, readable_ident isName, rfl, by simp, isName.solid⟩
  | .selectors members, regular => by
      have list := writtenList_of_forall (written_of_regularList members regular.2.2)
      have closing : Readable [.rightParen] := Readable.singleton trivial fun _ _ => rfl
      have inside : Readable (listTokens members ++ [.rightParen]) :=
        list.readable.append closing fun _ _ => bounded_cons (by decide) _
      exact ⟨.function name :: listTokens members, .rightParen,
        Readable.cons isName.wellFormed (fun _ _ => rfl) inside, rfl, by simp, by simp [content]⟩
  | .raw _, regular => regular.elim
  | .anPlusB _, regular => regular.elim
  | .custom _, regular => regular.elim

/-- Every part of a regular compound is written. -/
theorem writtenSimple_of_regularEach :
    (members : List Selector) → RegularEach members →
      ∀ member ∈ members, WrittenSimple member
  | [], _ => List.forall_mem_nil _
  | member :: rest, regular =>
      List.forall_mem_cons.mpr ⟨(written_of_regular member .simple regular.1).2 rfl,
        writtenSimple_of_regularEach rest regular.2⟩

/-- Every member of a regular list is written. -/
theorem written_of_regularList :
    (members : List Selector) → RegularList members →
      ∀ member ∈ members, Written member.tokens
  | [], _ => List.forall_mem_nil _
  | member :: rest, regular =>
      List.forall_mem_cons.mpr ⟨(written_of_regular member .chain regular.1).1,
        written_of_regularList rest regular.2⟩

end

end Trees

section WholeLists

/-- No character of a solid token is white space. -/
theorem isWhiteSpace_of_solid
    {token : Token}
    {char : Char}
    (solid : Solid token)
    (member : char ∈ token.chars) :
    isWhiteSpace char = false := by
  rcases mem_chars solid.1 member with inContent | isMark
  · exact solid.2 char inContent
  · rw [Bool.eq_false_iff]
    exact fun white => notMem_marks white isMark

/-- Trimming keeps a text whose first and last tokens are solid. -/
theorem trim_of_edged
    {tokens : List Token}
    (wellFormed : AllWellFormed tokens)
    (edged : Edged tokens) :
    trim (Token.listChars tokens) = Token.listChars tokens := by
  apply trim_of_edges
  · obtain ⟨first, others, shape, solid⟩ := edged.starts
    subst shape
    obtain ⟨char, chars, written, _⟩ :=
      chars_eq_cons (wellFormed first List.mem_cons_self) solid.1
    rw [Token.listChars_cons, written]
    intro other same
    cases same
    exact isWhiteSpace_of_solid solid (by rw [written]; exact List.mem_cons_self)
  · obtain ⟨init, last, shape, solid⟩ := edged.ends
    subst shape
    obtain ⟨char, chars, written, _⟩ :=
      chars_eq_cons (wellFormed last (List.mem_append_right _ List.mem_cons_self)) solid.1
    have nonempty : last.chars ≠ [] := by
      rw [written]
      simp
    intro other same
    rw [Token.listChars_append, Token.listChars_cons, Token.listChars_nil, List.append_nil,
      List.getLast?_append, List.getLast?_eq_some_getLast nonempty, Option.some_or] at same
    cases same
    exact isWhiteSpace_of_solid solid (List.getLast_mem nonempty)

/-- A list of regular selectors can be written, and what is written is read as the list. -/
theorem parse_listText_of_regular
    {members : List Selector}
    (regular : RegularList members) :
    ∃ text, listText noCustom members = .ok text ∧ parse .standard text = .ok members := by
  have fits := fitsList_of_regular members regular
  obtain ⟨readable, edged⟩ := writtenList_of_forall (written_of_regularList members regular)
  have untrimmed : trim (Token.listChars (listTokens members)) =
      Token.listChars (listTokens members) := by
    by_cases empty : members = []
    · subst empty
      rfl
    · exact trim_of_edged readable.wellFormed (edged empty)
  refine ⟨String.ofList (Token.listChars (listTokens members)), ?_, ?_⟩
  · rw [listText, listChars_eq noCustom members fits]
    rfl
  · exact parse_of_legible fits readable.wellFormed
      (readable.legible [] (fun _ same => by simp at same)) untrimmed

/-- A chain that starts with a link, and names that are escaped. -/
theorem parse_listText_of_regular_escaped :
    let members : List Selector :=
      [.complex (.relative .child (.typeName "-" (some ""))) .descendant
        (.compound [.identifier "1.5", .pseudo .pseudoClass "NOT" (.selectors [.className "--|"])])]
    RegularList members ∧
      ∃ text, listText noCustom members = .ok text ∧ parse .standard text = .ok members := by
  intro members
  have dash : IsName "-" := ⟨by decide, by decide⟩
  have number : IsName "1.5" := ⟨by decide, by decide⟩
  have named : IsName "NOT" := ⟨by decide, by decide⟩
  have bar : IsName "--|" := ⟨by decide, by decide⟩
  have isList : ArgumentRules.standard.get? (ruleKey .pseudoClass "NOT") = some .selectorList := by
    cbv
  have argument : RegularArgument .pseudoClass "NOT" (.selectors [.className "--|"]) :=
    ⟨rfl, isList, bar, trivial⟩
  have regular : RegularList members :=
    ⟨⟨⟨by simp, dash, Or.inl rfl⟩, by simp, ⟨number, ⟨named, argument⟩, trivial⟩,
      by simp [isTypeName]⟩, trivial⟩
  exact ⟨regular, parse_listText_of_regular regular⟩

end WholeLists

end TreeSelectors.Selector
