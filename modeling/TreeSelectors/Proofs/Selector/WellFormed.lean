import TreeSelectors.Proofs.Selector.Acceptance
import TreeSelectors.Proofs.Selector.Occurrence

namespace TreeSelectors.Selector

/-!
# Selectors as they are read

A selector that has been read keeps promises that its type does not make: what
stands on the two sides of a combinator, which parts of an attribute selector
go together, which form an argument has, and which characters names hold.
`WellFormedNode` states them for one node; they hold at every depth,
`wellFormedList_of_parse`, also in the lists inside parentheses.
-/

open TreeSelectors.Lexer
open TreeSelectors.Parser
open TreeSelectors.Token

section Nodes

/-- Whether a selector is one condition on a node. -/
def isSimple : Selector → Bool
  | .typeName _ _ => true
  | .identifier _ => true
  | .className _ => true
  | .attribute _ => true
  | .pseudo _ _ _ => true
  | _ => false

/-- Whether a selector is one condition on a node or several of them. -/
def isCompound : Selector → Bool
  | .compound _ => true
  | selector => selector.isSimple

/-- Whether a selector is no list. -/
def isChain : Selector → Bool
  | .list _ => false
  | _ => true

/-- A name that is not empty and holds neither line breaks nor NUL. -/
structure IsIdentifier (name : String) : Prop where
  nonempty :
    name ≠ ""
  settled :
    Settled name.toList

/-- The parts of an attribute selector go together. -/
structure WellFormedTest (test : AttributeTest) : Prop where
  name :
    IsIdentifier test.name
  qualifier :
    ∀ qualifier ∈ test.qualifier, Settled qualifier.toList
  value :
    ∀ value ∈ test.value, Settled value.toList
  compared :
    test.value.isSome = test.matcher.isSome
  flagged :
    test.modifier.isSome = true → test.matcher.isSome = true
  named :
    ∀ mark ∈ ['=', '~', '|', '^', '$', '*'], test.matcher ≠ some (.other mark)

/-- An argument has the form that the rules give it; tokens that are kept are in parentheses. -/
inductive WellFormedArgument (rules : ArgumentRules) (key : String) : Argument → Prop where
  | absent :
      WellFormedArgument rules key .absent
  | raw {inside : List Token} :
      rules.get? key = none ∨ rules.get? key = some .raw →
      Grammar.Parenthesized inside →
      WellFormedArgument rules key (.raw inside)
  | anPlusB {inside : List Token} :
      rules.get? key = some .anPlusB →
      Grammar.Parenthesized inside →
      WellFormedArgument rules key (.anPlusB inside)
  | selectors {members : List Selector} :
      rules.get? key = some .selectorList →
      WellFormedArgument rules key (.selectors members)

/-- What is promised of a node; a list is none, and of a part only its kind is asked. -/
inductive WellFormedNode (rules : ArgumentRules) : Selector → Prop where
  | complex {left right : Selector} (combinator : Combinator) :
      left.isChain = true →
      right.isCompound = true →
      WellFormedNode rules (.complex left combinator right)
  | relative {combinator : Combinator} {right : Selector} :
      combinator ≠ .descendant →
      right.isCompound = true →
      WellFormedNode rules (.relative combinator right)
  | compound {members : List Selector} :
      2 ≤ members.length →
      (∀ member ∈ members, member.isSimple = true) →
      WellFormedNode rules (.compound members)
  | typeName {name : String} {qualifier : Option String} :
      IsIdentifier name →
      (∀ text ∈ qualifier, Settled text.toList) →
      WellFormedNode rules (.typeName name qualifier)
  | identifier {name : String} :
      IsIdentifier name →
      WellFormedNode rules (.identifier name)
  | className {name : String} :
      IsIdentifier name →
      WellFormedNode rules (.className name)
  | attribute {test : AttributeTest} :
      WellFormedTest test →
      WellFormedNode rules (.attribute test)
  | pseudo {form : PseudoForm} {name : String} {argument : Argument} :
      IsIdentifier name →
      WellFormedArgument rules (ruleKey form name) argument →
      WellFormedNode rules (.pseudo form name argument)

/-- A part of a node with which a chain starts: on its left, or a member in its parentheses. -/
inductive StartsChain : Selector → Selector → Prop where
  | left (part : Selector) (combinator : Combinator) (right : Selector) :
      StartsChain part (.complex part combinator right)
  | member {part : Selector} {members : List Selector} (form : PseudoForm) (name : String) :
      part ∈ members →
      StartsChain part (.pseudo form name (.selectors members))

/-- What is promised of a list of selectors, at every depth. -/
structure WellFormedList (rules : ArgumentRules) (members : List Selector) : Prop where
  node :
    ∀ member ∈ members, ∀ node, Occurs node member → WellFormedNode rules node
  relativeFirst :
    ∀ member ∈ members, ∀ whole, Occurs whole member → ∀ combinator right,
      .relative combinator right ∈ whole.children →
        StartsChain (.relative combinator right) whole

end Nodes

section Kinds

variable {rules : ArgumentRules} {layer : Layer} {selector child : Selector}

/-- What fits among simple selectors is one. -/
theorem isSimple_of_fits
    (fits : Fits rules .simple selector) :
    selector.isSimple = true := by
  cases selector with
  | list members => exact fits.elim
  | complex left combinator right => exact fits.elim
  | relative combinator right => exact fits.elim
  | compound members => exact fits.elim
  | _ => rfl

/-- What fits where a compound is asked for is one, or a single simple selector. -/
theorem isCompound_of_fits
    (fits : Fits rules .compound selector) :
    selector.isCompound = true := by
  cases selector with
  | list members => exact fits.elim
  | complex left combinator right => exact fits.elim
  | relative combinator right => exact fits.elim
  | _ => rfl

/-- Whatever fits anywhere is a chain, if only of one compound. -/
theorem isChain_of_fits
    (fits : Fits rules layer selector) :
    selector.isChain = true := by
  cases selector with
  | list members => exact (not_fits_list fits).elim
  | _ => rfl

/-- The members of a compound fit if each of them does. -/
theorem fitsEach_iff
    {members : List Selector} :
    FitsEach rules members ↔ ∀ member ∈ members, Fits rules .simple member := by
  induction members with
  | nil => simp [FitsEach]
  | cons member members inductionHypothesis => simp [FitsEach, inductionHypothesis]

/-- The members of a list fit if each of them does. -/
theorem fitsList_iff
    {members : List Selector} :
    FitsList rules members ↔ ∀ member ∈ members, Fits rules .chain member := by
  induction members with
  | nil => simp [FitsList]
  | cons member members inductionHypothesis => simp [FitsList, inductionHypothesis]

/-- The parts of what fits fit where they stand. -/
theorem fits_child
    (fits : Fits rules layer selector)
    (isChild : child ∈ selector.children) :
    ∃ inner, Fits rules inner child := by
  cases selector with
  | list members => exact (not_fits_list fits).elim
  | complex left combinator right =>
      obtain ⟨_, fitsLeft, fitsRight⟩ := fits_complex_iff.mp fits
      simp only [children, List.mem_cons, List.not_mem_nil, or_false] at isChild
      rcases isChild with same | same
      · exact ⟨.chain, same ▸ fitsLeft⟩
      · exact ⟨.compound, same ▸ fitsRight⟩
  | relative combinator right =>
      obtain ⟨_, _, fitsRight⟩ := fits_relative_iff.mp fits
      exact ⟨.compound, List.mem_singleton.mp isChild ▸ fitsRight⟩
  | compound members =>
      obtain ⟨_, _, each, _⟩ := fits_compound_iff.mp fits
      exact ⟨.simple, fitsEach_iff.mp each child isChild⟩
  | pseudo form name argument =>
      cases argument with
      | selectors members =>
          have inside := (fitsArgument_selectors (fits_pseudo_iff.mp fits)).2
          exact ⟨.chain, fitsList_iff.mp inside child isChild⟩
      | _ => cases isChild
  | _ => cases isChild

end Kinds

section Parts

variable {selector child : Selector}

/-- The tokens of a member are among those of its compound. -/
theorem subset_compoundTokens
    {members : List Selector}
    (member : child ∈ members) :
    child.tokens ⊆ compoundTokens members := by
  induction members with
  | nil => cases member
  | cons first members inductionHypothesis =>
      rw [compoundTokens]
      rcases List.mem_cons.mp member with same | later
      · subst same
        exact List.subset_append_left _ _
      · exact List.subset_append_of_subset_right _ (inductionHypothesis later)

/-- The tokens of a member are among those behind the first member of its list. -/
theorem subset_furtherTokens
    {members : List Selector}
    (member : child ∈ members) :
    child.tokens ⊆ furtherTokens members := by
  induction members with
  | nil => cases member
  | cons first members inductionHypothesis =>
      rw [furtherTokens]
      rcases List.mem_cons.mp member with same | later
      · subst same
        refine List.subset_append_of_subset_left _ ?_
        exact List.subset_cons_of_subset _ (List.subset_cons_self _ _)
      · exact List.subset_append_of_subset_right _ (inductionHypothesis later)

/-- The tokens of a member are among those of its list. -/
theorem subset_listTokens
    {members : List Selector}
    (member : child ∈ members) :
    child.tokens ⊆ listTokens members := by
  cases members with
  | nil => cases member
  | cons first members =>
      rw [listTokens]
      rcases List.mem_cons.mp member with same | later
      · subst same
        exact List.subset_append_left _ _
      · exact List.subset_append_of_subset_right _ (subset_furtherTokens later)

/-- The tokens of a part are among those of the whole. -/
theorem tokens_subset_of_child
    (isChild : child ∈ selector.children) :
    child.tokens ⊆ selector.tokens := by
  cases selector with
  | list members =>
      rw [tokens]
      exact subset_listTokens isChild
  | complex left combinator right =>
      simp only [children, List.mem_cons, List.not_mem_nil, or_false] at isChild
      rw [tokens]
      rcases isChild with same | same
      · subst same
        refine List.subset_append_of_subset_left _ ?_
        exact List.subset_append_left _ _
      · subst same
        exact List.subset_append_right _ _
  | relative combinator right =>
      rw [List.mem_singleton.mp isChild]
      rw [tokens]
      exact List.subset_append_right _ _
  | compound members =>
      rw [tokens]
      exact subset_compoundTokens isChild
  | pseudo form name argument =>
      cases argument with
      | selectors members =>
          rw [tokens, argumentTokens]
          refine List.subset_append_of_subset_right _ ?_
          refine List.subset_append_of_subset_left _ ?_
          exact List.subset_cons_of_subset _ (subset_listTokens isChild)
      | _ => cases isChild
  | _ => cases isChild

end Parts

section Promises

variable {rules : ArgumentRules} {layer : Layer} {selector : Selector}

/-- The name of a well-formed token is an identifier. -/
theorem isIdentifier_of_wellFormed
    {name : String}
    (wellFormed : (Token.ident name).WellFormed) :
    IsIdentifier name :=
  ⟨fun empty => wellFormed.1 (by rw [empty]; rfl), wellFormed.2⟩

/-- The text of a namespace, which may be empty or `*`. -/
theorem settled_of_qualifierTokens
    {qualifier : Option String}
    (wellFormed : AllWellFormed (qualifierTokens qualifier)) :
    ∀ text ∈ qualifier, Settled text.toList := by
  intro text isText
  cases isText
  by_cases star : text = "*"
  · subst star
    decide
  · by_cases empty : text = ""
    · subst empty
      decide
    · rw [qualifierTokens, if_neg star, if_neg empty] at wellFormed
      exact (wellFormed (.ident text) List.mem_cons_self).2

/-- A node name whose token is well-formed is an identifier, and `*` is one too. -/
theorem isIdentifier_of_nameToken
    {name : String}
    (wellFormed : (nameToken name).WellFormed) :
    IsIdentifier name := by
  by_cases star : name = "*"
  · subst star
    exact ⟨by decide, by decide⟩
  · rw [nameToken, if_neg star] at wellFormed
    exact isIdentifier_of_wellFormed wellFormed

/-- What has been read for a matcher is no other than it was named. -/
theorem ne_other_of_fitsAttribute
    {test : AttributeTest}
    (fits : FitsAttribute test) :
    ∀ mark ∈ ['=', '~', '|', '^', '$', '*'], test.matcher ≠ some (.other mark) := by
  intro mark member isOther
  rw [FitsAttribute, isOther] at fits
  obtain ⟨_, same, notEquals⟩ := fits
  simp only [List.mem_cons, List.not_mem_nil, or_false] at member
  rcases member with mark | mark | mark | mark | mark | mark <;> subst mark
  · exact notEquals rfl
  all_goals exact absurd same (by decide)

/-- An attribute selector that fits is well-formed if its tokens are. -/
theorem wellFormedTest_of_fits
    {test : AttributeTest}
    (fits : FitsAttribute test)
    (wellFormed : AllWellFormed (attributeTokens test)) :
    WellFormedTest test := by
  have named := ne_other_of_fitsAttribute fits
  obtain ⟨name, qualifier, matcher, value, modifier⟩ := test
  obtain ⟨opened, closed⟩ := List.forall_mem_append.mp wellFormed
  obtain ⟨front, behind⟩ := List.forall_mem_append.mp opened
  obtain ⟨_, qualified⟩ := List.forall_mem_cons.mp front
  obtain ⟨isName, condition⟩ := List.forall_mem_cons.mp behind
  cases matcher with
  | none =>
      obtain ⟨noValue, noModifier⟩ : value = none ∧ modifier = none := fits
      subst noValue
      subst noModifier
      exact ⟨isIdentifier_of_wellFormed isName, settled_of_qualifierTokens qualified,
        by simp, rfl, by simp, named⟩
  | some matcher =>
      obtain ⟨text, isText⟩ := Option.ne_none_iff_exists'.mp fits.1
      have valued : (Token.string text).WellFormed := by
        refine condition (.string text) ?_
        simp only [conditionTokens, show value = some text from isText]
        exact List.mem_append_right _ List.mem_cons_self
      have same : value = some text := isText
      subst same
      refine ⟨isIdentifier_of_wellFormed isName, settled_of_qualifierTokens qualified,
        ?_, rfl, fun _ => rfl, named⟩
      intro other isOther
      cases isOther
      exact valued

/-- An argument that fits its rule has the shape that the rule makes. -/
theorem wellFormedArgument_of_fits
    {key : String}
    {argument : Argument}
    (fits : FitsArgument rules (rules.get? key) argument) :
    WellFormedArgument rules key argument := by
  cases argument with
  | absent => exact .absent
  | raw inside =>
      cases rule : rules.get? key with
      | none =>
          rw [rule] at fits
          exact .raw (Or.inl rule) (Grammar.parenthesized_iff_balanced.mpr fits)
      | some found =>
          rw [rule] at fits
          cases found with
          | raw => exact .raw (Or.inr rule) (Grammar.parenthesized_iff_balanced.mpr fits)
          | _ => exact fits.elim
  | selectors members => exact .selectors (fitsArgument_selectors fits).1
  | anPlusB inside =>
      cases rule : rules.get? key with
      | none =>
          rw [rule] at fits
          exact fits.elim
      | some found =>
          rw [rule] at fits
          cases found with
          | anPlusB => exact .anPlusB rule (Grammar.parenthesized_iff_balanced.mpr fits)
          | _ => exact fits.elim
  | custom node => exact (not_fitsArgument_custom fits).elim

/-- A node that fits and whose tokens can be read is well formed. -/
theorem wellFormedNode_of_fits
    (fits : Fits rules layer selector)
    (wellFormed : AllWellFormed selector.tokens) :
    WellFormedNode rules selector := by
  cases selector with
  | list members => exact (not_fits_list fits).elim
  | complex left combinator right =>
      obtain ⟨_, fitsLeft, fitsRight⟩ := fits_complex_iff.mp fits
      exact .complex combinator (isChain_of_fits fitsLeft) (isCompound_of_fits fitsRight)
  | relative combinator right =>
      obtain ⟨_, explicit, fitsRight⟩ := fits_relative_iff.mp fits
      exact .relative explicit (isCompound_of_fits fitsRight)
  | compound members =>
      obtain ⟨_, several, each, _⟩ := fits_compound_iff.mp fits
      exact .compound several fun member isMember =>
        isSimple_of_fits (fitsEach_iff.mp each member isMember)
  | typeName name qualifier =>
      rw [tokens] at wellFormed
      obtain ⟨qualified, named⟩ := List.forall_mem_append.mp wellFormed
      exact .typeName (isIdentifier_of_nameToken (named _ List.mem_cons_self))
        (settled_of_qualifierTokens qualified)
  | identifier name =>
      rw [tokens] at wellFormed
      exact .identifier (isIdentifier_of_wellFormed (wellFormed (.hash name _) List.mem_cons_self))
  | className name =>
      rw [tokens] at wellFormed
      exact .className (isIdentifier_of_wellFormed (wellFormed (.ident name) (by simp)))
  | «attribute» test =>
      rw [tokens] at wellFormed
      exact .attribute (wellFormedTest_of_fits (fits_attribute_iff.mp fits) wellFormed)
  | pseudo form name argument =>
      rw [tokens] at wellFormed
      obtain ⟨_, named⟩ := List.forall_mem_append.mp wellFormed
      have isName : IsIdentifier name := by
        cases argument with
        | absent => exact isIdentifier_of_wellFormed (named _ List.mem_cons_self)
        | _ => exact isIdentifier_of_wellFormed (named (.function name) List.mem_cons_self)
      exact .pseudo isName (wellFormedArgument_of_fits (fits_pseudo_iff.mp fits))

/-- What occurs in a selector that fits is well formed. -/
theorem wellFormedNode_of_occurs
    {node : Selector}
    (occurs : Occurs node selector)
    {layer : Layer}
    (fits : Fits rules layer selector)
    (wellFormed : AllWellFormed selector.tokens) :
    WellFormedNode rules node := by
  induction occurs generalizing layer with
  | self => exact wellFormedNode_of_fits fits wellFormed
  | inside isChild _ inductionHypothesis =>
      obtain ⟨inner, fitsChild⟩ := fits_child fits isChild
      exact inductionHypothesis fitsChild fun token member =>
        wellFormed token (tokens_subset_of_child isChild member)

/-- In a well-formed node a relative selector stands only where a chain starts. -/
theorem startsChain_of_wellFormedNode
    {whole : Selector}
    (wellFormed : WellFormedNode rules whole)
    {combinator : Combinator}
    {right : Selector}
    (isChild : .relative combinator right ∈ whole.children) :
    StartsChain (.relative combinator right) whole := by
  cases wellFormed with
  | @complex left operand between _ isCompound =>
      simp only [children, List.mem_cons, List.not_mem_nil, or_false] at isChild
      rcases isChild with same | same
      · subst same
        exact .left _ between operand
      · subst same
        cases isCompound
  | relative _ isCompound =>
      rw [← List.mem_singleton.mp isChild] at isCompound
      cases isCompound
  | compound _ each => cases each _ isChild
  | @pseudo form name argument _ _ =>
      cases argument with
      | selectors members => exact .member form name isChild
      | _ => cases isChild
  | _ => cases isChild

end Promises

/-- Whatever is read from a text is well formed at every depth. -/
theorem wellFormedList_of_parse
    {rules : ArgumentRules}
    (customless : Customless rules)
    {text : String}
    {members : List Selector}
    (read : parse rules text = .ok members) :
    WellFormedList rules members := by
  obtain ⟨tokens, known⟩ := hasBeenRead customless read
  have everywhere : ∀ member ∈ members, ∀ node, Occurs node member →
      WellFormedNode rules node := by
    intro member isMember node occurs
    refine wellFormedNode_of_occurs occurs (fitsList_iff.mp known.fits member isMember) ?_
    exact fun token inMember => known.wellFormed token (subset_listTokens isMember inMember)
  refine ⟨everywhere, ?_⟩
  intro member isMember whole occurs combinator right isChild
  exact startsChain_of_wellFormedNode (everywhere member isMember whole occurs) isChild

/-- Chains that start with a combinator, in parentheses and outside, and tokens that are kept. -/
def relativeChains : List Selector :=
  [.complex
    (.relative .child (.compound [.typeName "a" (some "*"), .className "31"]))
    .subsequentSibling
    (.compound [
      .pseudo .pseudoClass "not" (.selectors [
        .relative .nextSibling (.typeName "b" none),
        .attribute ⟨"c", some "", some (.other '!'), some "d", some .insensitive⟩]),
      .pseudo .pseudoElement "e" (.raw [.leftParen, .ident "f", .rightParen])])]

/-- A list that is read with chains that have no left side. -/
theorem wellFormedList_of_parse_relative :
    Customless ArgumentRules.standard ∧
      parse .standard "> *|a.\\31 ~ :not(+ b, [|c !='d' I])::e((f))" = .ok relativeChains ∧
      WellFormedList .standard relativeChains := by
  have read : parse .standard "> *|a.\\31 ~ :not(+ b, [|c !='d' I])::e((f))" =
      .ok relativeChains := by
    decide +kernel
  exact ⟨customless_standard, read, wellFormedList_of_parse customless_standard read⟩

end TreeSelectors.Selector
