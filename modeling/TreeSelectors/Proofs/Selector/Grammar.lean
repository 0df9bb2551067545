import TreeSelectors.Selector.ArgumentRules
import TreeSelectors.Selector.Parser

namespace TreeSelectors.Grammar

/-!
# The grammar of selector lists

`Derives` is the grammar of selector lists over tokens, one constructor for each
way to form a phrase. It says nothing about how a list is read, and it is
ambiguous: a name, a bar and a name are one type selector or two.

A phrase is what stands in a list of tokens before the rest of them, so that a
phrase which only the end of the list can close is one without a rest.
-/

/-- Nothing but blanks. -/
def Blanks (tokens : List Token) : Prop :=
  ∀ token ∈ tokens, token = .whitespace

/-- A name or `*`. -/
inductive Named : Token → Prop where
  | ident (name : String) :
      Named (.ident name)
  | star :
      Named (.delim '*')

/-- A namespace and its bar, or the bar alone. -/
inductive Qualifier : List Token → Prop where
  | bare :
      Qualifier [.delim '|']
  | named {token : Token} :
      Named token →
      Qualifier [token, .delim '|']

/-- A namespace or nothing. -/
def OptionalQualifier (tokens : List Token) : Prop :=
  tokens = [] ∨ Qualifier tokens

/-- An equals sign, or another delimiter directly followed by one. -/
inductive Matcher : List Token → Prop where
  | equals :
      Matcher [.delim '=']
  | marked {char : Char} :
      char ≠ '=' →
      Matcher [.delim char, .delim '=']

/-- What an attribute can be compared with. -/
inductive Value : Token → Prop where
  | string (value : String) :
      Value (.string value)
  | ident (name : String) :
      Value (.ident name)

/-- The flags, in either case. -/
def flagNames : List String :=
  ["i", "I", "s", "S"]

/-- A flag and the blanks behind it, or nothing. -/
inductive Flag : List Token → Prop where
  | absent :
      Flag []
  | present {name : String} {blanks : List Token} :
      name ∈ flagNames →
      Blanks blanks →
      Flag (.ident name :: blanks)

/-- What an attribute selector asks for behind the name and its blanks. -/
inductive Condition : List Token → Prop where
  | absent :
      Condition []
  | present {matcher blanks spaces flag : List Token} {value : Token} :
      Matcher matcher →
      Blanks blanks →
      Value value →
      Blanks spaces →
      Flag flag →
      Condition (matcher ++ (blanks ++ value :: (spaces ++ flag)))

/-- What stands in the brackets of an attribute selector. -/
inductive Attribute : List Token → Prop where
  | intro {blanks qualifier spaces condition : List Token} {name : String} :
      Blanks blanks →
      OptionalQualifier qualifier →
      Blanks spaces →
      Condition condition →
      Attribute (blanks ++ (qualifier ++ .ident name :: (spaces ++ condition)))

/-- Whether a token opens a parenthesis. -/
def opens : Token → Bool
  | .function _ => true
  | .leftParen => true
  | _ => false

/-- Whether a token closes a parenthesis. -/
def closes : Token → Bool
  | .rightParen => true
  | _ => false

/--
Tokens that close all parentheses they open, and as many more as `depth`, but
nowhere more than that.
-/
structure Closing (depth : Nat) (tokens : List Token) : Prop where
  within :
    ∀ front, front <+: tokens → front.countP closes ≤ front.countP opens + depth
  whole :
    tokens.countP closes = tokens.countP opens + depth

theorem closing_nil_iff
    {depth : Nat} :
    Closing depth [] ↔ depth = 0 := by
  constructor
  · intro closing
    exact (Nat.zero_add depth ▸ closing.whole).symm
  · intro same
    subst same
    exact ⟨fun front isFront => by rw [List.prefix_nil.mp isFront]; exact Nat.le_refl _, rfl⟩

/-- Tokens that nowhere close more parentheses than they open and `depth` others. -/
def NeverOvercloses (depth : Nat) (tokens : List Token) : Prop :=
  ∀ front, front <+: tokens → front.countP closes ≤ front.countP opens + depth

section Counting

variable {before after : Nat} {token : Token} {tokens : List Token}

theorem countP_opens_cons :
    (token :: tokens).countP opens = tokens.countP opens + (opens token).toNat := by
  rw [List.countP_cons]
  cases opens token <;> rfl

theorem countP_closes_cons :
    (token :: tokens).countP closes = tokens.countP closes + (closes token).toNat := by
  rw [List.countP_cons]
  cases closes token <;> rfl

theorem neverOvercloses_cons_iff
    (step : before + (opens token).toNat = after + (closes token).toNat) :
    NeverOvercloses before (token :: tokens) ↔ NeverOvercloses after tokens := by
  constructor
  · intro never front isFront
    have within := never (token :: front) ((List.prefix_cons_inj token).mpr isFront)
    rw [countP_opens_cons, countP_closes_cons] at within
    omega
  · intro never front isFront
    rcases List.prefix_cons_iff.mp isFront with empty | ⟨later, same, isLater⟩
    · subst empty
      exact Nat.zero_le _
    · subst same
      have within := never later isLater
      rw [countP_opens_cons, countP_closes_cons]
      omega

/-- Where nothing has to be closed, nothing can be. -/
theorem not_neverOvercloses_zero_rightParen :
    ¬ NeverOvercloses 0 (.rightParen :: tokens) := by
  intro never
  have within := never [.rightParen] ((List.prefix_cons_inj _).mpr List.nil_prefix)
  exact absurd within (by decide)

/-- A token that closes what it opens leaves as much to be closed as there was before. -/
theorem closing_cons_iff
    (step : before + (opens token).toNat = after + (closes token).toNat) :
    Closing before (token :: tokens) ↔ Closing after tokens := by
  have within : NeverOvercloses before (token :: tokens) ↔ NeverOvercloses after tokens :=
    neverOvercloses_cons_iff step
  constructor
  · intro closing
    refine ⟨within.mp closing.within, ?_⟩
    have whole := closing.whole
    rw [countP_opens_cons, countP_closes_cons] at whole
    omega
  · intro closing
    refine ⟨within.mpr closing.within, ?_⟩
    have whole := closing.whole
    rw [countP_opens_cons, countP_closes_cons]
    omega

theorem not_closing_zero_rightParen
    (tokens : List Token) :
    ¬ Closing 0 (.rightParen :: tokens) :=
  fun closing => not_neverOvercloses_zero_rightParen closing.within

/-- Only a parenthesis that closes nothing takes away more than there is to be closed. -/
theorem exists_step
    (before : Nat)
    (token : Token) :
    before = 0 ∧ token = .rightParen ∨
      ∃ after, before + (opens token).toNat = after + (closes token).toNat := by
  by_cases closed : token = .rightParen
  · subst closed
    cases before with
    | zero => exact Or.inl ⟨rfl, rfl⟩
    | succ before => exact Or.inr ⟨before, rfl⟩
  · refine Or.inr ⟨before + (opens token).toNat, ?_⟩
    cases token with
    | rightParen => exact absurd rfl closed
    | _ => rfl

/-- The scan for the end of an argument counts what is opened and not closed. -/
theorem splitArgument?_cons
    (step : before + (opens token).toNat = after + (closes token).toNat) :
    Parser.splitArgument? before (token :: tokens) =
      (Parser.splitArgument? after tokens).map fun found => (token :: found.1, found.2) := by
  cases token with
  | rightParen =>
      have more : before = after + 1 := step
      rw [more, Parser.splitArgument?]
  | leftParen =>
      have more : before + 1 = after := step
      rw [← more, Parser.splitArgument?]
  | function name =>
      have more : before + 1 = after := step
      rw [← more, Parser.splitArgument?]
  | _ =>
      have same : before = after := step
      rw [same]
      cases after <;> rfl

end Counting

/-- Tokens in which every parenthesis has its partner. -/
def Parenthesized (tokens : List Token) : Prop :=
  Closing 0 tokens

/-- The name of the rule for an argument: the colons and the name, its ASCII capitals lowered. -/
def argumentKey : PseudoForm → String → String
  | .pseudoClass, name => ":" ++ name.toLower
  | .pseudoElement, name => "::" ++ name.toLower

/-- The parser looks up the rule for an argument by the name that the grammar gives it. -/
theorem ruleKey_eq
    (form : PseudoForm)
    (name : String) :
    Parser.ruleKey form name = argumentKey form name := by
  cases form <;> rfl

/-- The delimiters that are combinators. -/
def combinators : List Char :=
  ['>', '+', '~']

/-- The kinds of phrases. -/
inductive Symbol where
  /-- One condition on a node. -/
  | simple
  /-- Conditions on the same node. -/
  | compound
  /-- The combinators of a chain, each with the compound behind it. -/
  | links
  /-- Compounds with combinators between them. -/
  | complex
  /-- What follows a member of a list up to the end. -/
  | furtherMembers
  /-- A whole list. -/
  | list

/-- Tokens start with a phrase, and the others are the rest behind it. -/
inductive Derives (rules : ArgumentRules) : Symbol → List Token → List Token → Prop where
  | typeName {qualifier rest : List Token} {token : Token} :
      OptionalQualifier qualifier →
      Named token →
      Derives rules .simple (qualifier ++ token :: rest) rest
  | identifier (name : String) (kind : HashKind) (rest : List Token) :
      Derives rules .simple (.hash name kind :: rest) rest
  | className (name : String) (rest : List Token) :
      Derives rules .simple (.delim '.' :: .ident name :: rest) rest
  | attribute {inside : List Token} (rest : List Token) :
      Attribute inside →
      Derives rules .simple (.leftBracket :: (inside ++ .rightBracket :: rest)) rest
  | unclosedAttribute {inside : List Token} :
      Attribute inside →
      Derives rules .simple (.leftBracket :: inside) []
  | pseudo (form : PseudoForm) (name : String) (rest : List Token) :
      Derives rules .simple (form.colons.map (fun _ => .colon) ++ .ident name :: rest) rest
  | function {form : PseudoForm} {name : String} {inside : List Token} (rest : List Token) :
      Parenthesized inside →
      (rules.get? (argumentKey form name) = some .selectorList →
        Derives rules .list inside []) →
      Derives rules .simple
        (form.colons.map (fun _ => .colon) ++ .function name :: (inside ++ .rightParen :: rest))
        rest
  | alone {tokens rest : List Token} :
      Derives rules .simple tokens rest →
      Derives rules .compound tokens rest
  | together {tokens middle rest : List Token} :
      Derives rules .simple tokens middle →
      Derives rules .compound middle rest →
      Derives rules .compound tokens rest
  | noLinks (rest : List Token) :
      Derives rules .links rest rest
  | descendant {blanks tokens middle rest : List Token} :
      Blanks blanks →
      blanks ≠ [] →
      Derives rules .compound tokens middle →
      Derives rules .links middle rest →
      Derives rules .links (blanks ++ tokens) rest
  | combinator {blanks spaces tokens middle rest : List Token} {char : Char} :
      Blanks blanks →
      char ∈ combinators →
      Blanks spaces →
      Derives rules .compound tokens middle →
      Derives rules .links middle rest →
      Derives rules .links (blanks ++ .delim char :: (spaces ++ tokens)) rest
  | complex {tokens middle rest : List Token} :
      Derives rules .compound tokens middle →
      Derives rules .links middle rest →
      Derives rules .complex tokens rest
  | relative {spaces tokens middle rest : List Token} {char : Char} :
      char ∈ combinators →
      Blanks spaces →
      Derives rules .compound tokens middle →
      Derives rules .links middle rest →
      Derives rules .complex (.delim char :: (spaces ++ tokens)) rest
  | lastMember {blanks : List Token} :
      Blanks blanks →
      Derives rules .furtherMembers blanks []
  | nextMember {blanks spaces tokens rest : List Token} :
      Blanks blanks →
      Blanks spaces →
      Derives rules .complex tokens rest →
      Derives rules .furtherMembers rest [] →
      Derives rules .furtherMembers (blanks ++ .comma :: (spaces ++ tokens)) []
  | noMembers {blanks : List Token} :
      Blanks blanks →
      Derives rules .list blanks []
  | members {blanks tokens rest : List Token} :
      Blanks blanks →
      Derives rules .complex tokens rest →
      Derives rules .furtherMembers rest [] →
      Derives rules .list (blanks ++ tokens) []

end TreeSelectors.Grammar
