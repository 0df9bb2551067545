import Mathlib
import TreeSelectors.Proofs.Selector.RoundTrip
import TreeSelectors.Proofs.Selector.Translation

namespace TreeSelectors

/-!
# The case of names behind colons

Tokens that differ only in the case of the names directly behind colons are the
same once these are lowered. Lowering them is a faithful translation: behind a
colon the parser takes nothing but the name of a pseudo selector, and it looks
up the rule for that name in lower case.
-/

open TreeSelectors.Parser

/-- Lowering a text twice is lowering it once. -/
theorem Text.asciiLower_asciiLower
    (text : String) :
    asciiLower (asciiLower text) = asciiLower text := by
  simp [asciiLower, ← String.toList_inj]

namespace Token

/-- Whether the token is a colon. -/
def isColon : Token → Bool
  | .colon => true
  | _ => false

theorem isColon_eq_false
    {token : Token}
    (notColon : token ≠ .colon) :
    token.isColon = false := by
  cases token with
  | colon => exact absurd rfl notColon
  | _ => rfl

/-- The token with the name that it has in lower case, if it can name a pseudo selector. -/
def lowerName : Token → Token
  | .ident name => .ident (Text.asciiLower name)
  | .function name => .function (Text.asciiLower name)
  | token => token

end Token

/-- The tokens with every name directly behind a colon in lower case. -/
def lowerNames (behindColon : Bool) : List Token → List Token
  | [] => []
  | token :: rest =>
      (if behindColon then token.lowerName else token) :: lowerNames token.isColon rest

/--
Tokens that are the same but for the case of names directly behind a colon,
the first of them standing behind one or not.
-/
inductive SameButNameCase : Bool → List Token → List Token → Prop where
  | nil {behindColon : Bool} :
      SameButNameCase behindColon [] []
  | same {behindColon : Bool} {token : Token} {left right : List Token} :
      SameButNameCase token.isColon left right →
      SameButNameCase behindColon (token :: left) (token :: right)
  | ident {name other : String} {left right : List Token} :
      Text.eqIgnoringAsciiCase name other = true →
      SameButNameCase false left right →
      SameButNameCase true (.ident name :: left) (.ident other :: right)
  | function {name other : String} {left right : List Token} :
      Text.eqIgnoringAsciiCase name other = true →
      SameButNameCase false left right →
      SameButNameCase true (.function name :: left) (.function other :: right)

/-- Tokens that differ only in the case of such names are the same once these are lowered. -/
theorem SameButNameCase.lowerNames_eq
    {behindColon : Bool}
    {left right : List Token}
    (alike : SameButNameCase behindColon left right) :
    lowerNames behindColon left = lowerNames behindColon right := by
  induction alike with
  | nil => rfl
  | same _ inductionHypothesis => rw [lowerNames, lowerNames, inductionHypothesis]
  | ident same _ inductionHypothesis =>
      have lowered := eq_of_beq same
      simp [lowerNames, Token.lowerName, Token.isColon, lowered, inductionHypothesis]
  | function same _ inductionHypothesis =>
      have lowered := eq_of_beq same
      simp [lowerNames, Token.lowerName, Token.isColon, lowered, inductionHypothesis]

section Lowering

variable {behindColon : Bool}

/-- Away from colons nothing is lowered. -/
theorem lowerNames_cons
    {token : Token}
    (notColon : token ≠ .colon)
    (rest : List Token) :
    lowerNames false (token :: rest) = token :: lowerNames false rest := by
  simp [lowerNames, Token.isColon_eq_false notColon]

/-- No blank is made or lost. -/
theorem startsBlank_lowerNames
    (tokens : List Token) :
    startsBlank (lowerNames false tokens) = startsBlank tokens := by
  cases tokens with
  | nil => rfl
  | cons token rest => cases token <;> rfl

/-- Blanks are skipped before or after lowering names. -/
theorem skipBlanks_lowerNames
    (tokens : List Token) :
    skipBlanks (lowerNames false tokens) = lowerNames false (skipBlanks tokens) := by
  induction tokens with
  | nil => rfl
  | cons token rest inductionHypothesis =>
      cases token with
      | whitespace => exact inductionHypothesis
      | _ => rfl

/-- An argument is cut out alike, for a function stays one. -/
theorem splitArgument?_lowerNames
    (depth : Nat)
    (tokens : List Token) :
    splitArgument? depth (lowerNames behindColon tokens) =
      (splitArgument? depth tokens).map
        (Prod.map (lowerNames behindColon) (lowerNames false)) := by
  induction tokens generalizing depth behindColon with
  | nil => rfl
  | cons token rest inductionHypothesis =>
      rcases Grammar.exists_step depth token with ⟨isZero, isClosing⟩ | ⟨after, step⟩
      · rw [isZero, isClosing]
        cases behindColon <;> rfl
      · -- A name in lower case opens a parenthesis if it did before.
        have lowered :
            depth + (Grammar.opens (if behindColon then token.lowerName else token)).toNat =
              after + (Grammar.closes (if behindColon then token.lowerName else token)).toNat := by
          cases behindColon with
          | false => exact step
          | true => cases token <;> exact step
        rw [lowerNames, Grammar.splitArgument?_cons lowered, Grammar.splitArgument?_cons step,
          inductionHypothesis]
        simp [Function.comp_def, lowerNames]

end Lowering

/-- The translation that lowers names behind colons. -/
def Translation.nameCase : Translation :=
  ⟨lowerNames false, Text.asciiLower⟩

/-- Lowering names behind colons is a faithful translation. -/
theorem faithful_nameCase :
    Translation.nameCase.Faithful where
  empty := rfl
  keeps _ notColon := lowerNames_cons notColon _
  startsBlank := startsBlank_lowerNames
  skipBlanks := skipBlanks_lowerNames
  colon rest := by
    refine congrArg (Token.colon :: ·) (Translation.eq_behindColon ?_ ?_ ?_ rest)
    · intro name others
      rfl
    · intro name others
      rfl
    · intro tokens noName noFunction
      cases tokens with
      | nil => rfl
      | cons token others =>
          cases token with
          | ident name => exact absurd rfl (noName name others)
          | function name => exact absurd rfl (noFunction name others)
          | _ => rfl
  splitArgument? := splitArgument?_lowerNames 0
  ruleKey form name := by
    rw [Parser.ruleKey, Parser.ruleKey]
    exact congrArg _ (Text.asciiLower_asciiLower name)

namespace ArgumentRules

/-- Tables that are built without any rule of the caller's own. -/
inductive Plain : ArgumentRules → Prop where
  | empty :
      Plain .empty
  | standard :
      Plain .standard
  | withRule {rules : ArgumentRules} {key : String} {rule : ArgumentRule} :
      Plain rules →
      (∀ read, rule ≠ .custom read) →
      Plain (rules.withRule key rule)

/-- A table that is built without a rule of the caller's own has none. -/
theorem Plain.customless
    {rules : ArgumentRules}
    (plain : rules.Plain) :
    Selector.Customless rules := by
  induction plain with
  | empty =>
      intro key read found
      cases found
  | standard => exact Selector.customless_standard
  | @withRule rules inserted rule _ notCustom inductionHypothesis =>
      intro key read found
      by_cases same : Text.asciiLower key = Text.asciiLower inserted
      · rw [get?_withRule rules rule same] at found
        exact notCustom read (Option.some.inj found)
      · rw [get?_withRule_of_ne rules rule same] at found
        exact inductionHypothesis key read found

end ArgumentRules

end TreeSelectors
