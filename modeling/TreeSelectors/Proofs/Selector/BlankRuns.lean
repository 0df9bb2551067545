import Mathlib
import TreeSelectors.Proofs.Selector.RoundTrip
import TreeSelectors.Proofs.Selector.Translation

namespace TreeSelectors

/-!
# Blanks in a row

Two blanks stand in a row where there is a comment between them. How many there
are makes no difference to what is read: `parseTokens_collapseBlanks`.
-/

open TreeSelectors.Parser

/-- Not both of two tokens are blanks. -/
def NotBothBlank (first second : Token) : Prop :=
  ¬ (first = .whitespace ∧ second = .whitespace)

instance : DecidableRel NotBothBlank :=
  fun first second => inferInstanceAs (Decidable ¬ (first = .whitespace ∧ second = .whitespace))

/-- The tokens with one blank in place of every run of them. -/
def collapseBlanks (tokens : List Token) : List Token :=
  tokens.destutter NotBothBlank

theorem collapseBlanks_cons
    {token : Token}
    (notBlank : token ≠ .whitespace)
    (rest : List Token) :
    collapseBlanks (token :: rest) = token :: collapseBlanks rest := by
  cases rest with
  | nil => rfl
  | cons next others =>
      have apart : NotBothBlank token next := fun both => notBlank both.1
      rw [collapseBlanks, List.destutter_cons_cons, if_pos apart]
      rfl

theorem collapseBlanks_blank
    (rest : List Token) :
    collapseBlanks (.whitespace :: rest) =
      if startsBlank rest then collapseBlanks rest else .whitespace :: collapseBlanks rest := by
  cases rest with
  | nil => rfl
  | cons next others =>
      rw [collapseBlanks, List.destutter_cons_cons]
      by_cases isBlank : next = .whitespace
      · have together : ¬ NotBothBlank .whitespace next := fun apart => apart ⟨rfl, isBlank⟩
        rw [if_neg together, isBlank]
        rfl
      · have apart : NotBothBlank .whitespace next := fun both => isBlank both.2
        have notBlank : ¬ startsBlank (next :: others) = true := by
          rw [startsBlank.eq_2 _ fun rest same => isBlank (List.cons.inj same).1]
          simp
        rw [if_pos apart, if_neg notBlank]
        rfl

theorem startsBlank_collapseBlanks
    (tokens : List Token) :
    startsBlank (collapseBlanks tokens) = startsBlank tokens := by
  induction tokens with
  | nil => rfl
  | cons token rest inductionHypothesis =>
      by_cases isBlank : token = .whitespace
      · rw [isBlank, collapseBlanks_blank]
        split
        · next blank => exact inductionHypothesis.trans blank
        · rfl
      · rw [collapseBlanks_cons isBlank]
        cases token <;> rfl

theorem skipBlanks_collapseBlanks
    (tokens : List Token) :
    skipBlanks (collapseBlanks tokens) = collapseBlanks (skipBlanks tokens) := by
  induction tokens with
  | nil => rfl
  | cons token rest inductionHypothesis =>
      by_cases isBlank : token = .whitespace
      · have skipped : skipBlanks (.whitespace :: rest) = skipBlanks rest := rfl
        rw [isBlank, collapseBlanks_blank, skipped, ← inductionHypothesis]
        split <;> rfl
      · have stays : ∀ behind, skipBlanks (token :: behind) = token :: behind := by
          intro behind
          cases token <;> first | rfl | exact absurd rfl isBlank
        rw [collapseBlanks_cons isBlank, stays, stays, collapseBlanks_cons isBlank]

theorem startsBlank_inside
    {depth : Nat}
    {tokens inside behind : List Token}
    (cut : splitArgument? depth tokens = some (inside, behind)) :
    startsBlank inside = startsBlank tokens := by
  rw [splitArgument?_eq_some cut]
  cases inside with
  | nil => rfl
  | cons token rest => cases token <;> rfl

theorem splitArgument?_collapseBlanks
    (depth : Nat)
    (tokens : List Token) :
    splitArgument? depth (collapseBlanks tokens) =
      (splitArgument? depth tokens).map (Prod.map collapseBlanks collapseBlanks) := by
  induction tokens generalizing depth with
  | nil => rfl
  | cons token rest inductionHypothesis =>
      by_cases isBlank : token = .whitespace
      · have passed : ∀ behind, splitArgument? depth (.whitespace :: behind) = _ :=
          fun behind => Grammar.splitArgument?_cons rfl
        have later := inductionHypothesis depth
        rw [isBlank, collapseBlanks_blank, passed]
        cases cut : splitArgument? depth rest with
        | none =>
            rw [cut] at later
            split
            · exact later
            · simp [passed, later]
        | some found =>
            -- Blanks before the argument run into those at its start, if it starts with any.
            rw [cut] at later
            simp only [Option.map_some, Prod.map, collapseBlanks_blank, startsBlank_inside cut]
            split
            · exact later
            · simp [passed, later]
      · rcases Grammar.exists_step depth token with ⟨isZero, isClosing⟩ | ⟨after, step⟩
        · rw [isZero, isClosing, collapseBlanks_cons (by simp)]
          rfl
        · rw [collapseBlanks_cons isBlank, Grammar.splitArgument?_cons step,
            Grammar.splitArgument?_cons step, inductionHypothesis]
          simp [Function.comp_def, collapseBlanks_cons isBlank]

/-- The translation that leaves one blank of every run. -/
def Translation.blankRuns : Translation :=
  ⟨collapseBlanks, id⟩

theorem faithful_blankRuns :
    Translation.blankRuns.Faithful where
  empty := rfl
  keeps notBlank _ := collapseBlanks_cons notBlank _
  startsBlank := startsBlank_collapseBlanks
  skipBlanks := skipBlanks_collapseBlanks
  colon rest := by
    refine (collapseBlanks_cons (by simp) rest).trans (congrArg (Token.colon :: ·) ?_)
    refine Translation.eq_behindColon ?_ ?_ ?_ rest
    · intro name others
      exact collapseBlanks_cons (by simp) others
    · intro name others
      exact collapseBlanks_cons (by simp) others
    · intro tokens _ _
      rfl
  splitArgument? := splitArgument?_collapseBlanks 0
  ruleKey _ _ := rfl

/-- Tokens with their runs of blanks collapsed are read as before, but for kept tokens in them. -/
theorem parseTokens_collapseBlanks
    {rules : ArgumentRules}
    (customless : Selector.Customless rules)
    (tokens : List Token) :
    parseTokens rules (collapseBlanks tokens) =
      List.map (Selector.translate .blankRuns) <$> parseTokens rules tokens :=
  parseTokens_translate faithful_blankRuns customless tokens

/-- Runs of two blanks, between compounds and in arguments that are read and that are kept. -/
def spaced : List Token :=
  [.ident "a", .whitespace, .whitespace, .colon, .function "is", .whitespace, .whitespace,
    .ident "b", .rightParen, .colon, .function "x", .ident "c", .whitespace, .whitespace,
    .rightParen]

/-- What such tokens are read as, with some tokens kept. -/
def spacedRead (kept : List Token) : Selector :=
  .complex (.typeName "a" none) .descendant
    (.compound
      [.pseudo .pseudoClass "is" (.selectors [.typeName "b" none]),
        .pseudo .pseudoClass "x" (.raw kept)])

theorem parseTokens_collapseBlanks_spaced :
    Selector.Customless .standard ∧
      tokenize "a /**/ :is( /**/ b):x(c /**/ )" = .ok spaced ∧
      (parseTokens .standard spaced).outcome =
        .ok [spacedRead [.ident "c", .whitespace, .whitespace]] ∧
      (parseTokens .standard (collapseBlanks spaced)).outcome =
        .ok [spacedRead [.ident "c", .whitespace]] := by
  have customless := Selector.customless_standard
  have read : (parseTokens .standard spaced).outcome =
      .ok [spacedRead [.ident "c", .whitespace, .whitespace]] := by
    decide +kernel
  have collapsed : collapseBlanks [.ident "c", .whitespace, .whitespace] =
      [.ident "c", .whitespace] := by
    decide +kernel
  refine ⟨customless, by decide +kernel, read, ?_⟩
  rw [parseTokens_collapseBlanks customless spaced, Reading.outcome_map, read, ← collapsed]
  rfl

end TreeSelectors
