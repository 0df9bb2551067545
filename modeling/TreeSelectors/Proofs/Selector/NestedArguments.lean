import Mathlib.Logic.Relation
import TreeSelectors.Proofs.Selector.ArgumentEnds
import TreeSelectors.Proofs.Selector.RoundTrip

namespace TreeSelectors.Grammar

/-!
# Arguments inside an argument

A parenthesis is missed only behind a function token without a partner, or in
an argument that is read as a list in turn: `MismatchIn`. In an argument that
has been cut off every function token has its partner inside, and so it is in
all arguments within. No reading inside it, however deep, misses a parenthesis:
`scansArgument`.
-/

open TreeSelectors.Parser
open TreeSelectors.Selector

/-- Behind some function token no end of an argument is found. -/
def Unclosed (tokens : List Token) : Prop :=
  ∃ name rest, .function name :: rest <:+ tokens ∧ splitArgument? 0 rest = none

/-- A parenthesis is missed in some tokens, or by a reader of lists in an argument of theirs. -/
def MismatchIn (readList : List Token → Reading (List Selector)) (tokens : List Token) : Prop :=
  Unclosed tokens ∨
    ∃ inside, HasArgument tokens inside ∧
      (readList inside).outcome = .error .parenthesesMismatch

section Mismatches

variable {rules : ArgumentRules} {readList : List Token → Reading (List Selector)}
  {tokens rest : List Token}

/-- A mismatch inside a suffix is one inside the whole. -/
theorem MismatchIn.ofSuffix
    (suffix : rest <:+ tokens)
    (mismatch : MismatchIn readList rest) :
    MismatchIn readList tokens := by
  rcases mismatch with ⟨name, later, isFunction, uncut⟩ | ⟨inside, isArgument, fails⟩
  · exact Or.inl ⟨name, later, isFunction.trans suffix, uncut⟩
  · exact Or.inr ⟨inside, isArgument.ofSuffix suffix, fails⟩

section Leaves

variable {error : SyntaxError}

/-- Behind a bar nothing can be missed but a name. -/
theorem error_of_qualified?
    {qualifier : String}
    (failed : qualified? qualifier tokens = .error error) :
    error = .expectedNameAfterNamespace qualifier := by
  unfold qualified? at failed
  split at failed <;> cases failed
  rfl

theorem error_of_optionalQualifier
    (failed : optionalQualifier tokens = .error error) :
    ∃ qualifier, error = .expectedNameAfterNamespace qualifier := by
  unfold optionalQualifier at failed
  split at failed
  · next other failedBefore =>
      cases failed
      unfold qualifier? at failedBefore
      split at failedBefore
      · exact ⟨_, error_of_qualified? failedBefore⟩
      · exact ⟨_, error_of_qualified? failedBefore⟩
      · exact ⟨_, error_of_qualified? failedBefore⟩
      · cases failedBefore
  · cases failed
  · cases failed

/-- A type selector can only miss the name behind its namespace. -/
theorem error_of_typeSelector?
    (failed : typeSelector? tokens = .error error) :
    ∃ qualifier, error = .expectedNameAfterNamespace qualifier := by
  unfold typeSelector? at failed
  split at failed
  · next other failedBefore =>
      cases failed
      exact error_of_optionalQualifier failedBefore
  · cases failed
  · cases failed
  · cases failed

/-- What stands in brackets never misses a parenthesis. -/
theorem attributeTest_ne_mismatch
    (tokens : List Token) :
    attributeTest tokens ≠ .error .parenthesesMismatch := by
  intro failed
  unfold attributeTest at failed
  split at failed
  · next other failedBefore =>
      obtain ⟨qualifier, same⟩ := error_of_optionalQualifier failedBefore
      subst same
      cases failed
  · unfold attributeCondition at failed
    split at failed
    · cases failed
    · split at failed <;> cases failed
  · cases failed

/-- An attribute selector never misses a parenthesis. -/
theorem bracketed_ne_mismatch
    (tokens : List Token) :
    (bracketed tokens).outcome ≠ .error .parenthesesMismatch := by
  intro failed
  unfold bracketed at failed
  split at failed
  · next other failedBefore =>
      cases failed
      exact attributeTest_ne_mismatch tokens failedBefore
  · cases failed
  · cases failed
  · cases failed

/-- A token that does not belong there is reported as such. -/
theorem unexpected_ne_mismatch
    (tokens : List Token) :
    unexpected tokens ≠ .parenthesesMismatch := by
  cases tokens <;> simp [unexpected]

end Leaves

/-- A repetition fails where one of its steps does. -/
theorem exists_step_of_many_eq_error
    {α : Type}
    {step : List Token → Reading (Option (α × List Token))}
    (advances : Advances step)
    {error : SyntaxError}
    (failed : (many step tokens).outcome = .error error) :
    ∃ rest, rest <:+ tokens ∧ (step rest).outcome = .error error := by
  induction h : tokens.length using Nat.strongRecOn generalizing tokens with
  | _ length inductionHypothesis =>
      rw [many_eq advances, Reading.outcome_andThen_eq_error] at failed
      rcases failed with here | ⟨found, read, later⟩
      · exact ⟨tokens, List.suffix_refl tokens, here⟩
      · cases found with
        | none => cases later
        | some found =>
            obtain ⟨item, behind⟩ := found
            have place := advances tokens item behind read
            rcases Reading.outcome_andThen_eq_error.mp later with further | ⟨_, _, impossible⟩
            · obtain ⟨rest, suffix, fails⟩ :=
                inductionHypothesis behind.length (h ▸ place.shorter) further rfl
              exact ⟨rest, suffix.trans place.suffix, fails⟩
            · cases impossible

section Customless

variable (customless : Customless rules)

include customless

/-- An argument misses a parenthesis only if the list in it does. -/
theorem mismatch_argument
    {form : PseudoForm}
    {name : String}
    {inside : List Token}
    (failed : (argument rules readList form name inside).outcome = .error .parenthesesMismatch) :
    (readList inside).outcome = .error .parenthesesMismatch := by
  unfold argument at failed
  split at failed
  · cases failed
  · cases failed
  · rcases Reading.outcome_andThen_eq_error.mp failed with here | ⟨_, _, impossible⟩
    · exact here
    · cases impossible
  · cases failed
  · next read rule => exact absurd rule (customless _ read)

/-- A pseudo selector whose own parenthesis closes misses one only inside its argument. -/
theorem mismatch_pseudo?
    (failed : (pseudo? rules readList tokens).outcome = .error .parenthesesMismatch) :
    MismatchIn readList tokens := by
  unfold pseudo? at failed
  split at failed
  · cases failed
  · next form name rest named =>
      have isFunction := pseudoName?_suffix named
      split at failed
      · next uncut => exact Or.inl ⟨name, rest, isFunction, uncut⟩
      · next inside behind cut =>
          rcases Reading.outcome_andThen_eq_error.mp failed with here | ⟨_, _, impossible⟩
          · exact Or.inr ⟨inside, ⟨name, rest, behind, isFunction, cut⟩,
              mismatch_argument customless here⟩
          · cases impossible
  · cases failed

/-- A simple selector misses a parenthesis only inside an argument. -/
theorem mismatch_simple?
    (failed : (simple? rules readList tokens).outcome = .error .parenthesesMismatch) :
    MismatchIn readList tokens := by
  unfold simple? at failed
  split at failed
  · next other failedBefore =>
      obtain ⟨qualifier, same⟩ := error_of_typeSelector? failedBefore
      subst same
      cases failed
  · cases failed
  · split at failed
    · cases failed
    · cases failed
    · next rest _ =>
        rcases Reading.outcome_andThen_eq_error.mp failed with here | ⟨_, _, impossible⟩
        · exact absurd here (bracketed_ne_mismatch rest)
        · cases impossible
    · exact (mismatch_pseudo? customless failed).ofSuffix (List.suffix_cons _ _)
    · cases failed

/-- A compound does so only inside an argument of one of its members. -/
theorem mismatch_compound?
    (failed : (compound? rules readList tokens).outcome = .error .parenthesesMismatch) :
    MismatchIn readList tokens := by
  rcases Reading.outcome_andThen_eq_error.mp failed with here | ⟨_, _, impossible⟩
  · obtain ⟨rest, suffix, fails⟩ := exists_step_of_many_eq_error advances_simple? here
    exact (mismatch_simple? customless fails).ofSuffix suffix
  · cases impossible

/-- A link does so only inside an argument of its compound. -/
theorem mismatch_link?
    (failed : (link? rules readList tokens).outcome = .error .parenthesesMismatch) :
    MismatchIn readList tokens := by
  unfold link? at failed
  split at failed
  · cases failed
  · next combinator behind read =>
      rcases Reading.outcome_andThen_eq_error.mp failed with here | ⟨found, _, later⟩
      · exact (mismatch_compound? customless here).ofSuffix (combinator?_suffix read)
      · split at later
        · cases later
        · split at later <;> cases later

/-- The start of a chain does so only inside an argument. -/
theorem mismatch_chainStart?
    (failed : (chainStart? rules readList tokens).outcome = .error .parenthesesMismatch) :
    MismatchIn readList tokens := by
  unfold chainStart? at failed
  split at failed
  · exact mismatch_compound? customless failed
  · next combinator behind read =>
      rcases Reading.outcome_andThen_eq_error.mp failed with here | ⟨found, _, later⟩
      · exact (mismatch_compound? customless here).ofSuffix
          (explicitCombinator?_behind read).suffix
      · split at later <;> cases later

/-- A complex selector does so only inside an argument of one of its compounds. -/
theorem mismatch_complex?
    (failed : (complex? rules readList tokens).outcome = .error .parenthesesMismatch) :
    MismatchIn readList tokens := by
  rcases Reading.outcome_andThen_eq_error.mp failed with here | ⟨found, read, later⟩
  · exact mismatch_chainStart? customless here
  · cases found with
    | none => cases later
    | some found =>
        obtain ⟨first, behind⟩ := found
        rcases Reading.outcome_andThen_eq_error.mp later with linked | ⟨_, _, impossible⟩
        · obtain ⟨rest, suffix, fails⟩ := exists_step_of_many_eq_error advances_link? linked
          exact (mismatch_link? customless fails).ofSuffix
            (suffix.trans (chainStart?_behind read).suffix)
        · cases impossible

theorem mismatch_member
    (failed : (member rules readList tokens).outcome = .error .parenthesesMismatch) :
    MismatchIn readList tokens := by
  rcases Reading.outcome_andThen_eq_error.mp failed with here | ⟨found, _, later⟩
  · exact (mismatch_complex? customless here).ofSuffix (skipBlanks_suffix tokens)
  · cases found with
    | some found => cases later
    | none => exact absurd (Except.error.inj later) (unexpected_ne_mismatch _)

theorem mismatch_furtherMember?
    (failed : (furtherMember? rules readList tokens).outcome = .error .parenthesesMismatch) :
    MismatchIn readList tokens := by
  unfold furtherMember? at failed
  split at failed
  · cases failed
  · next rest start =>
      have suffix := skipBlanks_suffix tokens
      rw [start] at suffix
      rcases Reading.outcome_andThen_eq_error.mp failed with here | ⟨_, _, impossible⟩
      · exact (mismatch_member customless here).ofSuffix ((List.suffix_cons _ _).trans suffix)
      · cases impossible
  · cases failed

/-- A list misses a parenthesis only inside an argument. -/
theorem mismatch_selectorList
    (failed : (selectorList rules readList tokens).outcome = .error .parenthesesMismatch) :
    MismatchIn readList tokens := by
  unfold selectorList at failed
  split at failed
  · cases failed
  · rcases Reading.outcome_andThen_eq_error.mp failed with
      here | ⟨⟨first, behind⟩, read, later⟩
    · exact mismatch_member customless here
    · rcases Reading.outcome_andThen_eq_error.mp later with further | ⟨_, _, impossible⟩
      · obtain ⟨rest, suffix, fails⟩ :=
          exists_step_of_many_eq_error advances_furtherMember? further
        exact (mismatch_furtherMember? customless fails).ofSuffix
          (suffix.trans (member_behind read).suffix)
      · cases impossible

end Customless

/-- Where reading misses a parenthesis, some function token at some depth has no partner. -/
theorem exists_unclosed_of_mismatch
    (customless : Customless rules)
    (failed : (parseTokens rules tokens).outcome = .error .parenthesesMismatch) :
    ∃ nested, Relation.ReflTransGen HasArgument tokens nested ∧ Unclosed nested := by
  induction h : tokens.length using Nat.strongRecOn generalizing tokens with
  | _ length inductionHypothesis =>
      rw [parseTokens_eq] at failed
      rcases mismatch_selectorList customless failed with unclosed | ⟨inside, isArgument, fails⟩
      · exact ⟨tokens, .refl, unclosed⟩
      · obtain ⟨nested, reaches, unclosed⟩ :=
          inductionHypothesis inside.length (h ▸ isArgument.shorter) fails rfl
        exact ⟨nested, .head isArgument reaches, unclosed⟩

end Mismatches

/-- Behind a function token in parenthesized tokens its argument is closed. -/
theorem Parenthesized.closed
    {tokens rest : List Token}
    {name : String}
    (parenthesized : Parenthesized tokens)
    (isFunction : .function name :: rest <:+ tokens) :
    ∃ inside behind, splitArgument? 0 rest = some (inside, behind) := by
  cases cut : splitArgument? 0 rest with
  | some parts =>
      exact ⟨parts.1, parts.2, rfl⟩
  | none =>
      obtain ⟨front, whole⟩ := isFunction
      have never := splitArgument?_eq_none_iff.mp cut rest (List.prefix_refl rest)
      have before := parenthesized.within front ⟨_, whole⟩
      have all := parenthesized.whole
      rw [← whole, List.countP_append, List.countP_append, countP_opens_cons,
        countP_closes_cons] at all
      simp only [opens, closes, Bool.toNat_true, Bool.toNat_false] at all
      omega

/-- Every argument that is cut out closes what it opens. -/
theorem parenthesized_of_hasArgument
    {tokens inside : List Token}
    (has : HasArgument tokens inside) :
    Parenthesized inside := by
  obtain ⟨_, _, _, _, cut⟩ := has
  exact closing_of_splitArgument? cut

/-- In parenthesized tokens all arguments are, however deep. -/
theorem Parenthesized.nested
    {tokens nested : List Token}
    (parenthesized : Parenthesized tokens)
    (reaches : Relation.ReflTransGen HasArgument tokens nested) :
    Parenthesized nested := by
  cases reaches with
  | refl => exact parenthesized
  | tail _ has => exact parenthesized_of_hasArgument has

/-- What is read of tokens, and of the arguments in them, misses no parenthesis. -/
structure NeverMismatches (rules : ArgumentRules) (tokens : List Token) : Prop where
  closed :
    ∀ {name rest}, .function name :: rest <:+ tokens →
      ∃ inside behind, splitArgument? 0 rest = some (inside, behind)
  reading :
    (parseTokens rules tokens).outcome ≠ .error .parenthesesMismatch
  /-- Nothing else is read in turn than the arguments in the tokens. -/
  readsArguments :
    ∀ {readList}, AgreeOn tokens (parseTokens rules) readList →
      parseTokens rules tokens = selectorList rules readList tokens

/-- Tokens that close what they open never miss a parenthesis, at any depth. -/
theorem Parenthesized.neverMismatches
    {rules : ArgumentRules}
    {tokens : List Token}
    (customless : Customless rules)
    (parenthesized : Parenthesized tokens) :
    NeverMismatches rules tokens where
  closed := parenthesized.closed
  reading failed := by
    obtain ⟨nested, reaches, name, rest, isFunction, uncut⟩ :=
      exists_unclosed_of_mismatch customless failed
    obtain ⟨inside, behind, cut⟩ := (parenthesized.nested reaches).closed isFunction
    rw [uncut] at cut
    cases cut
  readsArguments agree := by
    rw [parseTokens_eq, selectorList_congr agree]

/--
A scan for the end of an argument cuts at the parenthesis that closes it, and
fails if there is none. Inside what has been cut off no reading, at any depth,
misses a parenthesis, unless a rule is the caller's.
-/
theorem scansArgument
    (tokens : List Token)
    (start : Nat) :
    ScansArgument tokens start ∧
      ∀ {rules}, Customless rules →
        ∀ {inside position}, scanArgument tokens start = .found inside position →
          ∀ {nested}, Relation.ReflTransGen HasArgument inside nested →
            NeverMismatches rules nested := by
  have scans := scanArgument_scans tokens start
  refine ⟨scans, fun customless _ _ found _ reaches => ?_⟩
  have parenthesized := (scans.cuts found).1
  exact (parenthesized.nested reaches).neverMismatches customless

/-- The list `:is(:not(a)) b`. -/
def nestedNot : List Token :=
  [.colon, .function "is", .colon, .function "not", .ident "a", .rightParen, .rightParen,
    .whitespace, .ident "b"]

/-- The argument ends behind the second parenthesis; without that one no end is found. -/
theorem scansArgument_nestedNot :
    Customless ArgumentRules.standard ∧
      scanArgument nestedNot 2 =
        .found [.colon, .function "not", .ident "a", .rightParen] 7 ∧
      scanArgument (nestedNot.take 6) 2 = .failed .parenthesesMismatch ∧
      Relation.ReflTransGen HasArgument [.colon, .function "not", .ident "a", .rightParen]
        [.ident "a"] ∧
      ScansArgument nestedNot 2 ∧
      NeverMismatches ArgumentRules.standard [.ident "a"] := by
  have found : scanArgument nestedNot 2 =
      .found [.colon, .function "not", .ident "a", .rightParen] 7 := by
    rw [scanArgument_eq]
    decide +kernel
  have missed : scanArgument (nestedNot.take 6) 2 = .failed .parenthesesMismatch := by
    rw [scanArgument_eq]
    decide +kernel
  have reaches : Relation.ReflTransGen HasArgument
      [.colon, .function "not", .ident "a", .rightParen] [.ident "a"] :=
    .single ⟨"not", _, [], List.suffix_cons _ _, by decide +kernel⟩
  obtain ⟨scans, never⟩ := scansArgument nestedNot 2
  exact ⟨customless_standard, found, missed, reaches, scans,
    never customless_standard found reaches⟩

end TreeSelectors.Grammar
