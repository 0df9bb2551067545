import TreeSelectors.Proofs.Selector.Grammar
import TreeSelectors.Proofs.Selector.ReadBack
import TreeSelectors.Proofs.Selector.Respelling

namespace TreeSelectors.Selector

/-!
# The shape of what is read

Whatever is read with a table of rules fits it, and the tokens that are written
for it respell those it has been read from. Each part of the reader is followed
by what it makes of its tokens; `Spells` is the step from one to the next.
-/

open TreeSelectors.Parser
open TreeSelectors.Token

/-- Tokens that are read up to others respell, with all that follows, as what is written. -/
def Spells (tokens written rest : List Token) : Prop :=
  ∀ later, Respelled rest later → Respelled tokens (written ++ later)

namespace Spells

variable {tokens middle rest written further : List Token}

/-- Reading nothing is spelt by writing nothing. -/
theorem nothing
    (tokens : List Token) :
    Spells tokens [] tokens :=
  fun _ respelled => respelled

/-- What is read one behind the other is spelt one behind the other. -/
theorem andThen
    (first : Spells tokens written middle)
    (second : Spells middle further rest) :
    Spells tokens (written ++ further) rest := by
  intro later respelled
  rw [List.append_assoc]
  exact first _ (second later respelled)

/-- A token is spelt by itself, unless it is a blank. -/
theorem token
    {token : Token}
    (notBlank : token ≠ .whitespace) :
    Spells (token :: rest) [token] rest :=
  fun _ respelled => Respelled.cons notBlank respelled

/-- A token in front of what is read is written in front of it. -/
theorem cons
    {token : Token}
    (notBlank : token ≠ .whitespace)
    (spells : Spells tokens written rest) :
    Spells (token :: tokens) (token :: written) rest :=
  (Spells.token notBlank).andThen spells

end Spells

section Blanks

theorem isWhitespace_iff
    {token : Token} :
    token.isWhitespace = true ↔ token = .whitespace := by
  cases token <;> simp [Token.isWhitespace]

/-- Once blanks are skipped none stands first. -/
theorem head?_skipBlanks
    (tokens : List Token) :
    (skipBlanks tokens).head? ≠ some .whitespace := by
  intro blank
  have notBlank := List.head?_dropWhile_not Token.isWhitespace tokens
  rw [← skipBlanks, blank] at notBlank
  exact absurd notBlank (by decide)

variable {tokens written : List Token}

/-- A run of blanks is written as one blank or as none. -/
theorem respelled_blanks
    {spaced : List Token}
    (atMostOne : spaced = [] ∨ spaced = [.whitespace])
    (respelled : Respelled (skipBlanks tokens) written)
    (writeOn : written.head? ≠ some .whitespace) :
    Respelled tokens (spaced ++ written) := by
  have whole : tokens.takeWhile Token.isWhitespace ++ skipBlanks tokens = tokens :=
    List.takeWhile_append_dropWhile
  have onlyBlanks : ∀ token ∈ tokens.takeWhile Token.isWhitespace, token = .whitespace := by
    intro token member
    exact isWhitespace_iff.mp (List.all_eq_true.mp List.all_takeWhile token member)
  have together := Respelled.blanks onlyBlanks atMostOne (head?_skipBlanks tokens) writeOn respelled
  rwa [whole] at together

/-- Blanks that are read need not be written. -/
theorem respelled_skipBlanks
    (respelled : Respelled (skipBlanks tokens) written)
    (writeOn : written.head? ≠ some .whitespace) :
    Respelled tokens written :=
  respelled_blanks (Or.inl rfl) respelled writeOn

/-- A blank is written whether there are any or not. -/
theorem respelled_whitespace
    (respelled : Respelled (skipBlanks tokens) written)
    (writeOn : written.head? ≠ some .whitespace) :
    Respelled tokens (.whitespace :: written) :=
  respelled_blanks (Or.inr rfl) respelled writeOn

end Blanks

section Types

/-- Tokens that start with a bar and something named behind it. -/
def startsNamedBar : List Token → Bool
  | .delim '|' :: token :: _ => isNamed token
  | _ => false

variable {tokens rest : List Token}

/-- What stands before a bar is a namespace only if a name or `*` stands behind it. -/
theorem qualified?_named
    {qualifier name : String}
    (found : qualified? qualifier tokens = .ok (some (name, rest))) :
    name = qualifier ∧ rest = tokens ∧ ∃ token others, tokens = token :: others ∧
      isNamed token = true := by
  unfold qualified? at found
  split at found
  · cases found
    exact ⟨rfl, rfl, _, _, rfl, rfl⟩
  · cases found
    exact ⟨rfl, rfl, _, _, rfl, rfl⟩
  · simp at found
  · simp at found

/-- Where there is none, what follows the bar is not a name. -/
theorem qualified?_none
    {qualifier : String}
    (found : qualified? qualifier tokens = .ok none) :
    startsNamedBar (.delim '|' :: tokens) = false := by
  unfold qualified? at found
  split at found
  · simp at found
  · simp at found
  · rfl
  · simp at found

/-- The ways to write a namespace and its bar. -/
theorem qualifier?_cases
    {name : String}
    (found : qualifier? tokens = .ok (some (name, rest))) :
    (tokens = .ident name :: .delim '|' :: rest ∨
      tokens = .delim '*' :: .delim '|' :: rest ∧ name = "*" ∨
      tokens = .delim '|' :: rest ∧ name = "") ∧
      startsNamedBar (.delim '|' :: rest) = true := by
  unfold qualifier? at found
  split at found
  · obtain ⟨same, kept, token, others, shape, named⟩ := qualified?_named found
    subst same
    subst kept
    exact ⟨Or.inl rfl, by rw [shape]; exact named⟩
  · obtain ⟨same, kept, token, others, shape, named⟩ := qualified?_named found
    subst same
    subst kept
    exact ⟨Or.inr (Or.inl ⟨rfl, rfl⟩), by rw [shape]; exact named⟩
  · obtain ⟨same, kept, token, others, shape, named⟩ := qualified?_named found
    subst same
    subst kept
    exact ⟨Or.inr (Or.inr ⟨rfl, rfl⟩), by rw [shape]; exact named⟩
  · simp at found

/-- Where a name is read without a namespace, no bar with a name behind it follows. -/
theorem startsNamedBar_of_qualifier?_none
    {token : Token}
    {others : List Token}
    (found : qualifier? (token :: others) = .ok none)
    (named : isNamed token = true) :
    startsNamedBar others = false := by
  unfold qualifier? at found
  split at found
  · next shape =>
      rw [(List.cons.inj shape).2]
      exact qualified?_none found
  · next shape =>
      rw [(List.cons.inj shape).2]
      exact qualified?_none found
  · next shape =>
      rw [(List.cons.inj shape).1] at named
      exact absurd named (by decide)
  · next noName noStar noBar =>
      rw [Bool.eq_false_iff]
      intro starts
      unfold startsNamedBar at starts
      split at starts
      · cases token with
        | ident name => exact noName name _ rfl
        | delim char =>
            have star : char = '*' := by
              simpa [isNamed] using named
            subst star
            exact noStar _ rfl
        | _ => exact absurd named (by simp [isNamed])
      · exact absurd starts (by simp)

/-- The name of a namespace is written as a name, or as a star however it has been read. -/
theorem spells_qualifierTokens
    (wellFormed : AllWellFormed tokens)
    {qualifier : Option String}
    (found : optionalQualifier tokens = .ok (qualifier, rest)) :
    Spells tokens (qualifierTokens qualifier) rest ∧
      (qualifier = some "" → startsNamedBar tokens = true) ∧
      (qualifier = none → rest = tokens ∧ qualifier? tokens = .ok none) := by
  unfold optionalQualifier at found
  split at found
  · simp at found
  · next name behind read =>
      cases found
      obtain ⟨shape, named⟩ := qualifier?_cases read
      refine ⟨?_, ?_, by simp⟩
      · intro later respelled
        rw [qualifierTokens]
        rcases shape with ident | ⟨star, same⟩ | ⟨bar, same⟩
        · subst ident
          have nonempty : name ≠ "" := by
            intro empty
            subst empty
            exact (wellFormed _ List.mem_cons_self).1 rfl
          have bar := Respelled.cons (show Token.delim '|' ≠ .whitespace by simp) respelled
          split
          · next star =>
              subst star
              exact Respelled.anyNode bar
          · exact Respelled.cons (by simp) bar
        · subst star
          subst same
          exact Respelled.cons (by simp) (Respelled.cons (by simp) respelled)
        · subst bar
          subst same
          exact Respelled.cons (by simp) respelled
      · intro empty
        cases empty
        rcases shape with ident | ⟨star, same⟩ | ⟨bar, same⟩
        · subst ident
          exact absurd rfl (wellFormed _ List.mem_cons_self).1
        · exact absurd same (by decide)
        · rw [bar]
          exact named
  · next read =>
      cases found
      exact ⟨Spells.nothing _, by simp, fun _ => ⟨rfl, read⟩⟩

/-- A type selector that starts with a bar has the empty namespace. -/
theorem qualifier_of_startsBar
    {name : String}
    {qualifier : Option String}
    (starts : startsBar (.typeName name qualifier) = true) :
    qualifier = some "" := by
  unfold startsBar at starts
  split at starts
  · next same => exact (Selector.typeName.inj same).2
  · exact absurd starts (by simp)

/-- A type selector that would take a bar behind it as its own has no namespace. -/
theorem qualifier_of_takesBar
    {name : String}
    {qualifier : Option String}
    (takes : takesBar (.typeName name qualifier) = true) :
    qualifier = none := by
  cases qualifier with
  | none => rfl
  | some qualifier => exact absurd takes (by simp [takesBar])

/-- A node name as it is read and written. -/
theorem spells_typeName
    (wellFormed : AllWellFormed tokens)
    {selector : Selector}
    (found : typeSelector? tokens = .ok (some (selector, rest))) :
    ∃ name qualifier, selector = .typeName name qualifier ∧
      Spells tokens selector.tokens rest ∧
      (startsBar selector = true → startsNamedBar tokens = true) ∧
      (takesBar selector = true → startsNamedBar rest = false) := by
  unfold typeSelector? at found
  split at found
  · simp at found
  · next qualifier name behind read =>
      cases found
      obtain ⟨spells, starts, none⟩ := spells_qualifierTokens wellFormed read
      refine ⟨name, qualifier, rfl, ?_, fun bar => starts (qualifier_of_startsBar bar),
        fun takes => ?_⟩
      · rw [Selector.tokens]
        refine spells.andThen fun later respelled => ?_
        rw [nameToken]
        split
        · next star =>
            subst star
            exact Respelled.anyNode respelled
        · exact Respelled.cons (by simp) respelled
      · obtain ⟨same, noQualifier⟩ := none (qualifier_of_takesBar takes)
        rw [← same] at noQualifier
        exact startsNamedBar_of_qualifier?_none noQualifier rfl
  · next qualifier behind read =>
      cases found
      obtain ⟨spells, starts, none⟩ := spells_qualifierTokens wellFormed read
      refine ⟨"*", qualifier, rfl, ?_, fun bar => starts (qualifier_of_startsBar bar),
        fun takes => ?_⟩
      · rw [Selector.tokens]
        exact spells.andThen fun later respelled => Respelled.cons (by simp) respelled
      · obtain ⟨same, noQualifier⟩ := none (qualifier_of_takesBar takes)
        rw [← same] at noQualifier
        exact startsNamedBar_of_qualifier?_none noQualifier rfl
  · simp at found

end Types

section Attributes

variable {tokens rest later : List Token}

/-- A matcher that is read is the one of the mark in front of the equals sign. -/
theorem attributeMatcher?_cases
    {matcher : AttributeMatcher}
    (found : attributeMatcher? tokens = some (matcher, rest)) :
    tokens = matcherTokens matcher ++ rest ∧ AttributeMatcher.ofMark matcher.mark? = matcher ∧
      matcher.mark? ≠ some '=' := by
  unfold attributeMatcher? at found
  split at found
  · cases found
    exact ⟨rfl, rfl, by decide⟩
  · next char behind notEquals =>
      cases found
      refine ⟨?_, by rw [AttributeMatcher.mark?_ofMark], ?_⟩
      · rw [matcherTokens, AttributeMatcher.mark?_ofMark]
        rfl
      · rw [AttributeMatcher.mark?_ofMark]
        intro same
        exact notEquals (by rw [Option.some.inj same])
  · simp at found

theorem respelled_matcherTokens
    (matcher : AttributeMatcher)
    (respelled : Respelled rest later) :
    Respelled (matcherTokens matcher ++ rest) (matcherTokens matcher ++ later) := by
  rw [matcherTokens]
  cases matcher.mark? with
  | none => exact Respelled.cons (by simp) respelled
  | some char => exact Respelled.cons (by simp) (Respelled.cons (by simp) respelled)

theorem head?_matcherTokens
    (matcher : AttributeMatcher)
    (rest : List Token) :
    (matcherTokens matcher ++ rest).head? ≠ some .whitespace := by
  rw [matcherTokens]
  cases matcher.mark? <;> simp

theorem head?_qualifierTokens
    (qualifier : Option String)
    {token : Token}
    (notBlank : token ≠ .whitespace)
    (rest : List Token) :
    (qualifierTokens qualifier ++ token :: rest).head? ≠ some .whitespace := by
  cases qualifier with
  | none => simpa [qualifierTokens] using notBlank
  | some qualifier =>
      rw [qualifierTokens]
      split
      · simp
      split
      · simp
      · simp

/-- A value is written as a string however it has been read. -/
theorem respelled_attributeValue
    {value : String}
    (found : attributeValue? tokens = some (value, rest))
    (respelled : Respelled rest later) :
    Respelled tokens (.string value :: later) := by
  unfold attributeValue? at found
  split at found
  · cases found
    exact Respelled.cons (by simp) respelled
  · cases found
    exact Respelled.quoted _ respelled
  · simp at found

/-- A flag is written in lower case with a blank in front of it. -/
theorem respelled_modifierTokens
    {modifier : Option CaseModifier}
    (found : optionalModifier (skipBlanks tokens) = (modifier, rest))
    (respelled : Respelled rest later)
    (writeOn : later.head? ≠ some .whitespace) :
    Respelled tokens (modifierTokens modifier ++ later) := by
  have lowered : ∀ {name : String} {modifier : CaseModifier},
      Text.eqIgnoringAsciiCase name (String.singleton modifier.char) = true →
        Text.asciiLower name = String.singleton modifier.char := by
    intro name modifier same
    rw [beq_iff_eq.mp same]
    apply String.toList_injective
    cases modifier <;> simp [Text.asciiLower, CaseModifier.char]
  unfold optionalModifier at found
  split at found
  · next read flag =>
      cases found
      refine respelled_whitespace ?_ (by simp)
      have behind := respelled_skipBlanks respelled writeOn
      unfold caseModifier? at flag
      split at flag
      · next name _ shape =>
          rw [shape]
          split at flag
          · next same =>
              cases flag
              exact Respelled.flag .insensitive (lowered same) behind
          · split at flag
            · next same =>
                cases flag
                exact Respelled.flag .sensitive (lowered same) behind
            · simp at flag
      · simp at flag
  · cases found
    exact respelled_skipBlanks respelled writeOn

/-- The matcher, value and flag of an attribute as they are read and written. -/
theorem spells_conditionTokens
    {name : String}
    {qualifier : Option String}
    {test : AttributeTest}
    (found : attributeCondition name qualifier (skipBlanks tokens) = .ok (test, rest)) :
    (test.name = name ∧ test.qualifier = qualifier) ∧ FitsAttribute test ∧
      ∀ {later : List Token}, Respelled rest later → later.head? ≠ some .whitespace →
        Respelled tokens (conditionTokens test ++ later) := by
  unfold attributeCondition at found
  split at found
  · cases found
    exact ⟨⟨rfl, rfl⟩, ⟨rfl, rfl⟩, fun respelled => respelled_skipBlanks respelled⟩
  · next matcher behind matched =>
      obtain ⟨shape, fits⟩ := attributeMatcher?_cases matched
      split at found
      · simp at found
      · next value afterValue valued =>
          cases found
          refine ⟨⟨rfl, rfl⟩, ⟨by simp, fits⟩, fun respelled writeOn => ?_⟩
          have flag : Respelled afterValue (modifierTokens _ ++ _) :=
            respelled_modifierTokens rfl respelled writeOn
          have value := respelled_skipBlanks (respelled_attributeValue valued flag) (by simp)
          have matcher := respelled_matcherTokens matcher value
          rw [← shape] at matcher
          simpa [conditionTokens] using respelled_skipBlanks matcher (head?_matcherTokens _ _)

/-- What stands in the brackets of an attribute selector as it is read and written. -/
theorem spells_attributeTest
    (wellFormed : AllWellFormed tokens)
    {test : AttributeTest}
    (found : attributeTest tokens = .ok (test, rest)) :
    FitsAttribute test ∧
      ∀ {later : List Token}, Respelled rest later → later.head? ≠ some .whitespace →
        Respelled tokens (qualifierTokens test.qualifier ++ .ident test.name ::
          conditionTokens test ++ later) := by
  unfold attributeTest at found
  split at found
  · simp at found
  · next qualifier name behind read =>
      obtain ⟨⟨nameSame, qualifierSame⟩, fits, condition⟩ :=
        spells_conditionTokens found
      have inside : AllWellFormed (skipBlanks tokens) :=
        fun token member => wellFormed token ((skipBlanks_suffix tokens).subset member)
      obtain ⟨spells, _⟩ := spells_qualifierTokens inside read
      refine ⟨fits, fun respelled writeOn => ?_⟩
      have named := Respelled.cons (show Token.ident name ≠ .whitespace by simp)
        (condition respelled writeOn)
      rw [nameSame, qualifierSame, List.append_assoc, List.cons_append]
      exact respelled_skipBlanks (spells _ named) (head?_qualifierTokens _ (by simp) _)
  · simp at found

/-- An attribute selector as it is read and written, closed in any case. -/
theorem spells_attribute
    (wellFormed : AllWellFormed tokens)
    {selector : Selector}
    (found : (bracketed tokens).outcome = .ok (selector, rest)) :
    ∃ test, selector = .attribute test ∧ FitsAttribute test ∧
      Spells (.leftBracket :: tokens) selector.tokens rest := by
  have closed : ∀ {test : AttributeTest} {behind : List Token},
      attributeTest tokens = .ok (test, behind) →
      (∀ {later : List Token}, Respelled rest later →
        Respelled behind (.rightBracket :: later)) →
      FitsAttribute test ∧ Spells (.leftBracket :: tokens) (attributeTokens test) rest := by
    intro test behind read close
    obtain ⟨fits, spells⟩ := spells_attributeTest wellFormed read
    refine ⟨fits, fun later respelled => ?_⟩
    have inside := spells (close respelled) (by simp)
    have opened := Respelled.cons (show Token.leftBracket ≠ .whitespace by simp) inside
    simpa [attributeTokens] using opened
  unfold bracketed at found
  split at found
  · simp [Reading.failure] at found
  · next test behind read =>
      cases found
      obtain ⟨fits, spells⟩ := closed read fun respelled => Respelled.cons (by simp) respelled
      exact ⟨test, rfl, fits, spells⟩
  · next test read =>
      cases found
      obtain ⟨fits, spells⟩ :=
        closed read fun respelled => Respelled.bracket (by simp) respelled
      exact ⟨test, rfl, fits, spells⟩
  · simp [Reading.failure] at found

end Attributes

/-- What is cut off at some depth closes that many parentheses, at whatever depth it stands. -/
theorem splitArgument?_inside
    {depth : Nat}
    {tokens inside behind : List Token}
    (found : splitArgument? depth tokens = some (inside, behind))
    (extra : Nat)
    (rest : List Token) :
    splitArgument? (depth + extra) (inside ++ rest) =
      (splitArgument? extra rest).map fun found => (inside ++ found.1, found.2) := by
  induction tokens generalizing depth inside with
  | nil =>
      simp [splitArgument?] at found
  | cons token tokens inductionHypothesis =>
      rcases Grammar.exists_step depth token with ⟨isZero, isClosing⟩ | ⟨after, step⟩
      · subst isZero
        subst isClosing
        cases found
        rw [Nat.zero_add]
        exact Balanced.nil extra rest
      · rw [Grammar.splitArgument?_cons step] at found
        obtain ⟨⟨first, second⟩, read, same⟩ := Option.map_eq_some_iff.mp found
        cases same
        have deeper : depth + extra + (Grammar.opens token).toNat =
            after + extra + (Grammar.closes token).toNat := by
          omega
        rw [List.cons_append, Grammar.splitArgument?_cons deeper, inductionHypothesis read,
          Option.map_map]
        rfl

/-- The tokens cut off as an argument are balanced. -/
theorem balanced_splitArgument?
    {tokens inside behind : List Token}
    (found : splitArgument? 0 tokens = some (inside, behind)) :
    Balanced inside := by
  intro depth rest
  simpa using splitArgument?_inside found depth rest

/-- What holds of every repetition of a step holds if it does of none and of one more. -/
theorem many_induction
    {α : Type}
    {step : List Token → Reading (Option (α × List Token))}
    (advances : Advances step)
    {motive : List Token → List α → List Token → Prop}
    (none : ∀ tokens, (step tokens).outcome = .ok none → motive tokens [] tokens)
    (more : ∀ tokens item middle items rest, (step tokens).outcome = .ok (some (item, middle)) →
      motive middle items rest → motive tokens (item :: items) rest)
    {tokens rest : List Token}
    {items : List α}
    (found : (many step tokens).outcome = .ok (items, rest)) :
    motive tokens items rest := by
  induction h : tokens.length using Nat.strongRecOn generalizing tokens items with
  | _ length inductionHypothesis =>
      rw [many_eq advances, Reading.outcome_andThen_eq_ok] at found
      obtain ⟨next, read, found⟩ := found
      match next with
      | .none =>
          cases found
          exact none _ read
      | some (item, middle) =>
          obtain ⟨⟨others, final⟩, later, same⟩ := Reading.outcome_andThen_eq_ok.mp found
          cases same
          have shorter := (advances tokens item middle read).shorter
          exact more tokens item middle others rest read
            (inductionHypothesis _ (h ▸ shorter) later rfl)

section Reader

variable {rules : ArgumentRules} {readList : List Token → Reading (List Selector)}

/-- No rule of a table is one that the caller supplied. -/
def Customless (rules : ArgumentRules) : Prop :=
  ∀ key read, rules.get? key ≠ some (.custom read)

/-- Whatever a reader of lists reads fits the rules, and its tokens respell those it has read. -/
def ReadsShape (rules : ArgumentRules) (readList : List Token → Reading (List Selector)) : Prop :=
  ∀ inside members, AllWellFormed inside → (readList inside).outcome = .ok members →
    FitsList rules members ∧ Respelled inside (listTokens members)

variable {tokens rest : List Token} {selector : Selector}

/-- An argument as it is read and written, with the name in front of it. -/
theorem spells_argument
    (customless : Customless rules)
    (readsShape : ReadsShape rules readList)
    {form : PseudoForm}
    {name : String}
    {inside : List Token}
    (behind : List Token)
    (wellFormed : AllWellFormed inside)
    (balanced : Balanced inside)
    {found : Argument}
    (read : (argument rules readList form name inside).outcome = .ok found) :
    FitsArgument rules (rules.get? (ruleKey form name)) found ∧
      Spells (.function name :: (inside ++ .rightParen :: behind)) (argumentTokens name found)
        behind := by
  have kept : Spells (.function name :: (inside ++ .rightParen :: behind))
      (.function name :: inside ++ [.rightParen]) behind := by
    intro later respelled
    have notBlank : Token.rightParen ≠ .whitespace := by
      simp
    simpa using Respelled.kept (.function name :: inside) notBlank respelled
  unfold argument at read
  cases lookup : rules.get? (ruleKey form name) with
  | none =>
      rw [lookup] at read
      cases read
      exact ⟨balanced, kept⟩
  | some rule =>
      rw [lookup] at read
      cases rule with
      | raw =>
          cases read
          exact ⟨balanced, kept⟩
      | selectorList =>
          obtain ⟨members, readMembers, same⟩ := Reading.outcome_andThen_eq_ok.mp read
          cases same
          obtain ⟨fits, respelled⟩ := readsShape inside members wellFormed readMembers
          refine ⟨fits, fun later respelledLater => ?_⟩
          have closed := respelled.append (Respelled.cons (by simp) respelledLater)
          have opens : Token.function name ≠ .whitespace := by
            simp
          simpa [argumentTokens] using Respelled.cons opens closed
      | anPlusB =>
          cases read
          exact ⟨balanced, kept⟩
      | custom readNode =>
          exact absurd lookup (customless _ _)

/-- A pseudo selector as it is read and written. -/
theorem spells_pseudo
    (customless : Customless rules)
    (readsShape : ReadsShape rules readList)
    (wellFormed : AllWellFormed tokens)
    (found : (pseudo? rules readList tokens).outcome = .ok (some (selector, rest))) :
    ∃ form name argument, selector = .pseudo form name argument ∧
      FitsArgument rules (rules.get? (ruleKey form name)) argument ∧
      Spells (.colon :: tokens) selector.tokens rest := by
  have colons : ∀ {form : PseudoForm} {token : Token} {behind : List Token},
      pseudoName? tokens = some (form, token, behind) →
      Spells (.colon :: tokens) (colonTokens form) (token :: behind) := by
    intro form token behind named
    unfold pseudoName? at named
    split at named <;> cases named
    · exact Spells.cons (by simp) (Spells.token (by simp))
    · exact Spells.cons (by simp) (Spells.token (by simp))
    · exact Spells.token (by simp)
    · exact Spells.token (by simp)
  unfold pseudo? at found
  split at found
  · next form name behind named =>
      cases found
      exact ⟨form, name, .absent, rfl, by simp [FitsArgument],
        (colons named).andThen (Spells.token (by simp))⟩
  · next form name behind named =>
      split at found
      · simp [Reading.failure] at found
      · next inside afterwards cut =>
          obtain ⟨argument, read, same⟩ := Reading.outcome_andThen_eq_ok.mp found
          cases same
          have shape := splitArgument?_eq_some cut
          have insideTokens : AllWellFormed inside := by
            intro token member
            refine wellFormed token ((pseudoName?_behind named).suffix.subset ?_)
            rw [shape]
            exact List.mem_append_left _ member
          obtain ⟨fits, spells⟩ := spells_argument customless readsShape rest
            insideTokens (balanced_splitArgument? cut) read
          rw [← shape] at spells
          exact ⟨form, name, argument, rfl, fits, (colons named).andThen spells⟩
  · simp [Reading.value] at found

/-- A simple selector as it is read and written, and the bars it has to do with. -/
structure SpellsSimple (rules : ArgumentRules) (tokens : List Token) (selector : Selector)
    (rest : List Token) : Prop where
  fits :
    Fits rules .simple selector
  spells :
    Spells tokens selector.tokens rest
  starts :
    startsBar selector = true → startsNamedBar tokens = true
  takes :
    takesBar selector = true → startsNamedBar rest = false

/-- A simple selector that is read is spelt by its tokens, up to blanks. -/
theorem spells_simple
    (customless : Customless rules)
    (readsShape : ReadsShape rules readList)
    (wellFormed : AllWellFormed tokens)
    (found : (simple? rules readList tokens).outcome = .ok (some (selector, rest))) :
    SpellsSimple rules tokens selector rest := by
  unfold simple? at found
  split at found
  · simp [Reading.failure] at found
  · next read =>
      cases found
      obtain ⟨name, qualifier, same, spells, starts, takes⟩ := spells_typeName wellFormed read
      subst same
      exact ⟨by simp [Fits], spells, starts, takes⟩
  · split at found
    · next name kind behind _ =>
        cases found
        exact ⟨by simp [Fits], fun _ respelled => Respelled.identifier name kind respelled,
          by simp [startsBar], by simp [takesBar]⟩
    · next name behind _ =>
        cases found
        exact ⟨by simp [Fits], Spells.cons (by simp) (Spells.token (by simp)),
          by simp [startsBar], by simp [takesBar]⟩
    · next behind _ =>
        obtain ⟨_, read, same⟩ := Reading.outcome_andThen_eq_ok.mp found
        cases same
        obtain ⟨_, inside⟩ := List.forall_mem_cons.mp wellFormed
        obtain ⟨test, same, fits, spells⟩ := spells_attribute inside read
        subst same
        exact ⟨by simpa [Fits] using fits, spells, by simp [startsBar], by simp [takesBar]⟩
    · next behind _ =>
        obtain ⟨_, inside⟩ := List.forall_mem_cons.mp wellFormed
        obtain ⟨form, name, argument, same, fits, spells⟩ :=
          spells_pseudo customless readsShape inside found
        subst same
        exact ⟨by simpa [Fits] using fits, spells, by simp [startsBar], by simp [takesBar]⟩
    · simp [Reading.value] at found

/-- The tokens of a suffix are well-formed if all are. -/
theorem allWellFormed_of_suffix
    (wellFormed : AllWellFormed tokens)
    (suffix : rest <:+ tokens) :
    AllWellFormed rest :=
  fun token member => wellFormed token (suffix.subset member)

/-- Simple selectors in a row as they are read and written. -/
theorem spells_members
    (customless : Customless rules)
    (readsShape : ReadsShape rules readList)
    (wellFormed : AllWellFormed tokens)
    {members : List Selector}
    (found : (many (simple? rules readList) tokens).outcome = .ok (members, rest)) :
    FitsEach rules members ∧ Spells tokens (compoundTokens members) rest ∧ KeepsBars members ∧
      (∀ first ∈ members.head?, startsBar first = true → startsNamedBar tokens = true) := by
  revert wellFormed
  refine many_induction advances_simple?
    (motive := fun tokens members rest => AllWellFormed tokens → FitsEach rules members ∧
      Spells tokens (compoundTokens members) rest ∧ KeepsBars members ∧
      (∀ first ∈ members.head?, startsBar first = true → startsNamedBar tokens = true))
        ?_ ?_ found
  · intro tokens _ _
    exact ⟨trivial, Spells.nothing tokens, trivial, by simp⟩
  · intro tokens member middle members rest read later wellFormed
    have first := spells_simple customless readsShape wellFormed read
    obtain ⟨fits, spells, keepsBars, starts⟩ :=
      later (allWellFormed_of_suffix wellFormed (simple?_behind read).suffix)
    refine ⟨⟨first.fits, fits⟩, first.spells.andThen spells, ?_, ?_⟩
    · cases members with
      | nil => trivial
      | cons second members =>
          refine ⟨?_, keepsBars⟩
          rintro ⟨takes, startsSecond⟩
          have bar := starts second rfl startsSecond
          rw [first.takes takes] at bar
          exact absurd bar (by simp)
    · intro head isHead
      cases isHead
      exact first.starts

/-- What fits among simple selectors fits wherever more is allowed. -/
theorem fits_of_simple
    (fits : Fits rules .simple selector)
    (layer : Layer) :
    Fits rules layer selector := by
  cases selector with
  | list members => exact fits.elim
  | complex left combinator right => exact fits.elim
  | relative combinator right => exact fits.elim
  | compound members => exact fits.elim
  | _ => cases layer <;> exact fits

/-- A compound as it is read and written. -/
theorem spells_compound
    (customless : Customless rules)
    (readsShape : ReadsShape rules readList)
    (wellFormed : AllWellFormed tokens)
    (found : (compound? rules readList tokens).outcome = .ok (some (selector, rest))) :
    Fits rules .compound selector ∧ Spells tokens selector.tokens rest := by
  obtain ⟨⟨members, behind⟩, read, same⟩ := Reading.outcome_andThen_eq_ok.mp found
  simp only [Reading.pure_eq_value, Reading.value, Except.ok.injEq, Option.map_eq_some_iff,
    Prod.mk.injEq] at same
  obtain ⟨whole, shape, same, kept⟩ := same
  subst same
  subst kept
  obtain ⟨fits, spells, keepsBars, _⟩ := spells_members customless readsShape wellFormed read
  rcases members with _ | ⟨simple, _ | ⟨second, others⟩⟩
  · simp [compoundOf?] at shape
  · cases shape
    refine ⟨fits_of_simple fits.1 .compound, ?_⟩
    simpa [compoundTokens] using spells
  · cases shape
    exact ⟨⟨by simp, fits, keepsBars⟩, spells⟩

/-- A compound does not start with a blank. -/
theorem head?_tokens_of_compound
    (fits : Fits rules .compound selector)
    (rest : List Token) :
    (selector.tokens ++ rest).head? ≠ some .whitespace := by
  have reads : ReadsCompound rules selector := readsLayer_of_fits selector .compound fits
  obtain ⟨first, others, shape, starts⟩ := reads.starts
  rw [shape, List.cons_append, List.head?_cons]
  intro blank
  rw [Option.some.inj blank] at starts
  exact absurd starts (by simp [startsSimple])

/-- A combinator that is read is a character and the blanks behind it. -/
theorem explicitCombinator?_cases
    {combinator : Combinator}
    (found : explicitCombinator? tokens = some (combinator, rest)) :
    combinator ≠ .descendant ∧
      ∃ behind, tokens = .delim combinator.char :: behind ∧ rest = skipBlanks behind := by
  unfold explicitCombinator? at found
  split at found
  · obtain ⟨_, read, same⟩ := Option.map_eq_some_iff.mp found
    cases same
    obtain ⟨explicit, same⟩ := Combinator.ofDelim?_eq_some_iff.mp read
    exact ⟨explicit, _, by rw [same], rfl⟩
  · simp at found

/-- A combinator that is written out, as it is read and written. -/
theorem respelled_explicitCombinator
    {combinator : Combinator}
    (found : explicitCombinator? tokens = some (combinator, rest))
    {later : List Token}
    (respelled : Respelled rest later)
    (writeOn : later.head? ≠ some .whitespace) :
    Respelled tokens (combinatorTokens combinator ++ later) := by
  obtain ⟨explicit, behind, shape, same⟩ := explicitCombinator?_cases found
  subst shape
  subst same
  have spaced := respelled_whitespace respelled writeOn
  cases combinator with
  | descendant => exact absurd rfl explicit
  | _ => exact Respelled.cons (by simp) spaced

/-- A combinator with its blanks as it is read and written. -/
theorem respelled_combinator
    {combinator : Combinator}
    (found : combinator? tokens = some (combinator, rest))
    {later : List Token}
    (respelled : Respelled rest later)
    (writeOn : later.head? ≠ some .whitespace) :
    Respelled tokens (.whitespace :: combinatorTokens combinator ++ later) := by
  simp only [combinator?] at found
  split at found
  · next pair read =>
      cases found
      have explicit := (explicitCombinator?_cases read).1
      refine respelled_whitespace (respelled_explicitCombinator read respelled writeOn) ?_
      cases combinator with
      | descendant => exact absurd rfl explicit
      | _ => simp [combinatorTokens]
  · split at found
    · cases found
      exact respelled_whitespace respelled writeOn
    · simp at found

/-- A link of a chain as it is read and written. -/
theorem spells_link
    (customless : Customless rules)
    (readsShape : ReadsShape rules readList)
    (wellFormed : AllWellFormed tokens)
    {link : Combinator × Selector}
    (found : (link? rules readList tokens).outcome = .ok (some (link, rest))) :
    Fits rules .compound link.2 ∧ Spells tokens (linkTokens link) rest := by
  unfold link? at found
  split at found
  · simp [Reading.value] at found
  · next combinator behind read =>
      obtain ⟨middle, compound, found⟩ := Reading.outcome_andThen_eq_ok.mp found
      split at found
      · next right final =>
          cases found
          have inside := allWellFormed_of_suffix wellFormed (combinator?_suffix read)
          obtain ⟨fits, spells⟩ := spells_compound customless readsShape inside compound
          refine ⟨fits, fun later respelled => ?_⟩
          have written := respelled_combinator read (spells later respelled)
            (head?_tokens_of_compound fits later)
          simpa [linkTokens] using written
      · split at found
        · simp [Reading.value] at found
        · simp [Reading.failure] at found

/-- The start of a chain as it is read and written. -/
theorem spells_chainStart
    (customless : Customless rules)
    (readsShape : ReadsShape rules readList)
    (wellFormed : AllWellFormed tokens)
    (found : (chainStart? rules readList tokens).outcome = .ok (some (selector, rest))) :
    Fits rules .chain selector ∧ Spells tokens selector.tokens rest := by
  unfold chainStart? at found
  split at found
  · obtain ⟨fits, spells⟩ := spells_compound customless readsShape wellFormed found
    refine ⟨?_, spells⟩
    cases selector with
    | compound members => exact fits
    | list members => exact fits.elim
    | complex left combinator right => exact fits.elim
    | relative combinator right => exact fits.elim
    | _ => exact fits
  · next combinator behind read =>
      obtain ⟨middle, compound, found⟩ := Reading.outcome_andThen_eq_ok.mp found
      split at found
      · next right final =>
          cases found
          have inside := allWellFormed_of_suffix wellFormed (explicitCombinator?_behind read).suffix
          obtain ⟨fits, spells⟩ := spells_compound customless readsShape inside compound
          refine ⟨⟨(explicitCombinator?_cases read).1, fits⟩, fun later respelled => ?_⟩
          rw [Selector.tokens, List.append_assoc]
          exact respelled_explicitCombinator read (spells later respelled)
            (head?_tokens_of_compound fits later)
      · simp [Reading.failure] at found

/-- A chain fits if its start and its links do, and is written as they are. -/
theorem fits_chain
    {first : Selector}
    (fits : Fits rules .chain first)
    {links : List (Combinator × Selector)}
    (each : ∀ link ∈ links, Fits rules .compound link.2) :
    Fits rules .chain (chain first links) ∧
      (chain first links).tokens = first.tokens ++ links.flatMap linkTokens := by
  induction links generalizing first with
  | nil => exact ⟨fits, by simp [chain]⟩
  | cons link links inductionHypothesis =>
      obtain ⟨head, tail⟩ := List.forall_mem_cons.mp each
      have longer : Fits rules .chain (.complex first link.1 link.2) := ⟨fits, head⟩
      obtain ⟨fitsWhole, same⟩ := inductionHypothesis longer tail
      refine ⟨fitsWhole, ?_⟩
      have step : chain first (link :: links) = chain (.complex first link.1 link.2) links := rfl
      rw [step, same]
      simp [Selector.tokens, linkTokens]

/-- A chain as it is read and written. -/
theorem spells_chain
    (customless : Customless rules)
    (readsShape : ReadsShape rules readList)
    (wellFormed : AllWellFormed tokens)
    (found : (complex? rules readList tokens).outcome = .ok (some (selector, rest))) :
    Fits rules .chain selector ∧ Spells tokens selector.tokens rest := by
  obtain ⟨middle, start, found⟩ := Reading.outcome_andThen_eq_ok.mp found
  split at found
  · simp [Reading.value] at found
  · next first behind =>
      obtain ⟨⟨links, final⟩, linked, same⟩ := Reading.outcome_andThen_eq_ok.mp found
      cases same
      obtain ⟨fits, spells⟩ := spells_chainStart customless readsShape wellFormed start
      have inside := allWellFormed_of_suffix wellFormed (chainStart?_behind start).suffix
      have linksRead : (∀ link ∈ links, Fits rules .compound link.2) ∧
          Spells behind (links.flatMap linkTokens) rest := by
        revert inside
        refine many_induction advances_link? (motive := fun tokens links rest =>
          AllWellFormed tokens → (∀ link ∈ links, Fits rules .compound link.2) ∧
            Spells tokens (links.flatMap linkTokens) rest) ?_ ?_ linked
        · intro tokens _ _
          exact ⟨List.forall_mem_nil _, Spells.nothing tokens⟩
        · intro tokens link middle links rest read later wellFormed
          obtain ⟨head, spellsHead⟩ := spells_link customless readsShape wellFormed read
          obtain ⟨tail, spellsTail⟩ :=
            later (allWellFormed_of_suffix wellFormed (advances_link? _ _ _ read).suffix)
          exact ⟨List.forall_mem_cons.mpr ⟨head, tail⟩, spellsHead.andThen spellsTail⟩
      obtain ⟨fitsWhole, written⟩ := fits_chain fits linksRead.1
      refine ⟨fitsWhole, ?_⟩
      rw [written]
      exact spells.andThen linksRead.2

/-- No chain is written with a blank at its start. -/
theorem head?_tokens_of_chain
    (fits : Fits rules .chain selector)
    (rest : List Token) :
    (selector.tokens ++ rest).head? ≠ some .whitespace := by
  have chain : ReadsChain rules selector := readsLayer_of_fits selector .chain fits
  obtain ⟨start, links, reads⟩ := chain
  obtain ⟨token, others, shape, notBlank⟩ := reads.starts
  rw [reads.tokens, shape, List.cons_append, List.cons_append, List.head?_cons]
  intro blank
  rw [Option.some.inj blank] at notBlank
  exact absurd notBlank (by decide)

/-- A member of a list as it is read and written, with a blank in front of it or without. -/
theorem spells_member
    (customless : Customless rules)
    (readsShape : ReadsShape rules readList)
    (wellFormed : AllWellFormed tokens)
    (found : (member rules readList tokens).outcome = .ok (selector, rest)) :
    Fits rules .chain selector ∧ Spells tokens selector.tokens rest ∧
      Spells tokens (.whitespace :: selector.tokens) rest := by
  obtain ⟨middle, read, found⟩ := Reading.outcome_andThen_eq_ok.mp found
  split at found
  · cases found
    have inside := allWellFormed_of_suffix wellFormed (skipBlanks_suffix tokens)
    obtain ⟨fits, spells⟩ := spells_chain customless readsShape inside read
    refine ⟨fits, fun later respelled => ?_, fun later respelled => ?_⟩
    · exact respelled_skipBlanks (spells later respelled) (head?_tokens_of_chain fits later)
    · exact respelled_whitespace (spells later respelled) (head?_tokens_of_chain fits later)
  · simp [Reading.failure] at found

/-- Blanks alone are written as nothing. -/
theorem respelled_nil
    (onlyBlanks : skipBlanks tokens = []) :
    Respelled tokens [] :=
  respelled_skipBlanks (by rw [onlyBlanks]; exact Respelled.done) (by simp)

/-- Members behind the first as they are read and written. -/
theorem spells_furtherMembers
    (customless : Customless rules)
    (readsShape : ReadsShape rules readList)
    (wellFormed : AllWellFormed tokens)
    {members : List Selector}
    (found : (many (furtherMember? rules readList) tokens).outcome = .ok (members, rest)) :
    FitsList rules members ∧ Respelled tokens (furtherTokens members) := by
  revert wellFormed
  refine many_induction advances_furtherMember? (motive := fun tokens members _ =>
    AllWellFormed tokens → FitsList rules members ∧ Respelled tokens (furtherTokens members))
    ?_ ?_ found
  · intro tokens ended _
    refine ⟨trivial, ?_⟩
    unfold furtherMember? at ended
    split at ended
    · next nothing => exact respelled_nil nothing
    · obtain ⟨_, _, impossible⟩ := Reading.outcome_andThen_eq_ok.mp ended
      cases impossible
    · simp [Reading.failure] at ended
  · intro tokens selector middle members rest read later wellFormed
    unfold furtherMember? at read
    split at read
    · simp [Reading.value] at read
    · next behind comma =>
        obtain ⟨_, readMember, same⟩ := Reading.outcome_andThen_eq_ok.mp read
        cases same
        have afterBlanks := allWellFormed_of_suffix wellFormed (skipBlanks_suffix tokens)
        rw [comma] at afterBlanks
        obtain ⟨_, inside⟩ := List.forall_mem_cons.mp afterBlanks
        obtain ⟨fits, _, spells⟩ := spells_member customless readsShape inside readMember
        obtain ⟨fitsLater, respelled⟩ :=
          later (allWellFormed_of_suffix inside (member_behind readMember).suffix)
        refine ⟨⟨fits, fitsLater⟩, ?_⟩
        have written := Respelled.cons (show Token.comma ≠ .whitespace by simp)
            (spells _ respelled)
        rw [← comma] at written
        exact respelled_skipBlanks written (by simp [furtherTokens])
    · simp [Reading.failure] at read

/-- A whole list as it is read and written. -/
theorem spells_list
    (customless : Customless rules)
    (readsShape : ReadsShape rules readList)
    (wellFormed : AllWellFormed tokens)
    {members : List Selector}
    (found : (selectorList rules readList tokens).outcome = .ok members) :
    FitsList rules members ∧ Respelled tokens (listTokens members) := by
  unfold selectorList at found
  split at found
  · next nothing =>
      cases found
      exact ⟨trivial, respelled_nil (List.isEmpty_iff.mp nothing)⟩
  · obtain ⟨⟨first, behind⟩, read, found⟩ := Reading.outcome_andThen_eq_ok.mp found
    obtain ⟨⟨others, final⟩, readOthers, same⟩ := Reading.outcome_andThen_eq_ok.mp found
    cases same
    obtain ⟨fits, spells, _⟩ := spells_member customless readsShape wellFormed read
    have inside := allWellFormed_of_suffix wellFormed (member_behind read).suffix
    obtain ⟨fitsOthers, respelled⟩ :=
      spells_furtherMembers customless readsShape inside readOthers
    exact ⟨⟨fits, fitsOthers⟩, spells _ respelled⟩

end Reader

/--
What holds of every list that is read holds if it does whenever it does of the
lists inside parentheses.
-/
theorem parseTokens_induction
    {rules : ArgumentRules}
    {motive : List Token → List Selector → Prop}
    (step : ∀ readList : List Token → Reading (List Selector),
      (∀ inside members, (readList inside).outcome = .ok members → motive inside members) →
      ∀ tokens members, (selectorList rules readList tokens).outcome = .ok members →
        motive tokens members)
    {tokens : List Token}
    {members : List Selector}
    (found : (parseTokens rules tokens).outcome = .ok members) :
    motive tokens members := by
  induction h : tokens.length using Nat.strongRecOn generalizing tokens members with
  | _ length inductionHypothesis =>
      -- Arguments are shorter than the whole, so that a reader of shorter lists reads the same.
      let shorter : List Token → Reading (List Selector) := fun inside =>
        if inside.length < tokens.length then parseTokens rules inside
        else .failure .parenthesesMismatch
      have agree : AgreeOn tokens (parseTokens rules) shorter := by
        intro inside isArgument
        simp only [shorter, if_pos isArgument.shorter]
      rw [parseTokens_eq, selectorList_congr agree] at found
      refine step shorter ?_ tokens members found
      intro inside members read
      by_cases short : inside.length < tokens.length
      · simp only [shorter, if_pos short] at read
        exact inductionHypothesis _ (h ▸ short) read rfl
      · simp [shorter, if_neg short, Reading.failure] at read

/-- Whatever list is read fits the rules, and its tokens respell those it has been read from. -/
theorem readsShape_parseTokens
    {rules : ArgumentRules}
    (customless : Customless rules) :
    ReadsShape rules (parseTokens rules) := by
  intro tokens members wellFormed found
  refine parseTokens_induction (motive := fun tokens members => AllWellFormed tokens →
    FitsList rules members ∧ Respelled tokens (listTokens members)) ?_ found wellFormed
  intro readList readsInside tokens members found wellFormed
  have readsShape : ReadsShape rules readList := by
    intro inside members insideTokens read
    exact readsInside inside members read insideTokens
  exact spells_list customless readsShape wellFormed found

end TreeSelectors.Selector
