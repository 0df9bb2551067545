import Mathlib
import TreeSelectors.Proofs.Selector.Brackets
import TreeSelectors.Proofs.Selector.Occurrence

namespace TreeSelectors.Grammar

/-!
# Attribute selectors that are left open

Every attribute selector that is read, at whatever depth, is read at a bracket
of the tokens, and every bracket there starts one: `readsBrackets_of_parseTokens`.
It may go without the bracket that closes it where its own list ends. That is
the end of all tokens, or else a parenthesis: an argument is read as if nothing
were behind it.
-/

open TreeSelectors.Parser
open TreeSelectors.Selector

/-- Every attribute selector is closed, or else only blanks follow it in all the tokens. -/
def OpenOnlyAtEnd (rules : ArgumentRules) (tokens : List Token) : Prop :=
  ∀ behind outside, OpensBracket rules tokens behind outside →
    Closed behind ∨ ∃ inside blanks, Attribute inside ∧ Blanks blanks ∧
      behind ++ outside = inside ++ blanks

/-- An attribute selector is read behind a bracket in tokens. -/
def ReadAtBracket (rules : ArgumentRules) (tokens : List Token) (test : AttributeTest) : Prop :=
  ∃ behind outside rest, OpensBracket rules tokens behind outside ∧
    attributeTest behind = .ok (test, rest)

/--
The brackets in tokens are those of the attribute selectors that are read from them. One that is
not closed is the last of its list, which ends with the tokens or with a parenthesis.
-/
structure ReadsBrackets
    (rules : ArgumentRules)
    (tokens : List Token)
    (members : List Selector) : Prop where
  read :
    ∀ member ∈ members, ∀ test, Occurs (.attribute test) member →
      ReadAtBracket rules tokens test
  finished :
    ∀ behind outside, OpensBracket rules tokens behind outside →
      Closed behind ∨
        Attribute behind ∧ (outside = [] ∨ ∃ more, outside = .rightParen :: more)

section Reading

/-- Whatever a reader of lists reads, its attribute selectors are read at brackets. -/
def ReadsAtBrackets
    (rules : ArgumentRules)
    (readList : List Token → Reading (List Selector)) : Prop :=
  ∀ inside members, (readList inside).outcome = .ok members →
    ∀ member ∈ members, ∀ test, Occurs (.attribute test) member →
      ReadAtBracket rules inside test

variable {rules : ArgumentRules} {readList : List Token → Reading (List Selector)}
  {tokens middle rest : List Token} {selector : Selector} {test : AttributeTest}

/-- An attribute selector behind a phrase is read at a bracket of the whole. -/
theorem ReadAtBracket.before
    (read : ReadAtBracket rules rest test)
    (passed : FinishesBrackets rules tokens rest) :
    ReadAtBracket rules tokens test := by
  obtain ⟨behind, outside, final, opens, found⟩ := read
  exact ⟨behind, outside, final, passed.kept opens, found⟩

/-- A combinator opens no bracket. -/
theorem finishesBrackets_explicitCombinator?
    {combinator : Combinator}
    (found : explicitCombinator? tokens = some (combinator, rest)) :
    FinishesBrackets rules tokens rest := by
  obtain ⟨char, spaces, _, onlySpaces, shape⟩ := combinator_of_explicitCombinator? found
  rw [shape]
  exact (FinishesBrackets.token rfl).trans (FinishesBrackets.blanks onlySpaces)

/-- Blanks that are skipped open no bracket. -/
theorem finishesBrackets_skipBlanks
    (tokens : List Token) :
    FinishesBrackets rules tokens (skipBlanks tokens) := by
  obtain ⟨blanks, onlyBlanks, shape⟩ := exists_blanks tokens
  have passed : FinishesBrackets rules (blanks ++ skipBlanks tokens) (skipBlanks tokens) :=
    FinishesBrackets.blanks onlyBlanks
  rwa [← shape] at passed

/-- A combinator with blanks around it opens no bracket. -/
theorem finishesBrackets_combinator?
    {combinator : Combinator}
    (found : combinator? tokens = some (combinator, rest)) :
    FinishesBrackets rules tokens rest := by
  simp only [combinator?] at found
  split at found
  · next read =>
      cases found
      exact (finishesBrackets_skipBlanks tokens).trans (finishesBrackets_explicitCombinator? read)
  · split at found
    · cases found
      exact finishesBrackets_skipBlanks tokens
    · simp at found

/--
An attribute selector in a pseudo selector is in the list it takes. Where the caller's own rule
made the list there need not be a bracket.
-/
theorem readAtBracket_pseudo?
    (customless : Customless rules)
    (readsAtBrackets : ReadsAtBrackets rules readList)
    (found : (pseudo? rules readList tokens).outcome = .ok (some (selector, rest)))
    (occurs : Occurs (.attribute test) selector) :
    ReadAtBracket rules (.colon :: tokens) test := by
  unfold pseudo? at found
  split at found
  · cases found
    cases occurs.eq_of_children_eq_nil rfl
  · next form name behind named =>
      split at found
      · simp [Reading.failure] at found
      · next inside afterwards cut =>
          obtain ⟨argument, read, same⟩ := Reading.outcome_andThen_eq_ok.mp found
          cases same
          obtain same | ⟨child, isChild, deeper⟩ := occurs_iff.mp occurs
          · cases same
          · cases argument with
            | selectors members =>
                unfold Parser.argument at read
                split at read
                · cases read
                · cases read
                · next rule =>
                    obtain ⟨_, readMembers, same⟩ := Reading.outcome_andThen_eq_ok.mp read
                    cases same
                    obtain ⟨front, outside, final, opens, tested⟩ :=
                      readsAtBrackets inside _ readMembers child isChild test deeper
                    rw [pseudoName?_cases named, splitArgument?_eq_some cut]
                    have parenthesized := closing_of_splitArgument? cut
                    rw [ruleKey_eq] at rule
                    exact ⟨front, _, final, .inFunction _ parenthesized rule opens, tested⟩
                · cases read
                · next rule => exact absurd rule (customless _ _)
            | _ => cases isChild
  · simp [Reading.value] at found

/-- What is read behind a bracket is an attribute selector, closed or not. -/
theorem attributeTest_of_bracketed
    (found : (bracketed tokens).outcome = .ok (selector, rest)) :
    ∃ test final, selector = .attribute test ∧ attributeTest tokens = .ok (test, final) := by
  unfold bracketed at found
  split at found
  · simp [Reading.failure] at found
  · next read =>
      cases found
      exact ⟨_, _, rfl, read⟩
  · next read =>
      cases found
      exact ⟨_, _, rfl, read⟩
  · simp [Reading.failure] at found

/-- A simple selector with an attribute selector in it is read at the bracket of that one. -/
theorem readAtBracket_simple?
    (customless : Customless rules)
    (readsAtBrackets : ReadsAtBrackets rules readList)
    (found : (simple? rules readList tokens).outcome = .ok (some (selector, rest)))
    (occurs : Occurs (.attribute test) selector) :
    ReadAtBracket rules tokens test := by
  unfold simple? at found
  split at found
  · simp [Reading.failure] at found
  · next read =>
      cases found
      unfold typeSelector? at read
      split at read
      · simp at read
      · cases read
        cases occurs.eq_of_children_eq_nil rfl
      · cases read
        cases occurs.eq_of_children_eq_nil rfl
      · simp at read
  · split at found
    · cases found
      cases occurs.eq_of_children_eq_nil rfl
    · cases found
      cases occurs.eq_of_children_eq_nil rfl
    · next behind _ =>
        obtain ⟨⟨bracket, final⟩, read, same⟩ := Reading.outcome_andThen_eq_ok.mp found
        cases same
        obtain ⟨other, final, isAttribute, tested⟩ := attributeTest_of_bracketed read
        subst isAttribute
        cases occurs.eq_of_children_eq_nil rfl
        exact ⟨behind, [], final, .here behind, tested⟩
    · exact readAtBracket_pseudo? customless readsAtBrackets found occurs
    · simp [Reading.value] at found

variable (customless : Customless rules) (readsLists : ReadsLists rules readList)
  (readsAtBrackets : ReadsAtBrackets rules readList)

include customless readsLists readsAtBrackets

/-- Each member of a compound is read where the ones before it end. -/
theorem readAtBracket_compound?
    (found : (compound? rules readList tokens).outcome = .ok (some (selector, rest)))
    (occurs : Occurs (.attribute test) selector) :
    ReadAtBracket rules tokens test := by
  obtain ⟨⟨members, behind⟩, read, same⟩ := Reading.outcome_andThen_eq_ok.mp found
  have placed : ∀ member ∈ members, Occurs (.attribute test) member →
      ReadAtBracket rules tokens test := by
    refine many_induction advances_simple? (motive := fun tokens members _ =>
      ∀ member ∈ members, Occurs (.attribute test) member → ReadAtBracket rules tokens test)
      ?_ ?_ read
    · intro tokens _ member isMember
      cases isMember
    · intro tokens first middle members rest readFirst later member isMember occurs
      rcases List.mem_cons.mp isMember with isFirst | isLater
      · subst isFirst
        exact readAtBracket_simple? customless readsAtBrackets readFirst occurs
      · have passed := FinishesBrackets.ofDerives (simple_of_simple? readsLists readFirst)
        exact (later member isLater occurs).before passed
  simp only [Reading.pure_eq_value, Reading.value, Except.ok.injEq, Option.map_eq_some_iff,
    Prod.mk.injEq] at same
  obtain ⟨whole, shape, isWhole, _⟩ := same
  subst isWhole
  unfold compoundOf? at shape
  split at shape
  · cases shape
  · cases shape
    exact placed _ List.mem_cons_self occurs
  · cases shape
    obtain same | ⟨child, isChild, deeper⟩ := occurs_iff.mp occurs
    · cases same
    · exact placed child isChild deeper

/-- An attribute selector in a chain is in what it starts with or in one of its links. -/
theorem readAtBracket_links
    {links : List (Combinator × Selector)}
    (found : (many (link? rules readList) tokens).outcome = .ok (links, rest)) :
    ∀ first, Occurs (.attribute test) (chain first links) →
      Occurs (.attribute test) first ∨ ReadAtBracket rules tokens test := by
  refine many_induction advances_link? (motive := fun tokens links _ => ∀ first,
    Occurs (.attribute test) (chain first links) →
      Occurs (.attribute test) first ∨ ReadAtBracket rules tokens test) ?_ ?_ found
  · intro tokens _ first occurs
    exact Or.inl occurs
  · intro tokens link middle links rest read later first occurs
    unfold link? at read
    split at read
    · simp [Reading.value] at read
    · next combinator behind combined =>
        obtain ⟨right, compound, read⟩ := Reading.outcome_andThen_eq_ok.mp read
        split at read
        · cases read
          have passed : FinishesBrackets rules tokens behind :=
            finishesBrackets_combinator? combined
          have passedCompound :=
            FinishesBrackets.ofDerives (compound_of_compound? readsLists compound)
          rcases later _ occurs with inChain | isLater
          · obtain same | ⟨child, isChild, deeper⟩ := occurs_iff.mp inChain
            · cases same
            · rcases List.mem_cons.mp isChild with isLeft | isRight
              · exact Or.inl (isLeft ▸ deeper)
              · rw [List.mem_singleton.mp isRight] at deeper
                have inRight := readAtBracket_compound? customless readsLists readsAtBrackets
                  compound deeper
                exact Or.inr (inRight.before passed)
          · exact Or.inr (isLater.before (passed.trans passedCompound))
        · split at read
          · simp [Reading.value] at read
          · simp [Reading.failure] at read

/-- The start of a chain is read behind its combinator, if it has one. -/
theorem readAtBracket_chainStart?
    (found : (chainStart? rules readList tokens).outcome = .ok (some (selector, rest)))
    (occurs : Occurs (.attribute test) selector) :
    ReadAtBracket rules tokens test := by
  unfold chainStart? at found
  split at found
  · exact readAtBracket_compound? customless readsLists readsAtBrackets found occurs
  · next combined =>
      obtain ⟨right, compound, found⟩ := Reading.outcome_andThen_eq_ok.mp found
      split at found
      · cases found
        obtain same | ⟨child, isChild, deeper⟩ := occurs_iff.mp occurs
        · cases same
        · rw [List.mem_singleton.mp isChild] at deeper
          have inRight := readAtBracket_compound? customless readsLists readsAtBrackets
            compound deeper
          exact inRight.before (finishesBrackets_explicitCombinator? combined)
      · simp [Reading.failure] at found

omit customless readsAtBrackets in
theorem finishesBrackets_chainStart?
    (found : (chainStart? rules readList tokens).outcome = .ok (some (selector, rest))) :
    FinishesBrackets rules tokens rest := by
  unfold chainStart? at found
  split at found
  · exact FinishesBrackets.ofDerives (compound_of_compound? readsLists found)
  · next combined =>
      obtain ⟨right, compound, found⟩ := Reading.outcome_andThen_eq_ok.mp found
      split at found
      · cases found
        exact (finishesBrackets_explicitCombinator? combined).trans
          (FinishesBrackets.ofDerives (compound_of_compound? readsLists compound))
      · simp [Reading.failure] at found

/-- A member of a list is read behind its blanks. -/
theorem readAtBracket_member
    (found : (member rules readList tokens).outcome = .ok (selector, rest))
    (occurs : Occurs (.attribute test) selector) :
    ReadAtBracket rules tokens test := by
  obtain ⟨whole, read, found⟩ := Reading.outcome_andThen_eq_ok.mp found
  split at found
  · cases found
    obtain ⟨start, started, read⟩ := Reading.outcome_andThen_eq_ok.mp read
    split at read
    · simp [Reading.value] at read
    · next first behind =>
        obtain ⟨⟨links, final⟩, linked, same⟩ := Reading.outcome_andThen_eq_ok.mp read
        cases same
        refine ReadAtBracket.before ?_ (finishesBrackets_skipBlanks tokens)
        rcases readAtBracket_links customless readsLists readsAtBrackets linked first occurs with
          inFirst | isLater
        · exact readAtBracket_chainStart? customless readsLists readsAtBrackets started inFirst
        · exact isLater.before (finishesBrackets_chainStart? readsLists started)
  · simp [Reading.failure] at found

omit customless readsAtBrackets in
theorem finishesBrackets_member
    (found : (member rules readList tokens).outcome = .ok (selector, rest)) :
    FinishesBrackets rules tokens rest :=
  (finishesBrackets_skipBlanks tokens).trans
    (FinishesBrackets.ofDerives (complex_of_member readsLists found))

/-- Each further member is read behind its comma. -/
theorem readAtBracket_furtherMembers
    {members : List Selector}
    (found : (many (furtherMember? rules readList) tokens).outcome = .ok (members, rest)) :
    ∀ selector ∈ members, Occurs (.attribute test) selector →
      ReadAtBracket rules tokens test := by
  refine many_induction advances_furtherMember? (motive := fun tokens members _ =>
    ∀ selector ∈ members, Occurs (.attribute test) selector → ReadAtBracket rules tokens test)
    ?_ ?_ found
  · intro tokens _ selector isMember
    cases isMember
  · intro tokens first middle members rest read later selector isMember occurs
    unfold furtherMember? at read
    split at read
    · simp [Reading.value] at read
    · next behind comma =>
        obtain ⟨_, readMember, same⟩ := Reading.outcome_andThen_eq_ok.mp read
        cases same
        have passed : FinishesBrackets rules tokens behind := by
          have skipped : FinishesBrackets rules tokens (skipBlanks tokens) :=
            finishesBrackets_skipBlanks tokens
          rw [comma] at skipped
          exact skipped.trans (FinishesBrackets.token rfl)
        rcases List.mem_cons.mp isMember with isFirst | isLater
        · subst isFirst
          have inFirst := readAtBracket_member customless readsLists readsAtBrackets
            readMember occurs
          exact inFirst.before passed
        · exact (later selector isLater occurs).before
            (passed.trans (finishesBrackets_member readsLists readMember))
    · simp [Reading.failure] at read

/-- A list reads every attribute selector at a bracket if the lists in arguments do. -/
theorem readsAtBrackets_selectorList :
    ReadsAtBrackets rules (selectorList rules readList) := by
  intro tokens members found member isMember test occurs
  unfold selectorList at found
  split at found
  · cases found
    cases isMember
  · obtain ⟨⟨first, behind⟩, read, found⟩ := Reading.outcome_andThen_eq_ok.mp found
    obtain ⟨⟨others, final⟩, readOthers, same⟩ := Reading.outcome_andThen_eq_ok.mp found
    cases same
    rcases List.mem_cons.mp isMember with isFirst | isOther
    · subst isFirst
      exact readAtBracket_member customless readsLists readsAtBrackets read occurs
    · have inOther := readAtBracket_furtherMembers customless readsLists readsAtBrackets
        readOthers member isOther occurs
      exact inOther.before (finishesBrackets_member readsLists read)

end Reading

section Lists

variable {rules : ArgumentRules} {tokens : List Token} {members : List Selector}

/-- A bracket in an accepted list starts an attribute selector, and the list ends if it is open. -/
theorem finished_of_parseTokens
    {behind outside : List Token}
    (found : (parseTokens rules tokens).outcome = .ok members)
    (opens : OpensBracket rules tokens behind outside) :
    Closed behind ∨
      Attribute behind ∧ (outside = [] ∨ ∃ more, outside = .rightParen :: more) := by
  rcases (FinishesBrackets.ofDerives (list_of_parseTokens found)).finished opens with
    (closed | isAttribute) | impossible
  · exact Or.inl closed
  · exact Or.inr ⟨isAttribute, opens.outside_cases⟩
  · exact absurd impossible not_opensBracket_nil

/-- Every attribute selector of a list is read at a bracket, and no other bracket is there. -/
theorem readsBrackets_of_parseTokens
    (customless : Customless rules)
    (found : (parseTokens rules tokens).outcome = .ok members) :
    ReadsBrackets rules tokens members := by
  refine ⟨?_, fun _ _ opens => finished_of_parseTokens found opens⟩
  have both := parseTokens_induction (motive := fun tokens members =>
    Derives rules .list tokens [] ∧ ∀ member ∈ members, ∀ test,
      Occurs (.attribute test) member → ReadAtBracket rules tokens test) ?_ found
  · exact both.2
  · intro readList readsInside tokens members read
    have readsLists : ReadsLists rules readList :=
      fun inside members read => (readsInside inside members read).1
    have readsAtBrackets : ReadsAtBrackets rules readList :=
      fun inside members read => (readsInside inside members read).2
    exact ⟨list_of_selectorList readsLists read,
      readsAtBrackets_selectorList customless readsLists readsAtBrackets tokens members read⟩

/-- A parenthesis is neither in an attribute selector nor a blank. -/
theorem rightParen_not_mem
    {inside blanks : List Token}
    (isAttribute : Attribute inside)
    (areBlanks : Blanks blanks) :
    .rightParen ∉ inside ++ blanks := by
  intro isMember
  rcases List.mem_append.mp isMember with isInside | isBlank
  · exact absurd (isInert_of_attribute isAttribute _ isInside) (by decide)
  · exact absurd (areBlanks _ isBlank) (by decide)

/-- No attribute selector is left open before the end exactly if those in arguments are closed. -/
theorem openOnlyAtEnd_iff
    (found : (parseTokens rules tokens).outcome = .ok members) :
    OpenOnlyAtEnd rules tokens ↔
      ∀ behind outside, OpensBracket rules tokens behind outside → outside ≠ [] →
        Closed behind := by
  constructor
  · intro atEnd behind outside opens nested
    rcases atEnd behind outside opens with
      closed | ⟨inside, blanks, isAttribute, areBlanks, same⟩
    · exact closed
    · obtain nothing | ⟨more, ends⟩ := opens.outside_cases
      · exact absurd nothing nested
      · refine absurd ?_ (rightParen_not_mem isAttribute areBlanks)
        rw [← same, ends]
        simp
  · intro closed behind outside opens
    by_cases top : outside = []
    · rcases finished_of_parseTokens found opens with
        isClosed | ⟨isAttribute, _⟩
      · exact Or.inl isClosed
      · refine Or.inr ⟨behind, [], isAttribute, List.forall_mem_nil _, ?_⟩
        rw [top]
    · exact Or.inl (closed behind outside opens top)

/--
The attribute selectors of a text are closed or end their lists, for a table without a rule of the
caller's own. All that are open have nothing but blanks behind them in the text exactly if none is
open in an argument.
-/
theorem brackets_of_parse
    (customless : Customless rules)
    {text : String}
    (read : parse rules text = .ok members) :
    ∃ tokens, tokenize text = .ok tokens ∧
      ReadsBrackets rules tokens members ∧
      (OpenOnlyAtEnd rules tokens ↔
        ∀ behind outside, OpensBracket rules tokens behind outside → outside ≠ [] →
          Closed behind) := by
  obtain ⟨tokens, cut, found⟩ := parse_eq_ok_iff.mp read
  exact ⟨tokens, tokenize_eq_ok_iff.mpr cut, readsBrackets_of_parseTokens customless found,
    openOnlyAtEnd_iff found⟩

/-- Attribute selectors in an argument and behind it, one in each place left open. -/
def openAttributes : List Selector :=
  [.pseudo .pseudoClass "not" (.selectors [
      .attribute ⟨"a", none, none, none, none⟩,
      .complex (.typeName "b" none) .descendant (.attribute ⟨"c", none, none, none, none⟩)]),
    .attribute ⟨"d", none, none, none, none⟩]

/--
An argument with an open attribute selector in it, and one behind it that the end leaves open.
-/
theorem brackets_of_parse_nested :
    Customless .standard ∧ parse .standard ":not([a], b [c ), [d" = .ok openAttributes ∧
      ∃ tokens, tokenize ":not([a], b [c ), [d" = .ok tokens ∧
        ReadsBrackets .standard tokens openAttributes ∧
        (OpenOnlyAtEnd .standard tokens ↔
          ∀ behind outside, OpensBracket .standard tokens behind outside → outside ≠ [] →
            Closed behind) := by
  have read : parse .standard ":not([a], b [c ), [d" = .ok openAttributes := by
    decide +kernel
  exact ⟨customless_standard, read, brackets_of_parse customless_standard read⟩

/-- In `:is([a)` a parenthesis follows the attribute selector that is left open. -/
theorem not_openOnlyAtEnd_argument :
    parse .standard ":is([a)" =
        .ok [.pseudo .pseudoClass "is"
          (.selectors [.attribute ⟨"a", none, none, none, none⟩])] ∧
      tokenize ":is([a)" =
        .ok [.colon, .function "is", .leftBracket, .ident "a", .rightParen] ∧
      ¬ OpenOnlyAtEnd .standard
        [.colon, .function "is", .leftBracket, .ident "a", .rightParen] := by
  have read : parse .standard ":is([a)" =
      .ok [.pseudo .pseudoClass "is"
        (.selectors [.attribute ⟨"a", none, none, none, none⟩])] := by
    decide +kernel
  have cut : tokenize ":is([a)" =
      .ok [.colon, .function "is", .leftBracket, .ident "a", .rightParen] := by
    decide +kernel
  refine ⟨read, cut, fun atEnd => ?_⟩
  have parenthesized : Parenthesized [.leftBracket, .ident "a"] :=
    parenthesized_iff_balanced.mpr (Balanced.plain (by decide))
  have rule : ArgumentRules.standard.get? (argumentKey .pseudoClass "is") = some .selectorList := by
    cbv
  have opens : OpensBracket .standard
      [.colon, .function "is", .leftBracket, .ident "a", .rightParen] [.ident "a"] [.rightParen] :=
    .inFunction [] parenthesized rule (.here [.ident "a"])
  rcases atEnd _ _ opens with
    ⟨inside, rest, _, same⟩ | ⟨inside, blanks, isAttribute, areBlanks, same⟩
  · have closing : Token.rightBracket ∈ [Token.ident "a"] := by
      rw [same]
      simp
    exact absurd closing (by decide)
  · refine absurd ?_ (rightParen_not_mem isAttribute areBlanks)
    rw [← same]
    simp

end Lists

end TreeSelectors.Grammar
