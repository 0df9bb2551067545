import TreeSelectors.Proofs.Selector.FlatPhrases
import TreeSelectors.Proofs.Selector.RoundTrip

namespace TreeSelectors.Grammar

/-!
# What derives from the grammar is read

The reader never goes back, so that a phrase is read to its end only if nothing
behind it can belong to it: `Accepted` says what has to stand there. The one
phrase that may be read on in any case is a bare name, which a bar behind it
turns into a namespace; what follows that bar is then a phrase of its own.
-/

open TreeSelectors.Parser
open TreeSelectors.Selector

section Repetition

variable {α : Type} {step : List Token → Reading (Option (α × List Token))}

/-- Where a step declines at once, repeating it gives nothing. -/
theorem many_of_none
    (advances : Advances step)
    {tokens : List Token}
    (read : (step tokens).outcome = .ok none) :
    (many step tokens).outcome = .ok ([], tokens) := by
  rw [many_eq advances]
  exact Reading.outcome_andThen_eq_ok.mpr ⟨none, read, rfl⟩

/-- A repetition that reads something is a step and a repetition behind it. -/
theorem many_cons_iff
    (advances : Advances step)
    {tokens rest : List Token}
    {item : α}
    {items : List α} :
    (many step tokens).outcome = .ok (item :: items, rest) ↔
      ∃ middle, (step tokens).outcome = .ok (some (item, middle)) ∧
        (many step middle).outcome = .ok (items, rest) := by
  rw [many_eq advances, Reading.outcome_andThen_eq_ok]
  constructor
  · rintro ⟨next, read, found⟩
    match next with
    | none =>
        cases found
    | some (first, middle) =>
        obtain ⟨⟨others, final⟩, later, same⟩ := Reading.outcome_andThen_eq_ok.mp found
        cases same
        exact ⟨middle, read, later⟩
  · rintro ⟨middle, read, later⟩
    exact ⟨_, read, Reading.outcome_andThen_eq_ok.mpr ⟨_, later, rfl⟩⟩

end Repetition

section Ends

/-- The tokens behind a compound go on with none of its members. -/
def endsMembers : List Token → Bool
  | [] => true
  | .whitespace :: _ => true
  | .comma :: _ => true
  | .delim char :: _ => combinators.contains char
  | _ => false

/-- The tokens start with one that a simple selector starts with. -/
def StartsSimple (tokens : List Token) : Prop :=
  ∃ first others, tokens = first :: others ∧ startsSimple first = true

variable {rules : ArgumentRules} {tokens rest : List Token}

/-- No simple selector starts with a blank. -/
theorem skipBlanks_of_startsSimple
    (starts : StartsSimple tokens) :
    skipBlanks tokens = tokens := by
  obtain ⟨first, others, shape, simple⟩ := starts
  rw [shape]
  exact skipBlanks_cons (isWhitespace_of_startsSimple simple) others

/-- The delimiters of the grammar that are combinators are those of the parser. -/
theorem combinators_cases
    {char : Char}
    (member : char ∈ combinators) :
    ∃ combinator : Combinator, combinator ≠ .descendant ∧
      Combinator.ofDelim? char = some combinator := by
  unfold combinators at member
  simp only [List.mem_cons, List.not_mem_nil, or_false] at member
  rcases member with child | next | subsequent
  · subst child
    exact ⟨.child, by simp, rfl⟩
  · subst next
    exact ⟨.nextSibling, by simp, rfl⟩
  · subst subsequent
    exact ⟨.subsequentSibling, by simp, rfl⟩

/-- Where a compound ends, no simple selector is read. -/
theorem simple?_of_endsMembers
    (ends : endsMembers rest = true) :
    simple? rules (parseTokens rules) rest = .value none := by
  unfold endsMembers at ends
  split at ends
  · rfl
  · rfl
  · rfl
  · next char others =>
      have member : char ∈ combinators := List.contains_iff_mem.mp ends
      simp only [combinators, List.mem_cons, List.not_mem_nil, or_false] at member
      rcases member with child | next | subsequent
      · subst child
        rfl
      · subst next
        rfl
      · subst subsequent
        rfl
  · exact absurd ends (by simp)

/-- A bar behind a compound can only be the start of a matcher. -/
theorem noBar_of_endsMembers
    {others : List Token}
    (ends : endsMembers rest = true)
    (bar : rest = .delim '|' :: others) :
    ∃ more, others = .delim '=' :: more := by
  rw [bar] at ends
  exact absurd ends (by simp [endsMembers, combinators])

/-- Where a chain ends no combinator is written out. -/
theorem explicitCombinator?_of_endsChain
    (ends : endsChain rest = true) :
    explicitCombinator? rest = none := by
  unfold endsChain at ends
  split at ends
  · rfl
  · rfl
  · exact absurd ends (by simp)

/-- What ends a chain, with blanks in front of it or without, ends its last compound. -/
theorem endsMembers_of_endsChain
    (ends : endsChain (skipBlanks rest) = true) :
    endsMembers rest = true := by
  cases rest with
  | nil => rfl
  | cons token rest =>
      by_cases blank : token.isWhitespace = true
      · rw [isWhitespace_iff.mp blank]
        rfl
      · rw [skipBlanks_cons (Bool.eq_false_iff.mpr blank)] at ends
        unfold endsChain at ends
        split at ends
        · next shape => cases shape
        · next shape =>
            cases shape
            rfl
        · exact absurd ends (by simp)

/-- Where a chain ends, at most blanks are taken for a combinator, and given back. -/
theorem link?_of_endsChain_skipBlanks
    (ends : endsChain (skipBlanks rest) = true) :
    (link? rules (parseTokens rules) rest).outcome = .ok none := by
  unfold link?
  simp only [combinator?, explicitCombinator?_of_endsChain ends]
  split
  · rfl
  · next combinator behind read =>
      split at read
      · cases read
        simp only [compound?, many_simple?_of_endsCompound (endsCompound_of_endsChain ends),
          Reading.bind_eq_andThen, Reading.value_andThen, Reading.pure_eq_value]
        rfl
      · cases read

end Ends

/-- What the reader makes of a phrase, where nothing behind it can belong to it. -/
def Accepted (rules : ArgumentRules) : Symbol → List Token → List Token → Prop
  | .simple, tokens, rest =>
      StartsSimple tokens ∧
        ((∃ selector, (simple? rules (parseTokens rules) tokens).outcome =
          .ok (some (selector, rest))) ∨ ∃ token, Named token ∧ tokens = token :: rest)
  | .compound, tokens, rest =>
      StartsSimple tokens ∧ (endsMembers rest = true →
        ∃ first others, (many (simple? rules (parseTokens rules)) tokens).outcome =
          .ok (first :: others, rest))
  | .links, tokens, rest =>
      endsChain (skipBlanks rest) = true → endsMembers tokens = true ∧
        ∃ links, (many (link? rules (parseTokens rules)) tokens).outcome = .ok (links, rest)
  | .complex, tokens, rest =>
      skipBlanks tokens = tokens ∧ (endsChain (skipBlanks rest) = true →
        ∃ selector, (complex? rules (parseTokens rules) tokens).outcome =
          .ok (some (selector, rest)))
  | .furtherMembers, tokens, _ =>
      endsChain (skipBlanks tokens) = true ∧
        ∃ members behind, (many (furtherMember? rules (parseTokens rules)) tokens).outcome =
          .ok (members, behind)
  | .list, tokens, _ =>
      ∃ members, (parseTokens rules tokens).outcome = .ok members

section Phrases

variable {rules : ArgumentRules} {tokens middle rest : List Token}

/-- A node name is read, with a namespace in front of it or without. -/
theorem accepted_typeName
    {qualifier : List Token}
    {token : Token}
    (isQualifier : OptionalQualifier qualifier)
    (named : Named token) :
    Accepted rules .simple (qualifier ++ token :: rest) rest := by
  have starts : ∀ {token : Token}, Named token → startsSimple token = true := by
    intro token named
    cases named with
    | ident name => rfl
    | star => rfl
  rcases isQualifier with none | isQualifier
  · subst none
    exact ⟨⟨token, rest, rfl, starts named⟩, Or.inr ⟨token, named, rfl⟩⟩
  · have nonempty : qualifier ≠ [] := by
      intro none
      subst none
      cases isQualifier
    have read := simple?_typeName rules (Or.inr isQualifier) named rest fun none =>
      absurd none nonempty
    refine ⟨?_, Or.inl read⟩
    cases isQualifier with
    | bare => exact ⟨_, _, rfl, rfl⟩
    | named isName => exact ⟨_, _, rfl, starts isName⟩

/-- An attribute selector is read up to its bracket or the end of the tokens. -/
theorem simple?_bracketed
    (rules : ArgumentRules)
    {inside : List Token}
    (isAttribute : Attribute inside)
    (ends : endsAttribute rest = true) :
    ∃ selector, (simple? rules (parseTokens rules) (.leftBracket :: (inside ++ rest))).outcome =
      .ok (some (selector, rest.tail)) := by
  obtain ⟨test, read⟩ := attributeTest_append isAttribute ends
  refine ⟨.attribute test, ?_⟩
  refine Reading.outcome_andThen_eq_ok.mpr ⟨(.attribute test, rest.tail), ?_, rfl⟩
  rw [bracketed, read]
  rcases endsAttribute_cases ends with nothing | ⟨more, bracket⟩
  · subst nothing
    rfl
  · subst bracket
    rfl

/-- The colons of a pseudo selector and its name, read apart. -/
theorem pseudoName?_append
    (form : PseudoForm)
    {token : Token}
    (isName : (∃ name, token = .ident name) ∨ ∃ name, token = .function name)
    (rest : List Token) :
    ∃ behind, form.colons.map (fun _ => .colon) ++ token :: rest = .colon :: behind ∧
      pseudoName? behind = some (form, token, rest) := by
  rcases isName with ⟨name, same⟩ | ⟨name, same⟩ <;> subst same <;> cases form
  · exact ⟨_, rfl, rfl⟩
  · exact ⟨_, rfl, rfl⟩
  · exact ⟨_, rfl, rfl⟩
  · exact ⟨_, rfl, rfl⟩

/-- A pseudo selector without parentheses is read, whatever follows it. -/
theorem accepted_pseudo
    (form : PseudoForm)
    (name : String)
    (rest : List Token) :
    Accepted rules .simple (form.colons.map (fun _ => .colon) ++ .ident name :: rest) rest := by
  obtain ⟨behind, shape, named⟩ := pseudoName?_append form (Or.inl ⟨name, rfl⟩) rest
  rw [shape]
  refine ⟨⟨_, _, rfl, rfl⟩, Or.inl ⟨.pseudo form name .absent, ?_⟩⟩
  show (pseudo? rules (parseTokens rules) behind).outcome = _
  rw [pseudo?, named]
  rfl

/-- A function is read up to its parenthesis, and its argument by the rule for its name. -/
theorem accepted_function
    (customless : Customless rules)
    {form : PseudoForm}
    {name : String}
    {inside : List Token}
    (parenthesized : Parenthesized inside)
    (isList : rules.get? (argumentKey form name) = some .selectorList →
      ∃ members, (parseTokens rules inside).outcome = .ok members) :
    Accepted rules .simple
      (form.colons.map (fun _ => .colon) ++ .function name :: (inside ++ .rightParen :: rest))
      rest := by
  obtain ⟨behind, shape, named⟩ := pseudoName?_append form (Or.inr ⟨name, rfl⟩)
    (inside ++ .rightParen :: rest)
  have found : ∃ found, (argument rules (parseTokens rules) form name inside).outcome =
      .ok found := by
    unfold argument
    split
    · exact ⟨_, rfl⟩
    · exact ⟨_, rfl⟩
    · next lookup =>
        obtain ⟨members, read⟩ := isList (ruleKey_eq form name ▸ lookup)
        exact ⟨.selectors members, Reading.outcome_andThen_eq_ok.mpr ⟨members, read, rfl⟩⟩
    · exact ⟨_, rfl⟩
    · next lookup => exact absurd lookup (customless _ _)
  obtain ⟨found, read⟩ := found
  rw [shape]
  refine ⟨⟨_, _, rfl, rfl⟩, Or.inl ⟨.pseudo form name found, ?_⟩⟩
  show (pseudo? rules (parseTokens rules) behind).outcome = _
  simp only [pseudo?, named, splitArgument?_append parenthesized]
  exact Reading.outcome_andThen_eq_ok.mpr ⟨found, read, rfl⟩

/-- A simple selector is read as a compound of one member. -/
theorem accepted_alone
    (simple : Accepted rules .simple tokens rest) :
    Accepted rules .compound tokens rest := by
  obtain ⟨starts, simple⟩ := simple
  refine ⟨starts, fun ends => ?_⟩
  have nothing : (many (simple? rules (parseTokens rules)) rest).outcome = .ok ([], rest) :=
    many_of_none advances_simple? (by rw [simple?_of_endsMembers ends]; rfl)
  have read : ∃ selector, (simple? rules (parseTokens rules) tokens).outcome =
      .ok (some (selector, rest)) := by
    rcases simple with read | ⟨token, named, shape⟩
    · exact read
    · rw [shape]
      exact simple?_typeName rules (Or.inl rfl) named rest fun _ _ bar =>
        noBar_of_endsMembers ends bar
  obtain ⟨selector, read⟩ := read
  exact ⟨selector, [], (many_cons_iff advances_simple?).mpr ⟨rest, read, nothing⟩⟩

/-- A bar that a simple selector starts with has a name behind it. -/
theorem named_of_derives_bar
    {others : List Token}
    (derives : Derives rules .simple (.delim '|' :: others) rest) :
    ∃ token, Named token ∧ others = token :: rest := by
  generalize shape : Token.delim '|' :: others = tokens at derives
  cases derives with
  | @typeName qualifier rest token isQualifier named =>
      rcases isQualifier with none | isQualifier
      · subst none
        cases shape
        cases named
      · cases isQualifier with
        | bare =>
            cases shape
            exact ⟨token, named, rfl⟩
        | named isName =>
            cases shape
            cases isName
  | pseudo form => cases form <;> cases shape
  | @function form => cases form <;> cases shape
  | _ => cases shape

/-- A simple selector in front of a compound is read as its first member. -/
theorem accepted_together
    (simple : Accepted rules .simple tokens middle)
    (compound : Accepted rules .compound middle rest) :
    Accepted rules .compound tokens rest := by
  obtain ⟨starts, simple⟩ := simple
  obtain ⟨_, compound⟩ := compound
  refine ⟨starts, fun ends => ?_⟩
  obtain ⟨second, others, later⟩ := compound ends
  rcases simple with ⟨selector, read⟩ | ⟨token, named, shape⟩
  · exact ⟨selector, _, (many_cons_iff advances_simple?).mpr ⟨middle, read, later⟩⟩
  · rw [shape]
    by_cases bar : ∃ behind, middle = .delim '|' :: behind
    · -- The name is the namespace of the one behind the bar, which is read without it otherwise.
      obtain ⟨behind, bar⟩ := bar
      rw [bar] at later
      obtain ⟨final, read, later⟩ := (many_cons_iff advances_simple?).mp later
      obtain ⟨name, isName, same⟩ :=
        named_of_derives_bar (simple_of_simple? (fun _ _ found => list_of_parseTokens found) read)
      obtain ⟨selector, read⟩ :=
        simple?_typeName rules (Or.inr (.named named)) isName final (by simp)
      rw [bar, same]
      exact ⟨selector, others, (many_cons_iff advances_simple?).mpr ⟨final, read, later⟩⟩
    · obtain ⟨selector, read⟩ := simple?_typeName rules (Or.inl rfl) named middle
        fun _ behind same => absurd ⟨behind, same⟩ bar
      exact ⟨selector, _, (many_cons_iff advances_simple?).mpr ⟨middle, read, later⟩⟩

/-- A compound of the grammar is read to its end where nothing goes on with it. -/
theorem compound?_of_accepted
    (compound : Accepted rules .compound tokens rest)
    (ends : endsMembers rest = true) :
    ∃ selector, (compound? rules (parseTokens rules) tokens).outcome =
      .ok (some (selector, rest)) := by
  obtain ⟨first, others, read⟩ := compound.2 ends
  obtain ⟨selector, shape⟩ : ∃ selector, compoundOf? (first :: others) = some selector := by
    cases others with
    | nil => exact ⟨_, rfl⟩
    | cons second others => exact ⟨_, rfl⟩
  refine ⟨selector, Reading.outcome_andThen_eq_ok.mpr ⟨_, read, ?_⟩⟩
  simp only [shape]
  rfl

/-- A combinator and a compound are read as one more link of a chain. -/
theorem accepted_link
    {front : List Token}
    {combinator : Combinator}
    (ends : endsMembers (front ++ tokens) = true)
    (combined : combinator? (front ++ tokens) = some (combinator, tokens))
    (compound : Accepted rules .compound tokens middle)
    (links : Accepted rules .links middle rest) :
    Accepted rules .links (front ++ tokens) rest := by
  intro endsRest
  obtain ⟨endsMiddle, others, later⟩ := links endsRest
  obtain ⟨selector, read⟩ := compound?_of_accepted compound endsMiddle
  refine ⟨ends, (combinator, selector) :: others, (many_cons_iff advances_link?).mpr
    ⟨middle, ?_, later⟩⟩
  rw [link?, combined]
  exact Reading.outcome_andThen_eq_ok.mpr ⟨_, read, rfl⟩

/-- Blanks alone lead to the next compound. -/
theorem accepted_descendant
    {blanks : List Token}
    (onlyBlanks : Blanks blanks)
    (nonempty : blanks ≠ [])
    (compound : Accepted rules .compound tokens middle)
    (links : Accepted rules .links middle rest) :
    Accepted rules .links (blanks ++ tokens) rest := by
  obtain ⟨first, others, shape, starts⟩ := compound.1
  obtain ⟨blank, more, same⟩ := List.exists_cons_of_ne_nil nonempty
  have isBlank : blank = .whitespace := onlyBlanks blank (by rw [same]; exact List.mem_cons_self)
  have startsBlank : startsBlank (blanks ++ tokens) = true := by
    rw [same, isBlank]
    rfl
  have ends : endsMembers (blanks ++ tokens) = true := by
    rw [same, isBlank]
    rfl
  have combined : combinator? (blanks ++ tokens) = some (.descendant, tokens) := by
    simp only [combinator?, skipBlanks_append onlyBlanks, skipBlanks_of_startsSimple compound.1,
      startsBlank]
    rw [shape, explicitCombinator?_of_startsSimple starts]
    rfl
  exact accepted_link ends combined compound links

/-- A combinator that is written out takes the blanks behind it with it. -/
theorem explicitCombinator?_append
    {char : Char}
    (member : char ∈ combinators)
    {spaces : List Token}
    (onlySpaces : Blanks spaces)
    (starts : StartsSimple tokens) :
    ∃ combinator, explicitCombinator? (.delim char :: (spaces ++ tokens)) =
      some (combinator, tokens) := by
  obtain ⟨combinator, _, read⟩ := combinators_cases member
  refine ⟨combinator, ?_⟩
  rw [explicitCombinator?, read, skipBlanks_append onlySpaces, skipBlanks_of_startsSimple starts]
  rfl

/-- A combinator leads to the next compound, with blanks around it or without. -/
theorem accepted_combinator
    {blanks spaces : List Token}
    {char : Char}
    (onlyBlanks : Blanks blanks)
    (member : char ∈ combinators)
    (onlySpaces : Blanks spaces)
    (compound : Accepted rules .compound tokens middle)
    (links : Accepted rules .links middle rest) :
    Accepted rules .links (blanks ++ .delim char :: (spaces ++ tokens)) rest := by
  obtain ⟨combinator, read⟩ := explicitCombinator?_append member onlySpaces compound.1
  have whole : blanks ++ .delim char :: (spaces ++ tokens) =
      (blanks ++ .delim char :: spaces) ++ tokens := by
    simp
  have combined : combinator? (blanks ++ .delim char :: (spaces ++ tokens)) =
      some (combinator, tokens) := by
    have skipped : skipBlanks (.delim char :: (spaces ++ tokens)) =
        .delim char :: (spaces ++ tokens) :=
      skipBlanks_cons rfl _
    simp only [combinator?, skipBlanks_append onlyBlanks, skipped, read]
  have ends : endsMembers (blanks ++ .delim char :: (spaces ++ tokens)) = true := by
    cases blanks with
    | nil => exact List.contains_iff_mem.mpr member
    | cons blank blanks =>
        rw [onlyBlanks blank List.mem_cons_self]
        rfl
  rw [whole] at combined ends ⊢
  exact accepted_link ends combined compound links

/-- The start of a chain and its links are a complex selector. -/
theorem complex?_of_chainStart?
    (first : Selector)
    (start : (chainStart? rules (parseTokens rules) tokens).outcome = .ok (some (first, middle)))
    (linked : ∃ links, (many (link? rules (parseTokens rules)) middle).outcome =
      .ok (links, rest)) :
    ∃ selector, (complex? rules (parseTokens rules) tokens).outcome =
      .ok (some (selector, rest)) := by
  obtain ⟨links, linked⟩ := linked
  refine ⟨chain first links, Reading.outcome_andThen_eq_ok.mpr ⟨_, start, ?_⟩⟩
  exact Reading.outcome_andThen_eq_ok.mpr ⟨_, linked, rfl⟩

/-- A compound and links behind it are read as a complex selector. -/
theorem accepted_complex
    (compound : Accepted rules .compound tokens middle)
    (links : Accepted rules .links middle rest) :
    Accepted rules .complex tokens rest := by
  refine ⟨skipBlanks_of_startsSimple compound.1, fun ends => ?_⟩
  obtain ⟨endsMiddle, linked⟩ := links ends
  obtain ⟨first, read⟩ := compound?_of_accepted compound endsMiddle
  refine complex?_of_chainStart? first ?_ linked
  obtain ⟨token, others, shape, starts⟩ := compound.1
  have noCombinator : explicitCombinator? tokens = none := by
    rw [shape, explicitCombinator?_of_startsSimple starts]
  rw [chainStart?, noCombinator]
  exact read

/-- A combinator in front of a compound and its links is read as a relative selector. -/
theorem accepted_relative
    {spaces : List Token}
    {char : Char}
    (member : char ∈ combinators)
    (onlySpaces : Blanks spaces)
    (compound : Accepted rules .compound tokens middle)
    (links : Accepted rules .links middle rest) :
    Accepted rules .complex (.delim char :: (spaces ++ tokens)) rest := by
  refine ⟨skipBlanks_cons rfl _, fun ends => ?_⟩
  obtain ⟨endsMiddle, linked⟩ := links ends
  obtain ⟨right, read⟩ := compound?_of_accepted compound endsMiddle
  obtain ⟨combinator, combined⟩ := explicitCombinator?_append member onlySpaces compound.1
  refine complex?_of_chainStart? (.relative combinator right) ?_ linked
  rw [chainStart?, combined]
  exact Reading.outcome_andThen_eq_ok.mpr ⟨_, read, rfl⟩

/-- A complex selector is read as a member of a list, with blanks in front of it or without. -/
theorem member_of_accepted
    {blanks : List Token}
    (onlyBlanks : Blanks blanks)
    (complex : Accepted rules .complex tokens rest)
    (ends : endsChain (skipBlanks rest) = true) :
    ∃ selector, (member rules (parseTokens rules) (blanks ++ tokens)).outcome =
      .ok (selector, rest) := by
  obtain ⟨selector, read⟩ := complex.2 ends
  refine ⟨selector, ?_⟩
  rw [member, skipBlanks_append onlyBlanks, complex.1]
  exact Reading.outcome_andThen_eq_ok.mpr ⟨_, read, rfl⟩

/-- Blanks behind the last member end the list. -/
theorem accepted_lastMember
    {blanks : List Token}
    (onlyBlanks : Blanks blanks) :
    Accepted rules .furtherMembers blanks [] := by
  have nothing := skipBlanks_of_blanks onlyBlanks
  refine ⟨by rw [nothing]; rfl, [], blanks, many_of_none advances_furtherMember? ?_⟩
  rw [furtherMember?, nothing]
  rfl

/-- A comma leads to the next member. -/
theorem accepted_nextMember
    {blanks spaces : List Token}
    (onlyBlanks : Blanks blanks)
    (onlySpaces : Blanks spaces)
    (complex : Accepted rules .complex tokens rest)
    (later : Accepted rules .furtherMembers rest []) :
    Accepted rules .furtherMembers (blanks ++ .comma :: (spaces ++ tokens)) [] := by
  obtain ⟨ends, members, behind, later⟩ := later
  obtain ⟨selector, read⟩ := member_of_accepted onlySpaces complex ends
  have skipped : skipBlanks (blanks ++ .comma :: (spaces ++ tokens)) =
      .comma :: (spaces ++ tokens) := by
    rw [skipBlanks_append onlyBlanks]
    exact skipBlanks_cons rfl _
  refine ⟨by rw [skipped]; rfl, selector :: members, behind,
    (many_cons_iff advances_furtherMember?).mpr ⟨rest, ?_, later⟩⟩
  rw [furtherMember?, skipped]
  exact Reading.outcome_andThen_eq_ok.mpr ⟨_, read, rfl⟩

/-- A first member and those behind it are read as a list. -/
theorem accepted_members
    {blanks : List Token}
    (onlyBlanks : Blanks blanks)
    (complex : Accepted rules .complex tokens rest)
    (later : Accepted rules .furtherMembers rest []) :
    Accepted rules .list (blanks ++ tokens) [] := by
  obtain ⟨ends, members, behind, later⟩ := later
  obtain ⟨selector, read⟩ := member_of_accepted onlyBlanks complex ends
  rw [Accepted, parseTokens_eq, selectorList]
  split
  · exact ⟨[], rfl⟩
  · refine ⟨selector :: members, Reading.outcome_andThen_eq_ok.mpr ⟨_, read, ?_⟩⟩
    exact Reading.outcome_andThen_eq_ok.mpr ⟨_, later, rfl⟩

/-- Blanks alone are the empty list. -/
theorem accepted_noMembers
    {blanks : List Token}
    (onlyBlanks : Blanks blanks) :
    Accepted rules .list blanks [] := by
  rw [Accepted, parseTokens_eq, selectorList, skipBlanks_of_blanks onlyBlanks]
  exact ⟨[], rfl⟩

/-- Every phrase is read. -/
theorem accepted_of_derives
    (customless : Customless rules)
    {symbol : Symbol}
    (derives : Derives rules symbol tokens rest) :
    Accepted rules symbol tokens rest := by
  induction derives with
  | typeName isQualifier named => exact accepted_typeName isQualifier named
  | identifier name kind rest =>
      exact ⟨⟨_, _, rfl, rfl⟩, Or.inl ⟨.identifier name, rfl⟩⟩
  | className name rest => exact ⟨⟨_, _, rfl, rfl⟩, Or.inl ⟨.className name, rfl⟩⟩
  | «attribute» rest isAttribute =>
      exact ⟨⟨_, _, rfl, rfl⟩, Or.inl (simple?_bracketed rules isAttribute rfl)⟩
  | unclosedAttribute isAttribute =>
      have read := simple?_bracketed rules isAttribute (show endsAttribute [] = true from rfl)
      rw [List.append_nil] at read
      exact ⟨⟨_, _, rfl, rfl⟩, Or.inl read⟩
  | pseudo form name rest => exact accepted_pseudo form name rest
  | function rest parenthesized _ isList => exact accepted_function customless parenthesized isList
  | alone _ simple => exact accepted_alone simple
  | together _ _ simple compound => exact accepted_together simple compound
  | noLinks rest =>
      intro ends
      exact ⟨endsMembers_of_endsChain ends, [],
        many_of_none advances_link? (link?_of_endsChain_skipBlanks ends)⟩
  | descendant onlyBlanks nonempty _ _ compound links =>
      exact accepted_descendant onlyBlanks nonempty compound links
  | combinator onlyBlanks member onlySpaces _ _ compound links =>
      exact accepted_combinator onlyBlanks member onlySpaces compound links
  | complex _ _ compound links => exact accepted_complex compound links
  | relative member onlySpaces _ _ compound links =>
      exact accepted_relative member onlySpaces compound links
  | lastMember onlyBlanks => exact accepted_lastMember onlyBlanks
  | nextMember onlyBlanks onlySpaces _ _ complex later =>
      exact accepted_nextMember onlyBlanks onlySpaces complex later
  | noMembers onlyBlanks => exact accepted_noMembers onlyBlanks
  | members onlyBlanks _ _ complex later => exact accepted_members onlyBlanks complex later

end Phrases

/-- Tokens are read as a list exactly if they are one. -/
theorem parseTokens_accepts_iff_derives
    {rules : ArgumentRules}
    (customless : Customless rules)
    (tokens : List Token) :
    (∃ members, (parseTokens rules tokens).outcome = .ok members) ↔
      Derives rules .list tokens [] :=
  ⟨fun ⟨_, found⟩ => list_of_parseTokens found, accepted_of_derives customless⟩

/-- The list `a|b :not([c), >*`, in which the end of the argument closes the brackets. -/
theorem parseTokens_accepts_iff_derives_unclosed :
    Customless ArgumentRules.standard ∧
      Derives .standard .list
        [.ident "a", .delim '|', .ident "b", .whitespace, .colon, .function "not", .leftBracket,
          .ident "c", .rightParen, .comma, .whitespace, .delim '>', .delim '*'] [] := by
  refine ⟨customless_standard, (parseTokens_accepts_iff_derives customless_standard _).mp ?_⟩
  refine ⟨[.complex (.typeName "b" (some "a")) .descendant
    (.pseudo .pseudoClass "not" (.selectors [.attribute ⟨"c", none, none, none, none⟩])),
    .relative .child (.typeName "*" none)], ?_⟩
  cbv

end TreeSelectors.Grammar
