import TreeSelectors.Proofs.Selector.Grammar
import TreeSelectors.Proofs.Selector.Shape

namespace TreeSelectors.Grammar

/-!
# What is read derives from the grammar

Each part of the reader takes up a phrase of its kind, if it takes up anything.
Lists inside parentheses are lists by assumption until the whole list is one by
`parseTokens_induction`.
-/

open TreeSelectors.Parser
open TreeSelectors.Selector

variable {tokens rest : List Token}

/-- The blanks that are skipped, and what is behind them. -/
theorem exists_blanks
    (tokens : List Token) :
    ∃ blanks, Blanks blanks ∧ tokens = blanks ++ skipBlanks tokens := by
  refine ⟨tokens.takeWhile Token.isWhitespace, ?_, List.takeWhile_append_dropWhile.symm⟩
  intro token member
  exact isWhitespace_iff.mp (List.all_eq_true.mp List.all_takeWhile token member)

section Types

/-- A namespace that is read is one of the grammar. -/
theorem qualifier_of_qualifier?
    {name : String}
    (found : qualifier? tokens = .ok (some (name, rest))) :
    ∃ front, Qualifier front ∧ tokens = front ++ rest := by
  obtain ⟨shape, _⟩ := qualifier?_cases found
  rcases shape with ident | ⟨star, _⟩ | ⟨bar, _⟩
  · exact ⟨_, .named (.ident name), ident⟩
  · exact ⟨_, .named .star, star⟩
  · exact ⟨_, .bare, bar⟩

/-- A namespace that need not be there is one of the grammar or nothing. -/
theorem optionalQualifier_of_read
    {qualifier : Option String}
    (found : optionalQualifier tokens = .ok (qualifier, rest)) :
    ∃ front, OptionalQualifier front ∧ tokens = front ++ rest := by
  unfold Parser.optionalQualifier at found
  split at found
  · simp at found
  · next read =>
      cases found
      obtain ⟨front, isQualifier, shape⟩ := qualifier_of_qualifier? read
      exact ⟨front, Or.inr isQualifier, shape⟩
  · cases found
    exact ⟨[], Or.inl rfl, rfl⟩

/-- A type selector that is read derives from the grammar. -/
theorem simple_of_typeSelector?
    {rules : ArgumentRules}
    {selector : Selector}
    (found : typeSelector? tokens = .ok (some (selector, rest))) :
    Derives rules .simple tokens rest := by
  unfold typeSelector? at found
  split at found
  · simp at found
  · next name _ read =>
      cases found
      obtain ⟨front, qualifier, shape⟩ := optionalQualifier_of_read read
      rw [shape]
      exact .typeName qualifier (.ident name)
  · next read =>
      cases found
      obtain ⟨front, qualifier, shape⟩ := optionalQualifier_of_read read
      rw [shape]
      exact .typeName qualifier .star
  · simp at found

end Types

section Attributes

/-- A matcher that is read is one of the grammar. -/
theorem matcher_of_attributeMatcher?
    {matcher : AttributeMatcher}
    (found : attributeMatcher? tokens = some (matcher, rest)) :
    ∃ front, Matcher front ∧ tokens = front ++ rest := by
  unfold attributeMatcher? at found
  split at found
  · cases found
    exact ⟨_, .equals, rfl⟩
  · next char behind notEquals =>
      cases found
      refine ⟨_, .marked fun same => ?_, rfl⟩
      exact notEquals (by rw [same])
  · simp at found

/-- An expected value that is read is a string or a name. -/
theorem value_of_attributeValue?
    {value : String}
    (found : attributeValue? tokens = some (value, rest)) :
    ∃ token, Value token ∧ tokens = token :: rest := by
  unfold attributeValue? at found
  split at found
  · cases found
    exact ⟨_, .string value, rfl⟩
  · cases found
    exact ⟨_, .ident value, rfl⟩
  · simp at found

/-- The characters that are a letter in lower case. -/
theorem toLower_eq_iff
    {char lower upper : Char}
    (capital : 65 ≤ upper.toNat ∧ upper.toNat ≤ 90)
    (pair : upper.toNat + 32 = lower.toNat) :
    char.toLower = lower ↔ char = lower ∨ char = upper := by
  have lowered : char.toLower.toNat =
      if 65 ≤ char.toNat ∧ char.toNat ≤ 90 then char.toNat + 32 else char.toNat := by
    unfold Char.toLower
    split
    · next letter =>
        have bounds : 65 ≤ char.toNat ∧ char.toNat ≤ 90 := letter
        have small : char.toNat + 32 < 2 ^ 32 := by
          omega
        rw [if_pos bounds]
        exact (UInt32.toNat_add _ _).trans (Nat.mod_eq_of_lt small)
    · next other => exact (if_neg other).symm
  rw [← Char.toNat_inj, ← Char.toNat_inj, ← Char.toNat_inj, lowered]
  split
  · omega
  · omega

/-- The names that are a letter in lower case. -/
theorem eqIgnoringAsciiCase_singleton_iff
    (name : String)
    (lower upper : Char)
    (capital : 65 ≤ upper.toNat ∧ upper.toNat ≤ 90)
    (pair : upper.toNat + 32 = lower.toNat) :
    Text.eqIgnoringAsciiCase name (String.singleton lower) = true ↔
      name = String.singleton lower ∨ name = String.singleton upper := by
  have letter : ∀ {char : Char}, char.toLower = lower ↔ char = lower ∨ char = upper :=
    toLower_eq_iff capital pair
  have kept : lower.toLower = lower := letter.mpr (Or.inl rfl)
  simp only [Text.eqIgnoringAsciiCase, Text.asciiLower, beq_iff_eq, ← String.toList_inj,
    String.toList_map, String.toList_singleton, List.map_cons, List.map_nil, kept,
    List.map_eq_cons_iff, List.map_eq_nil_iff, letter]
  constructor
  · rintro ⟨char, _, same, isLower | isUpper, empty⟩
    · subst isLower
      exact Or.inl (empty ▸ same)
    · subst isUpper
      exact Or.inr (empty ▸ same)
  · rintro (same | same)
    · exact ⟨lower, [], same, Or.inl rfl, rfl⟩
    · exact ⟨upper, [], same, Or.inr rfl, rfl⟩

/-- A name is a flag if it is one up to case. -/
theorem mem_flagNames_iff
    {name : String} :
    name ∈ flagNames ↔
      Text.eqIgnoringAsciiCase name "i" = true ∨ Text.eqIgnoringAsciiCase name "s" = true := by
  have insensitive : Text.eqIgnoringAsciiCase name "i" = true ↔ name = "i" ∨ name = "I" :=
    eqIgnoringAsciiCase_singleton_iff name 'i' 'I' (by decide) rfl
  have sensitive : Text.eqIgnoringAsciiCase name "s" = true ↔ name = "s" ∨ name = "S" :=
    eqIgnoringAsciiCase_singleton_iff name 's' 'S' (by decide) rfl
  rw [insensitive, sensitive, or_assoc]
  simp [flagNames]

/-- A flag that is read is one of the grammar, with the blanks behind it. -/
theorem flag_of_optionalModifier
    {modifier : Option CaseModifier}
    (found : optionalModifier tokens = (modifier, rest)) :
    ∃ front, Flag front ∧ tokens = front ++ rest := by
  unfold optionalModifier at found
  split at found
  · next behind read =>
      cases found
      obtain ⟨blanks, onlyBlanks, shape⟩ := exists_blanks behind
      unfold caseModifier? at read
      split at read
      · next name later =>
          have flag : name ∈ flagNames ∧ later = behind := by
            split at read
            · next insensitive =>
                cases read
                exact ⟨mem_flagNames_iff.mpr (Or.inl insensitive), rfl⟩
            · split at read
              · next sensitive =>
                  cases read
                  exact ⟨mem_flagNames_iff.mpr (Or.inr sensitive), rfl⟩
              · simp at read
          refine ⟨.ident name :: blanks, .present flag.1 onlyBlanks, ?_⟩
          rw [flag.2, List.cons_append, ← shape]
      · simp at read
  · cases found
    exact ⟨[], .absent, rfl⟩

/-- What an attribute asks for is a condition of the grammar. -/
theorem condition_of_attributeCondition
    {name : String}
    {qualifier : Option String}
    {test : AttributeTest}
    (found : attributeCondition name qualifier tokens = .ok (test, rest)) :
    ∃ front, Condition front ∧ tokens = front ++ rest := by
  unfold attributeCondition at found
  split at found
  · cases found
    exact ⟨[], .absent, rfl⟩
  · next behind matched =>
      split at found
      · simp at found
      · next afterValue valued =>
          obtain ⟨_, same⟩ := Prod.mk.inj (Except.ok.inj found)
          obtain ⟨matcher, isMatcher, shape⟩ := matcher_of_attributeMatcher? matched
          obtain ⟨blanks, onlyBlanks, shapeBlanks⟩ := exists_blanks behind
          obtain ⟨value, isValue, shapeValue⟩ := value_of_attributeValue? valued
          obtain ⟨spaces, onlySpaces, shapeSpaces⟩ := exists_blanks afterValue
          have modified : optionalModifier (skipBlanks afterValue) = (_, rest) :=
            Prod.ext rfl same
          obtain ⟨flag, isFlag, shapeFlag⟩ := flag_of_optionalModifier modified
          refine ⟨_, .present isMatcher onlyBlanks isValue onlySpaces isFlag, ?_⟩
          rw [shape, shapeBlanks, shapeValue, shapeSpaces, shapeFlag]
          simp

/-- What is read in brackets is an attribute of the grammar. -/
theorem attribute_of_attributeTest
    {test : AttributeTest}
    (found : attributeTest tokens = .ok (test, rest)) :
    ∃ inside, Attribute inside ∧ tokens = inside ++ rest := by
  unfold attributeTest at found
  split at found
  · simp at found
  · next name behind read =>
      obtain ⟨blanks, onlyBlanks, shape⟩ := exists_blanks tokens
      obtain ⟨qualifier, isQualifier, shapeQualifier⟩ := optionalQualifier_of_read read
      obtain ⟨spaces, onlySpaces, shapeSpaces⟩ := exists_blanks behind
      obtain ⟨condition, isCondition, shapeCondition⟩ := condition_of_attributeCondition found
      refine ⟨blanks ++ (qualifier ++ .ident name :: (spaces ++ condition)),
        .intro onlyBlanks isQualifier onlySpaces isCondition, ?_⟩
      rw [shape, shapeQualifier, shapeSpaces, shapeCondition]
      simp
  · simp at found

/-- An attribute selector that is read derives, closed or open at the end. -/
theorem simple_of_bracketed
    {rules : ArgumentRules}
    {selector : Selector}
    (found : (bracketed tokens).outcome = .ok (selector, rest)) :
    Derives rules .simple (.leftBracket :: tokens) rest := by
  unfold bracketed at found
  split at found
  · simp [Reading.failure] at found
  · next read =>
      cases found
      obtain ⟨inside, isAttribute, shape⟩ := attribute_of_attributeTest read
      rw [shape]
      exact .attribute rest isAttribute
  · next read =>
      cases found
      obtain ⟨inside, isAttribute, shape⟩ := attribute_of_attributeTest read
      rw [shape, List.append_nil]
      exact .unclosedAttribute isAttribute
  · simp [Reading.failure] at found

end Attributes

/-- The tokens in front of the parenthesis that closes an argument close all that they open. -/
theorem closing_of_splitArgument?
    {depth : Nat}
    {inside behind : List Token}
    (found : splitArgument? depth tokens = some (inside, behind)) :
    Closing depth inside := by
  induction tokens generalizing depth inside with
  | nil =>
      simp [splitArgument?] at found
  | cons token tokens inductionHypothesis =>
      rcases exists_step depth token with ⟨isZero, isClosing⟩ | ⟨after, step⟩
      · subst isZero
        subst isClosing
        cases found
        exact closing_nil_iff.mpr rfl
      · rw [splitArgument?_cons step] at found
        obtain ⟨⟨first, second⟩, read, same⟩ := Option.map_eq_some_iff.mp found
        cases same
        exact (closing_cons_iff step).mpr (inductionHypothesis read)

section Lists

/-- Whatever a reader of lists reads is a list. -/
def ReadsLists (rules : ArgumentRules) (readList : List Token → Reading (List Selector)) : Prop :=
  ∀ inside members, (readList inside).outcome = .ok members → Derives rules .list inside []

variable {rules : ArgumentRules} {readList : List Token → Reading (List Selector)}
  {selector : Selector}

/-- An argument whose rule asks for a list is a list of the grammar. -/
theorem list_of_argument
    (readsLists : ReadsLists rules readList)
    {form : PseudoForm}
    {name : String}
    {inside : List Token}
    {found : Argument}
    (read : (argument rules readList form name inside).outcome = .ok found)
    (lookup : rules.get? (argumentKey form name) = some .selectorList) :
    Derives rules .list inside [] := by
  simp only [argument, ruleKey_eq, lookup] at read
  obtain ⟨members, readMembers, _⟩ := Reading.outcome_andThen_eq_ok.mp read
  exact readsLists inside members readMembers

/-- The form of a pseudo selector gives the colons in front of its name. -/
theorem pseudoName?_cases
    {form : PseudoForm}
    {token : Token}
    (found : pseudoName? tokens = some (form, token, rest)) :
    .colon :: tokens = form.colons.map (fun _ => .colon) ++ token :: rest := by
  unfold pseudoName? at found
  split at found <;> cases found <;> rfl

/-- A pseudo selector that is read derives from the grammar. -/
theorem simple_of_pseudo?
    (readsLists : ReadsLists rules readList)
    (found : (pseudo? rules readList tokens).outcome = .ok (some (selector, rest))) :
    Derives rules .simple (.colon :: tokens) rest := by
  unfold pseudo? at found
  split at found
  · next form name behind named =>
      cases found
      rw [pseudoName?_cases named]
      exact .pseudo form name rest
  · next form name behind named =>
      split at found
      · simp [Reading.failure] at found
      · next inside afterwards cut =>
          obtain ⟨argument, read, same⟩ := Reading.outcome_andThen_eq_ok.mp found
          cases same
          rw [pseudoName?_cases named, splitArgument?_eq_some cut]
          exact .function rest (closing_of_splitArgument? cut) (list_of_argument readsLists read)
  · simp [Reading.value] at found

/-- A simple selector that is read derives from the grammar. -/
theorem simple_of_simple?
    (readsLists : ReadsLists rules readList)
    (found : (simple? rules readList tokens).outcome = .ok (some (selector, rest))) :
    Derives rules .simple tokens rest := by
  unfold simple? at found
  split at found
  · simp [Reading.failure] at found
  · next read =>
      cases found
      exact simple_of_typeSelector? read
  · split at found
    · next name kind behind _ =>
        cases found
        exact .identifier name kind rest
    · next name behind _ =>
        cases found
        exact .className name rest
    · obtain ⟨_, read, same⟩ := Reading.outcome_andThen_eq_ok.mp found
      cases same
      exact simple_of_bracketed read
    · exact simple_of_pseudo? readsLists found
    · simp [Reading.value] at found

/-- Simple selectors in a row are a compound, unless there are none. -/
theorem compound_of_many
    (readsLists : ReadsLists rules readList)
    {members : List Selector}
    (found : (many (simple? rules readList) tokens).outcome = .ok (members, rest)) :
    members = [] ∧ tokens = rest ∨ Derives rules .compound tokens rest := by
  refine many_induction advances_simple? (motive := fun tokens members rest =>
    members = [] ∧ tokens = rest ∨ Derives rules .compound tokens rest) ?_ ?_ found
  · intro tokens _
    exact Or.inl ⟨rfl, rfl⟩
  · intro tokens member middle members rest read later
    have first := simple_of_simple? readsLists read
    right
    rcases later with ⟨_, same⟩ | others
    · rw [← same]
      exact .alone first
    · exact .together first others

/-- A compound that is read derives, member by member. -/
theorem compound_of_compound?
    (readsLists : ReadsLists rules readList)
    (found : (compound? rules readList tokens).outcome = .ok (some (selector, rest))) :
    Derives rules .compound tokens rest := by
  obtain ⟨⟨members, behind⟩, read, same⟩ := Reading.outcome_andThen_eq_ok.mp found
  simp only [Reading.pure_eq_value, Reading.value, Except.ok.injEq, Option.map_eq_some_iff,
    Prod.mk.injEq] at same
  obtain ⟨whole, shape, _, kept⟩ := same
  subst kept
  rcases compound_of_many readsLists read with ⟨none, _⟩ | compound
  · rw [none] at shape
    simp [compoundOf?] at shape
  · exact compound

/-- A combinator that is read is a delimiter of the grammar and blanks. -/
theorem combinator_of_explicitCombinator?
    {combinator : Combinator}
    (found : explicitCombinator? tokens = some (combinator, rest)) :
    ∃ char spaces, char ∈ combinators ∧ Blanks spaces ∧
      tokens = .delim char :: (spaces ++ rest) := by
  obtain ⟨explicit, behind, shape, same⟩ := explicitCombinator?_cases found
  obtain ⟨spaces, onlySpaces, shapeSpaces⟩ := exists_blanks behind
  refine ⟨combinator.char, spaces, ?_, onlySpaces, by rw [shape, same, ← shapeSpaces]⟩
  cases combinator with
  | descendant => exact absurd rfl explicit
  | _ => decide

/-- A combinator and the compound behind it go in front of the links that follow. -/
theorem links_of_combinator?
    {combinator : Combinator}
    {behind middle : List Token}
    (found : combinator? tokens = some (combinator, behind))
    (compound : Derives rules .compound behind middle)
    (later : Derives rules .links middle rest) :
    Derives rules .links tokens rest := by
  obtain ⟨blanks, onlyBlanks, shape⟩ := exists_blanks tokens
  simp only [combinator?] at found
  split at found
  · next read =>
      cases found
      obtain ⟨char, spaces, member, onlySpaces, shapeCombinator⟩ :=
        combinator_of_explicitCombinator? read
      rw [shape, shapeCombinator]
      exact .combinator onlyBlanks member onlySpaces compound later
  · split at found
    · next starts =>
        cases found
        have nonempty : blanks ≠ [] := by
          intro empty
          rw [empty, List.nil_append] at shape
          unfold startsBlank at starts
          split at starts
          · exact head?_skipBlanks _ (by rw [← shape]; rfl)
          · simp at starts
        rw [shape]
        exact .descendant onlyBlanks nonempty compound later
    · simp at found

/-- The links of a chain that are read derive, one after another. -/
theorem links_of_many
    (readsLists : ReadsLists rules readList)
    {links : List (Combinator × Selector)}
    (found : (many (link? rules readList) tokens).outcome = .ok (links, rest)) :
    Derives rules .links tokens rest := by
  refine many_induction advances_link? (motive := fun tokens _ rest =>
    Derives rules .links tokens rest) ?_ ?_ found
  · intro tokens _
    exact .noLinks tokens
  · intro tokens link middle links rest read later
    unfold link? at read
    split at read
    · simp [Reading.value] at read
    · next combinator behind combined =>
        obtain ⟨found, compound, read⟩ := Reading.outcome_andThen_eq_ok.mp read
        split at read
        · cases read
          exact links_of_combinator? combined (compound_of_compound? readsLists compound) later
        · split at read
          · simp [Reading.value] at read
          · simp [Reading.failure] at read

/-- A complex selector that is read derives from the grammar. -/
theorem complex_of_complex?
    (readsLists : ReadsLists rules readList)
    (found : (complex? rules readList tokens).outcome = .ok (some (selector, rest))) :
    Derives rules .complex tokens rest := by
  obtain ⟨start, started, found⟩ := Reading.outcome_andThen_eq_ok.mp found
  split at found
  · simp [Reading.value] at found
  · next first behind =>
      obtain ⟨⟨links, final⟩, linked, same⟩ := Reading.outcome_andThen_eq_ok.mp found
      cases same
      have later := links_of_many readsLists linked
      unfold chainStart? at started
      split at started
      · exact .complex (compound_of_compound? readsLists started) later
      · next combined =>
          obtain ⟨char, spaces, member, onlySpaces, shape⟩ :=
            combinator_of_explicitCombinator? combined
          obtain ⟨right, compound, started⟩ := Reading.outcome_andThen_eq_ok.mp started
          split at started
          · cases started
            rw [shape]
            exact .relative member onlySpaces (compound_of_compound? readsLists compound) later
          · simp [Reading.failure] at started

/-- A member and the blanks in front of it. -/
theorem complex_of_member
    (readsLists : ReadsLists rules readList)
    (found : (member rules readList tokens).outcome = .ok (selector, rest)) :
    Derives rules .complex (skipBlanks tokens) rest := by
  obtain ⟨start, read, found⟩ := Reading.outcome_andThen_eq_ok.mp found
  split at found
  · cases found
    exact complex_of_complex? readsLists read
  · simp [Reading.failure] at found

/-- The members behind the first derive, up to the end of the tokens. -/
theorem furtherMembers_of_many
    (readsLists : ReadsLists rules readList)
    {members : List Selector}
    (found : (many (furtherMember? rules readList) tokens).outcome = .ok (members, rest)) :
    Derives rules .furtherMembers tokens [] := by
  refine many_induction advances_furtherMember? (motive := fun tokens _ _ =>
    Derives rules .furtherMembers tokens []) ?_ ?_ found
  · intro tokens ended
    obtain ⟨blanks, onlyBlanks, shape⟩ := exists_blanks tokens
    unfold furtherMember? at ended
    split at ended
    · next nothing =>
        rw [shape, nothing, List.append_nil]
        exact .lastMember onlyBlanks
    · obtain ⟨_, _, impossible⟩ := Reading.outcome_andThen_eq_ok.mp ended
      cases impossible
    · simp [Reading.failure] at ended
  · intro tokens selector middle members rest read later
    obtain ⟨blanks, onlyBlanks, shape⟩ := exists_blanks tokens
    unfold furtherMember? at read
    split at read
    · simp [Reading.value] at read
    · next behind comma =>
        obtain ⟨_, readMember, same⟩ := Reading.outcome_andThen_eq_ok.mp read
        cases same
        obtain ⟨spaces, onlySpaces, shapeSpaces⟩ := exists_blanks behind
        rw [shape, comma, shapeSpaces]
        exact .nextMember onlyBlanks onlySpaces (complex_of_member readsLists readMember) later
    · simp [Reading.failure] at read

/-- A list that is read derives from the grammar. -/
theorem list_of_selectorList
    (readsLists : ReadsLists rules readList)
    {members : List Selector}
    (found : (selectorList rules readList tokens).outcome = .ok members) :
    Derives rules .list tokens [] := by
  obtain ⟨blanks, onlyBlanks, shape⟩ := exists_blanks tokens
  unfold selectorList at found
  split at found
  · next nothing =>
      rw [shape, List.isEmpty_iff.mp nothing, List.append_nil]
      exact .noMembers onlyBlanks
  · obtain ⟨⟨first, behind⟩, read, found⟩ := Reading.outcome_andThen_eq_ok.mp found
    obtain ⟨⟨others, final⟩, readOthers, _⟩ := Reading.outcome_andThen_eq_ok.mp found
    rw [shape]
    exact .members onlyBlanks (complex_of_member readsLists read)
      (furtherMembers_of_many readsLists readOthers)

end Lists

/-- Tokens that are read as a list are one. -/
theorem list_of_parseTokens
    {rules : ArgumentRules}
    {members : List Selector}
    (found : (parseTokens rules tokens).outcome = .ok members) :
    Derives rules .list tokens [] :=
  parseTokens_induction (motive := fun tokens _ => Derives rules .list tokens [])
    (fun _ readsLists _ _ read => list_of_selectorList readsLists read) found

end TreeSelectors.Grammar
