import Mathlib
import TreeSelectors.Proofs.Selector.Shape

namespace TreeSelectors

/-!
# Reading translated tokens

A translation changes tokens before they are read. It is faithful if it leaves
alone what the parser goes by: which token comes next, whether blanks do, and
where an argument ends. What is read from translated tokens is then the
translation of what is read from the tokens themselves, and nothing else about
the reading changes, neither an error nor a notice: `parseTokens_translate`.
-/

open TreeSelectors.Parser

namespace Reading

instance : LawfulMonad Reading :=
  LawfulMonad.mk' Reading
    (by
      rintro α ⟨notices, error | result⟩
      · rfl
      · exact congrArg (Reading.mk · (.ok result)) (List.append_nil notices))
    (fun result next => value_andThen result next)
    (by
      rintro α β γ ⟨notices, error | result⟩ next further
      · rfl
      · simp only [bind_eq_andThen, andThen, noticing]
        cases (next result).outcome with
        | error error => rfl
        | ok middle => simp)

section Changes

variable {α β : Type} (change : α → β)

/-- Changing the value of a reading keeps its notices. -/
theorem map_ok
    (notices : List Notice)
    (result : α) :
    change <$> (⟨notices, .ok result⟩ : Reading α) = ⟨notices, .ok (change result)⟩ :=
  congrArg (Reading.mk · (.ok (change result))) (List.append_nil notices)

theorem map_value
    (result : α) :
    change <$> value result = value (change result) :=
  map_pure change result

theorem map_failure
    (error : SyntaxError) :
    change <$> failure error = failure error :=
  rfl

/-- The outcome of a changed reading is its changed outcome. -/
theorem outcome_map
    (reading : Reading α) :
    (change <$> reading).outcome = reading.outcome.map change := by
  obtain ⟨notices, error | result⟩ := reading <;> rfl

end Changes

end Reading

/-- A change of tokens, and the change of the names of pseudo selectors that it makes. -/
structure Translation where
  tokens : List Token → List Token
  name : String → String

mutual

/-- The selector with all its pseudo selectors renamed and all its kept tokens changed. -/
def Selector.translate (translation : Translation) : Selector → Selector
  | .list members =>
      .list (Selector.translateAll translation members)
  | .complex left combinator right =>
      .complex (left.translate translation) combinator (right.translate translation)
  | .relative combinator right =>
      .relative combinator (right.translate translation)
  | .compound members =>
      .compound (Selector.translateAll translation members)
  | .typeName name qualifier =>
      .typeName name qualifier
  | .identifier name =>
      .identifier name
  | .className name =>
      .className name
  | .attribute test =>
      .attribute test
  | .pseudo form name argument =>
      .pseudo form (translation.name name) (argument.translate translation)

/-- The argument with what is read or kept in it translated. -/
def Argument.translate (translation : Translation) : Argument → Argument
  | .absent => .absent
  | .raw tokens => .raw (translation.tokens tokens)
  | .selectors members => .selectors (Selector.translateAll translation members)
  | .anPlusB tokens => .anPlusB (translation.tokens tokens)
  | .custom node => .custom node

/-- The selectors, each of them translated. -/
def Selector.translateAll (translation : Translation) : List Selector → List Selector
  | [] => []
  | member :: rest => member.translate translation :: Selector.translateAll translation rest

end

/-- Selectors in a list are translated one by one. -/
theorem Selector.translateAll_eq_map
    (translation : Translation)
    (members : List Selector) :
    translateAll translation members = members.map (translate translation) := by
  induction members with
  | nil => rfl
  | cons member rest inductionHypothesis =>
      rw [translateAll, inductionHypothesis, List.map_cons]

namespace Parser

/-- Translating members and making a compound of them can be exchanged. -/
theorem compoundOf?_translate
    (translation : Translation)
    (members : List Selector) :
    compoundOf? (members.map (Selector.translate translation)) =
      (compoundOf? members).map (Selector.translate translation) := by
  rcases members with _ | ⟨first, _ | ⟨second, rest⟩⟩
  · rfl
  · rfl
  · simp [compoundOf?, Selector.translate, Selector.translateAll_eq_map]

/-- A chain is translated link by link. -/
theorem chain_translate
    (translation : Translation)
    (first : Selector)
    (links : List (Combinator × Selector)) :
    chain (first.translate translation)
        (links.map (Prod.map id (Selector.translate translation))) =
      (chain first links).translate translation := by
  rw [chain, chain, List.foldl_map]
  refine List.foldl_hom (Selector.translate translation) ?_
  intro left link
  rfl

end Parser

namespace Translation

/-- What becomes of the tokens behind a colon, the name of a pseudo selector among them. -/
def behindColon (translation : Translation) : List Token → List Token
  | .ident name :: rest => .ident (translation.name name) :: translation.tokens rest
  | .function name :: rest => .function (translation.name name) :: translation.tokens rest
  | tokens => translation.tokens tokens

/--
Behind a colon a change of tokens is known by what it does to a name, a function and the rest.
-/
theorem eq_behindColon
    {translation : Translation}
    {change : List Token → List Token}
    (ident :
      ∀ name rest,
        change (.ident name :: rest) = .ident (translation.name name) :: translation.tokens rest)
    (function :
      ∀ name rest,
        change (.function name :: rest) =
          .function (translation.name name) :: translation.tokens rest)
    (other :
      ∀ tokens,
        (∀ name rest, tokens ≠ .ident name :: rest) →
        (∀ name rest, tokens ≠ .function name :: rest) →
        change tokens = translation.tokens tokens)
    (tokens : List Token) :
    change tokens = translation.behindColon tokens := by
  fun_cases translation.behindColon tokens with
  | case1 name rest => exact ident name rest
  | case2 name rest => exact function name rest
  | case3 _ noName noFunction => exact other tokens noName noFunction

/-- What becomes of the name of a pseudo selector and the tokens behind it. -/
def pseudoName (translation : Translation) :
    PseudoForm × Token × List Token → PseudoForm × Token × List Token
  | (form, .ident name, rest) => (form, .ident (translation.name name), translation.tokens rest)
  | (form, .function name, rest) =>
      (form, .function (translation.name name), translation.tokens rest)
  | (form, token, rest) => (form, token, translation.tokens rest)

/-- A translation leaves alone what the parser goes by. -/
structure Faithful (translation : Translation) : Prop where
  empty :
    translation.tokens [] = []
  keeps :
    ∀ {token rest},
      token ≠ .whitespace →
      token ≠ .colon →
      translation.tokens (token :: rest) = token :: translation.tokens rest
  startsBlank :
    ∀ tokens, startsBlank (translation.tokens tokens) = startsBlank tokens
  skipBlanks :
    ∀ tokens, skipBlanks (translation.tokens tokens) = translation.tokens (skipBlanks tokens)
  colon :
    ∀ rest, translation.tokens (.colon :: rest) = .colon :: translation.behindColon rest
  splitArgument? :
    ∀ tokens,
      splitArgument? 0 (translation.tokens tokens) =
        (splitArgument? 0 tokens).map (Prod.map translation.tokens translation.tokens)
  ruleKey :
    ∀ form name, ruleKey form (translation.name name) = ruleKey form name

namespace Faithful

variable {translation : Translation} (faithful : translation.Faithful)

include faithful

section Heads

variable {token : Token} {tokens rest : List Token}

/-- The first token stays, whatever becomes of those behind it. -/
theorem exists_eq_cons
    (token : Token)
    (rest : List Token) :
    ∃ behind, translation.tokens (token :: rest) = token :: behind := by
  by_cases isBlank : token = .whitespace
  · have blank := faithful.startsBlank (token :: rest)
    rw [isBlank] at blank ⊢
    rw [Parser.startsBlank.eq_def] at blank
    split at blank
    · next behind shape => exact ⟨behind, shape⟩
    · exact absurd blank (by simp [Parser.startsBlank])
  · by_cases isColon : token = .colon
    · exact ⟨translation.behindColon rest, isColon ▸ faithful.colon rest⟩
    · exact ⟨translation.tokens rest, faithful.keeps isBlank isColon⟩

/-- Translated tokens that start with one come from tokens that do. -/
theorem exists_of_eq_cons
    (shape : translation.tokens tokens = token :: rest) :
    ∃ behind, tokens = token :: behind := by
  cases tokens with
  | nil => exact absurd (faithful.empty.symm.trans shape) (by simp)
  | cons first others =>
      obtain ⟨behind, cons⟩ := faithful.exists_eq_cons first others
      obtain ⟨rfl, _⟩ := List.cons.inj (cons.symm.trans shape)
      exact ⟨others, rfl⟩

/-- A token that is neither a blank nor a colon stands first before and after the change. -/
theorem eq_cons_iff
    (notBlank : token ≠ .whitespace)
    (notColon : token ≠ .colon) :
    translation.tokens tokens = token :: rest ↔
      ∃ behind, tokens = token :: behind ∧ translation.tokens behind = rest := by
  constructor
  · intro shape
    obtain ⟨behind, rfl⟩ := faithful.exists_of_eq_cons shape
    rw [faithful.keeps notBlank notColon] at shape
    exact ⟨behind, rfl, (List.cons.inj shape).2⟩
  · rintro ⟨behind, rfl, rfl⟩
    exact faithful.keeps notBlank notColon

/-- A translation makes nothing of nothing only. -/
theorem eq_nil_iff :
    translation.tokens tokens = [] ↔ tokens = [] := by
  constructor
  · intro shape
    cases tokens with
    | nil => rfl
    | cons token rest =>
        obtain ⟨behind, cons⟩ := faithful.exists_eq_cons token rest
        exact absurd (cons.symm.trans shape) (by simp)
  · rintro rfl
    exact faithful.empty

theorem isEmpty_eq :
    (translation.tokens tokens).isEmpty = tokens.isEmpty := by
  rw [Bool.eq_iff_iff, List.isEmpty_iff, List.isEmpty_iff, faithful.eq_nil_iff]

/-- The token that is complained about is the same. -/
theorem unexpected_eq :
    unexpected (translation.tokens tokens) = unexpected tokens := by
  cases tokens with
  | nil => rw [faithful.empty]
  | cons token rest =>
      obtain ⟨behind, shape⟩ := faithful.exists_eq_cons token rest
      rw [shape, unexpected, unexpected]

end Heads

variable (tokens : List Token)

/-!
Each reader takes from translated tokens the translation of what it takes from
the tokens. It also declines both or neither, for none of its patterns asks for
blanks or for what stands behind a colon.
-/

section Types

/-- What a namespace needs behind its bar is found in both rows or in neither. -/
theorem qualified?_eq
    (qualifier : String) :
    qualified? qualifier (translation.tokens tokens) =
      (qualified? qualifier tokens).map (Option.map (Prod.map id translation.tokens)) := by
  fun_cases qualified? qualifier tokens with
  | case1 name rest => simp [faithful.keeps, qualified?, Except.map]
  | case2 rest => simp [faithful.keeps, qualified?, Except.map]
  | case3 rest => simp [faithful.keeps, qualified?, Except.map]
  | case4 tokens noName noAny noEquals =>
      rw [qualified?.eq_4]
      · rfl
      · simpa [faithful.eq_cons_iff] using noName
      · simpa [faithful.eq_cons_iff] using noAny
      · simpa [faithful.eq_cons_iff] using noEquals

/-- A namespace is read from both rows or from neither. -/
theorem qualifier?_eq :
    qualifier? (translation.tokens tokens) =
      (qualifier? tokens).map (Option.map (Prod.map id translation.tokens)) := by
  fun_cases qualifier? tokens with
  | case1 name rest => simp [faithful.keeps, qualifier?, faithful.qualified?_eq]
  | case2 rest => simp [faithful.keeps, qualifier?, faithful.qualified?_eq]
  | case3 rest => simp [faithful.keeps, qualifier?, faithful.qualified?_eq]
  | case4 tokens noName noAny noBar =>
      rw [qualifier?.eq_4]
      · rfl
      · intro name rest shape
        obtain ⟨middle, rfl, same⟩ := (faithful.eq_cons_iff (by simp) (by simp)).mp shape
        obtain ⟨behind, rfl, _⟩ := (faithful.eq_cons_iff (by simp) (by simp)).mp same
        exact noName name behind rfl
      · simpa [faithful.eq_cons_iff] using noAny
      · simpa [faithful.eq_cons_iff] using noBar

/-- A namespace that need not be there is read alike from both rows. -/
theorem optionalQualifier_eq :
    optionalQualifier (translation.tokens tokens) =
      (optionalQualifier tokens).map (Prod.map id translation.tokens) := by
  rw [optionalQualifier, optionalQualifier, faithful.qualifier?_eq]
  rcases qualifier? tokens with error | _ | ⟨qualifier, rest⟩ <;> rfl

/-- A type selector is read alike from both rows. -/
theorem typeSelector?_eq :
    typeSelector? (translation.tokens tokens) =
      (typeSelector? tokens).map
        (Option.map (Prod.map (Selector.translate translation) translation.tokens)) := by
  rw [typeSelector?.eq_def, faithful.optionalQualifier_eq]
  fun_cases typeSelector? tokens with
  | case1 error read => simp [read, Except.map]
  | case2 qualifier name rest read =>
      simp [read, Except.map, faithful.keeps, Selector.translate]
  | case3 qualifier rest read =>
      simp [read, Except.map, faithful.keeps, Selector.translate]
  | case4 found noName noAny read =>
      obtain ⟨qualifier, rest⟩ := found
      simp only [read, Except.map, Prod.map, id_eq]
      split
      · next fails => cases fails
      · next isName =>
          obtain ⟨rfl, shape⟩ := Prod.mk.inj (Except.ok.inj isName)
          obtain ⟨behind, rfl, _⟩ := (faithful.eq_cons_iff (by simp) (by simp)).mp shape
          exact absurd rfl (noName _ _ _)
      · next isAny =>
          obtain ⟨rfl, shape⟩ := Prod.mk.inj (Except.ok.inj isAny)
          obtain ⟨behind, rfl, _⟩ := (faithful.eq_cons_iff (by simp) (by simp)).mp shape
          exact absurd rfl (noAny _ _)
      · rfl

end Types

section Attributes

/-- A matcher is read alike, for no part of it is changed. -/
theorem attributeMatcher?_eq :
    attributeMatcher? (translation.tokens tokens) =
      (attributeMatcher? tokens).map (Prod.map id translation.tokens) := by
  fun_cases attributeMatcher? tokens with
  | case1 rest => simp [faithful.keeps, attributeMatcher?]
  | case2 char rest notEquals => simp [faithful.keeps, attributeMatcher?]
  | case3 tokens noEquals noMark =>
      rw [attributeMatcher?.eq_3]
      · rfl
      · simpa [faithful.eq_cons_iff] using noEquals
      · intro char rest shape
        obtain ⟨middle, rfl, same⟩ := (faithful.eq_cons_iff (by simp) (by simp)).mp shape
        obtain ⟨behind, rfl, _⟩ := (faithful.eq_cons_iff (by simp) (by simp)).mp same
        exact noMark char behind rfl

/-- A flag is read alike, for no name in brackets is changed. -/
theorem caseModifier?_eq :
    caseModifier? (translation.tokens tokens) =
      (caseModifier? tokens).map (Prod.map id translation.tokens) := by
  fun_cases caseModifier? tokens with
  | case1 flag rest isI => simp [faithful.keeps, caseModifier?, isI]
  | case2 flag rest notI isS => simp [faithful.keeps, caseModifier?, notI, isS]
  | case3 flag rest notI notS => simp [faithful.keeps, caseModifier?, notI, notS]
  | case4 tokens noName =>
      rw [caseModifier?.eq_2]
      · rfl
      · simpa [faithful.eq_cons_iff] using noName

/-- The expected value is read alike from both rows. -/
theorem attributeValue?_eq :
    attributeValue? (translation.tokens tokens) =
      (attributeValue? tokens).map (Prod.map id translation.tokens) := by
  fun_cases attributeValue? tokens with
  | case1 value rest => simp [faithful.keeps, attributeValue?]
  | case2 value rest => simp [faithful.keeps, attributeValue?]
  | case3 tokens noString noName =>
      rw [attributeValue?.eq_3]
      · rfl
      · simpa [faithful.eq_cons_iff] using noString
      · simpa [faithful.eq_cons_iff] using noName

theorem optionalModifier_eq :
    optionalModifier (translation.tokens tokens) =
      Prod.map id translation.tokens (optionalModifier tokens) := by
  rw [optionalModifier, optionalModifier, faithful.caseModifier?_eq]
  rcases caseModifier? tokens with _ | ⟨modifier, rest⟩
  · rfl
  · simp [faithful.skipBlanks]

/-- The condition of an attribute is read alike from both rows. -/
theorem attributeCondition_eq
    (name : String)
    (qualifier : Option String) :
    attributeCondition name qualifier (translation.tokens tokens) =
      (attributeCondition name qualifier tokens).map (Prod.map id translation.tokens) := by
  rw [attributeCondition, attributeCondition, faithful.attributeMatcher?_eq]
  rcases attributeMatcher? tokens with _ | ⟨matcher, behind⟩
  · rfl
  · simp only [Option.map_some, Prod.map, id_eq, faithful.skipBlanks, faithful.attributeValue?_eq]
    rcases attributeValue? (Parser.skipBlanks behind) with _ | ⟨value, afterValue⟩
    · rfl
    · simp only [Option.map_some, Prod.map, id_eq, faithful.skipBlanks,
        faithful.optionalModifier_eq]
      rfl

/-- What stands in brackets is read alike from both rows. -/
theorem attributeTest_eq :
    attributeTest (translation.tokens tokens) =
      (attributeTest tokens).map (Prod.map id translation.tokens) := by
  rw [attributeTest.eq_def, faithful.skipBlanks, faithful.optionalQualifier_eq]
  fun_cases attributeTest tokens with
  | case1 error read => simp [read, Except.map]
  | case2 qualifier name rest read =>
      simp [read, Except.map, faithful.keeps, faithful.skipBlanks, faithful.attributeCondition_eq]
  | case3 found noName read =>
      obtain ⟨qualifier, rest⟩ := found
      simp only [read, Except.map, Prod.map, id_eq]
      split
      · next fails => cases fails
      · next isName =>
          obtain ⟨rfl, shape⟩ := Prod.mk.inj (Except.ok.inj isName)
          obtain ⟨behind, rfl, _⟩ := (faithful.eq_cons_iff (by simp) (by simp)).mp shape
          exact absurd rfl (noName _ _ _)
      · rfl

/-- An attribute selector is read alike, with the same notice if it is left open. -/
theorem bracketed_eq :
    bracketed (translation.tokens tokens) =
      Prod.map (Selector.translate translation) translation.tokens <$> bracketed tokens := by
  rw [bracketed.eq_def, faithful.attributeTest_eq]
  fun_cases bracketed tokens with
  | case1 error read => simp [read, Except.map, Reading.map_failure]
  | case2 test rest read =>
      simp [read, Except.map, faithful.keeps, Reading.map_value, Selector.translate]
  | case3 test read =>
      simp [read, Except.map, faithful.empty, Reading.map_ok, Selector.translate]
  | case4 found noBracket noEnd read =>
      obtain ⟨test, rest⟩ := found
      simp only [read, Except.map, Prod.map, id_eq, Reading.map_failure]
      split
      · next fails => cases fails
      · next isBracket =>
          obtain ⟨rfl, shape⟩ := Prod.mk.inj (Except.ok.inj isBracket)
          obtain ⟨behind, rfl, _⟩ := (faithful.eq_cons_iff (by simp) (by simp)).mp shape
          exact absurd rfl (noBracket _ _)
      · next isEnd =>
          obtain ⟨rfl, shape⟩ := Prod.mk.inj (Except.ok.inj isEnd)
          exact absurd (congrArg _ (faithful.eq_nil_iff.mp shape)) (noEnd _)
      · rfl

end Attributes

section PseudoNames

/-- Behind a colon the same form is read, and the name that the translation gives. -/
theorem pseudoName?_eq :
    pseudoName? (translation.behindColon tokens) =
      (pseudoName? tokens).map translation.pseudoName := by
  rcases tokens with _ | ⟨token, rest⟩
  · simp [behindColon, faithful.empty, pseudoName?]
  · obtain ⟨behind, shape⟩ := faithful.exists_eq_cons token rest
    cases token with
    | ident name => rfl
    | function name => rfl
    | colon =>
        -- A second colon makes it a pseudo-element, named by what stands behind that.
        simp only [behindColon, faithful.colon]
        rcases rest with _ | ⟨second, others⟩
        · simp [faithful.empty, pseudoName?]
        · obtain ⟨further, same⟩ := faithful.exists_eq_cons second others
          cases second with
          | ident name => rfl
          | function name => rfl
          | _ => simp [same, pseudoName?]
    | _ => simp [behindColon, shape, pseudoName?]

end PseudoNames

section Combinators

/-- A combinator that is written out is read alike from both rows. -/
theorem explicitCombinator?_eq :
    explicitCombinator? (translation.tokens tokens) =
      (explicitCombinator? tokens).map (Prod.map id translation.tokens) := by
  fun_cases explicitCombinator? tokens with
  | case1 char rest =>
      rw [faithful.keeps (by simp) (by simp), explicitCombinator?, faithful.skipBlanks,
        Option.map_map]
      rfl
  | case2 tokens noDelim =>
      rw [explicitCombinator?.eq_2]
      · rfl
      · simpa [faithful.eq_cons_iff] using noDelim

/-- A combinator or the blanks that are one are read alike from both rows. -/
theorem combinator?_eq :
    combinator? (translation.tokens tokens) =
      (combinator? tokens).map (Prod.map id translation.tokens) := by
  simp only [combinator?, faithful.skipBlanks, faithful.explicitCombinator?_eq,
    faithful.startsBlank]
  rcases explicitCombinator? (Parser.skipBlanks tokens) with _ | found
  · cases Parser.startsBlank tokens <;> rfl
  · rfl

end Combinators

end Faithful

/-- A step reads from translated tokens the translation of what it reads, up to a length. -/
def Follows
    (translation : Translation)
    (limit : Nat)
    {α : Type}
    (change : α → α)
    (step : List Token → Reading (Option (α × List Token))) : Prop :=
  ∀ tokens, tokens.length ≤ limit →
    step (translation.tokens tokens) =
      Option.map (Prod.map change translation.tokens) <$> step tokens

/-- What holds of one step holds of a row of them. -/
theorem Follows.many
    {translation : Translation}
    {limit : Nat}
    {α : Type}
    {change : α → α}
    {step : List Token → Reading (Option (α × List Token))}
    (follows : translation.Follows limit change step)
    (advances : Advances step)
    {tokens : List Token}
    (short : tokens.length ≤ limit) :
    many step (translation.tokens tokens) =
      Prod.map (List.map change) translation.tokens <$> many step tokens := by
  induction h : tokens.length using Nat.strongRecOn generalizing tokens with
  | _ length inductionHypothesis =>
      rw [many_eq advances, many_eq advances, follows tokens short, ← Reading.bind_eq_andThen,
        ← Reading.bind_eq_andThen, bind_map_left, map_bind]
      refine andThen_congr fun result read => ?_
      rcases result with _ | ⟨item, rest⟩
      · rfl
      · have place := advances tokens item rest read
        have later := inductionHypothesis rest.length (h ▸ place.shorter)
          (place.suffix.length_le.trans short) rfl
        simp only [Option.map_some, Prod.map, manyNext, later, bind_map_left, map_bind]
        rfl

/--
What is needed to read selectors up to a length: a faithful translation, no
rule of the caller's, and lists inside parentheses that are read along with it.
-/
structure ReadsAlong
    (translation : Translation)
    (rules : ArgumentRules)
    (readList : List Token → Reading (List Selector))
    (limit : Nat) : Prop where
  faithful :
    translation.Faithful
  customless :
    Selector.Customless rules
  inside :
    ∀ tokens, tokens.length < limit →
      readList (translation.tokens tokens) =
        List.map (Selector.translate translation) <$> readList tokens

namespace ReadsAlong

variable
  {translation : Translation}
  {rules : ArgumentRules}
  {readList : List Token → Reading (List Selector)}
  {limit : Nat}
  (along : translation.ReadsAlong rules readList limit)
  {tokens : List Token}

include along

/-- An argument is translated as its rule has it, the rule being the same. -/
theorem argument_eq
    (fewer : tokens.length < limit)
    (form : PseudoForm)
    (name : String) :
    argument rules readList form (translation.name name) (translation.tokens tokens) =
      Argument.translate translation <$> argument rules readList form name tokens := by
  rw [argument, argument, along.faithful.ruleKey]
  cases lookup : rules.get? (Parser.ruleKey form name) with
  | none => rfl
  | some rule =>
      cases rule with
      | raw => rfl
      | selectorList =>
          simp only [along.inside tokens fewer, bind_map_left, map_bind,
            ← Selector.translateAll_eq_map]
          rfl
      | anPlusB => rfl
      | custom read => exact absurd lookup (along.customless _ _)

/-- A pseudo selector is read with its translated name and argument. -/
theorem pseudo?_eq
    (short : tokens.length ≤ limit) :
    pseudo? rules readList (translation.behindColon tokens) =
      Option.map (Prod.map (Selector.translate translation) translation.tokens) <$>
        pseudo? rules readList tokens := by
  rw [pseudo?, pseudo?, along.faithful.pseudoName?_eq]
  rcases found : pseudoName? tokens with _ | ⟨form, token, rest⟩
  · rfl
  · cases token with
    | function name =>
        simp only [Option.map_some, pseudoName, along.faithful.splitArgument?]
        cases cut : Parser.splitArgument? 0 rest with
        | none => rfl
        | some parts =>
            have fewer := splitArgument?_inside_length cut
            have outer := (pseudoName?_behind found).shorter
            have within : parts.1.length < limit := by
              omega
            simp only [Option.map_some, Prod.map_fst, along.argument_eq within, bind_map_left,
              map_bind]
            rfl
    | _ => rfl

/-- Reading a simple selector follows the translation. -/
theorem simple?_follows :
    translation.Follows limit (Selector.translate translation) (simple? rules readList) := by
  intro tokens short
  have faithful := along.faithful
  rw [simple?.eq_def, faithful.typeSelector?_eq]
  fun_cases simple? rules readList tokens with
  | case1 tokens error read =>
      simp only [read, Except.map, Reading.map_failure]
  | case2 tokens found read =>
      simp only [read, Except.map, Option.map_some, Reading.map_value]
  | case3 name kind rest read =>
      simp [read, Except.map, faithful.keeps, Reading.map_value, Selector.translate]
  | case4 name rest read =>
      simp [read, Except.map, faithful.keeps, Reading.map_value, Selector.translate]
  | case5 rest read =>
      have kept : translation.tokens (.leftBracket :: rest) =
          .leftBracket :: translation.tokens rest :=
        faithful.keeps (by simp) (by simp)
      simp only [read, Except.map, Option.map_none, kept, faithful.bracketed_eq, bind_map_left,
        map_bind]
      rfl
  | case6 rest read =>
      simp only [read, Except.map, Option.map_none, faithful.colon]
      exact along.pseudo?_eq (Nat.le_of_succ_le short)
  | case7 tokens read noHash noPoint noBracket noColon =>
      simp only [read, Except.map, Option.map_none, Reading.map_value]
      split
      · next shape =>
          obtain ⟨behind, rfl⟩ := faithful.exists_of_eq_cons shape
          exact absurd rfl (noHash _ _ _)
      · next shape =>
          obtain ⟨middle, rfl, same⟩ := (faithful.eq_cons_iff (by simp) (by simp)).mp shape
          obtain ⟨behind, rfl⟩ := faithful.exists_of_eq_cons same
          exact absurd rfl (noPoint _ _)
      · next shape =>
          obtain ⟨behind, rfl⟩ := faithful.exists_of_eq_cons shape
          exact absurd rfl (noBracket _)
      · next shape =>
          obtain ⟨behind, rfl⟩ := faithful.exists_of_eq_cons shape
          exact absurd rfl (noColon _)
      · rfl

/-- Reading a compound, a repetition of simple selectors, follows the translation. -/
theorem compound?_follows :
    translation.Follows limit (Selector.translate translation) (compound? rules readList) := by
  intro tokens short
  rw [compound?, compound?, along.simple?_follows.many advances_simple? short, bind_map_left,
    map_bind]
  refine congrArg (_ >>= ·) (funext fun result => ?_)
  obtain ⟨members, rest⟩ := result
  simp only [Prod.map, compoundOf?_translate, Reading.pure_eq_value, Reading.map_value,
    Option.map_map]
  rfl

/-- Reading a combinator and its compound follows the translation. -/
theorem link?_follows :
    translation.Follows limit (Prod.map id (Selector.translate translation))
      (link? rules readList) := by
  intro tokens short
  rw [link?, link?, along.faithful.combinator?_eq]
  rcases read : combinator? tokens with _ | ⟨combinator, behind⟩
  · rfl
  · have within := (combinator?_suffix read).length_le.trans short
    simp only [Option.map_some, Prod.map, id_eq, along.compound?_follows behind within,
      bind_map_left, map_bind]
    refine congrArg (_ >>= ·) (funext fun result => ?_)
    rcases result with _ | ⟨right, rest⟩
    · by_cases blanks : combinator = .descendant
      · simp [blanks, Reading.map_value]
      · simp [blanks, Reading.map_failure]
    · rfl

/-- Reading the start of a chain follows the translation. -/
theorem chainStart?_follows :
    translation.Follows limit (Selector.translate translation) (chainStart? rules readList) := by
  intro tokens short
  rw [chainStart?, chainStart?, along.faithful.explicitCombinator?_eq]
  rcases read : explicitCombinator? tokens with _ | ⟨combinator, behind⟩
  · exact along.compound?_follows tokens short
  · have within := (explicitCombinator?_behind read).suffix.length_le.trans short
    simp only [Option.map_some, Prod.map, id_eq, along.compound?_follows behind within,
      bind_map_left, map_bind]
    refine congrArg (_ >>= ·) (funext fun result => ?_)
    rcases result with _ | ⟨right, rest⟩ <;> rfl

/-- Reading a complex selector follows the translation, link by link. -/
theorem complex?_follows :
    translation.Follows limit (Selector.translate translation) (complex? rules readList) := by
  intro tokens short
  rw [complex?, complex?, along.chainStart?_follows tokens short, bind_map_left, map_bind]
  refine andThen_congr fun result read => ?_
  rcases result with _ | ⟨first, behind⟩
  · rfl
  · have within := (chainStart?_behind read).suffix.length_le.trans short
    simp only [Option.map_some, Prod.map, along.link?_follows.many advances_link? within,
      bind_map_left, map_bind]
    refine congrArg (_ >>= ·) (funext fun linked => ?_)
    obtain ⟨links, rest⟩ := linked
    simp only [Reading.pure_eq_value, Reading.map_value, Option.map_some, Prod.map,
      chain_translate]

/-- A member of a list is read alike, with the same error if there is none. -/
theorem member_eq
    (short : tokens.length ≤ limit) :
    member rules readList (translation.tokens tokens) =
      Prod.map (Selector.translate translation) translation.tokens <$>
        member rules readList tokens := by
  have within := (skipBlanks_suffix tokens).length_le.trans short
  rw [member, member, along.faithful.skipBlanks, along.complex?_follows _ within, bind_map_left,
    map_bind, along.faithful.unexpected_eq]
  refine congrArg (_ >>= ·) (funext fun result => ?_)
  rcases result with _ | found <;> rfl

/-- Reading a comma and the next member follows the translation. -/
theorem furtherMember?_follows :
    translation.Follows limit (Selector.translate translation)
      (furtherMember? rules readList) := by
  intro tokens short
  have faithful := along.faithful
  have notLonger := (skipBlanks_suffix tokens).length_le
  rw [furtherMember?.eq_def, faithful.skipBlanks]
  fun_cases furtherMember? rules readList tokens with
  | case1 shape => simp [shape, faithful.empty, Reading.map_value]
  | case2 rest shape =>
      rw [shape, List.length_cons] at notLonger
      have within : rest.length ≤ limit := by
        omega
      have kept : translation.tokens (.comma :: rest) = .comma :: translation.tokens rest :=
        faithful.keeps (by simp) (by simp)
      simp only [shape, kept, along.member_eq within, bind_map_left, map_bind]
      rfl
  | case3 token rest noComma shape =>
      obtain ⟨behind, cons⟩ := faithful.exists_eq_cons token rest
      rw [shape, cons, Reading.map_failure]
      split <;> simp_all

/-- A whole list is translated member by member. -/
theorem selectorList_eq
    (short : tokens.length ≤ limit) :
    selectorList rules readList (translation.tokens tokens) =
      List.map (Selector.translate translation) <$> selectorList rules readList tokens := by
  rw [selectorList, selectorList, along.faithful.skipBlanks, along.faithful.isEmpty_eq]
  split
  · rfl
  · rw [along.member_eq short, bind_map_left, map_bind]
    refine andThen_congr fun result read => ?_
    obtain ⟨first, behind⟩ := result
    have within := (member_behind read).suffix.length_le.trans short
    simp only [Prod.map, along.furtherMember?_follows.many advances_furtherMember? within,
      bind_map_left, map_bind]
    rfl

end ReadsAlong

end Translation

/-- Translated tokens are read as the translation of what the tokens are read as. -/
theorem parseTokens_translate
    {translation : Translation}
    (faithful : translation.Faithful)
    {rules : ArgumentRules}
    (customless : Selector.Customless rules)
    (tokens : List Token) :
    parseTokens rules (translation.tokens tokens) =
      List.map (Selector.translate translation) <$> parseTokens rules tokens := by
  induction h : tokens.length using Nat.strongRecOn generalizing tokens with
  | _ length inductionHypothesis =>
      have along : translation.ReadsAlong rules (parseTokens rules) tokens.length :=
        ⟨faithful, customless, fun inside fewer =>
          inductionHypothesis inside.length (h ▸ fewer) inside rfl⟩
      rw [parseTokens_eq, parseTokens_eq rules tokens]
      exact along.selectorList_eq le_rfl

end TreeSelectors
