import TreeSelectors.Selector.Parser

namespace TreeSelectors.Parser

/-!
# Readings move forward

Whatever is read from tokens leaves a suffix of them, and whatever is read at
all takes up at least one token: `Behind`. So the guards that end the
recursion never bite: `many_eq` repeats a step without one, and `parseTokens_eq`
reads the selector lists inside parentheses by `parseTokens` itself. These are
the arguments in the tokens, and no other lists are read: `selectorList_congr`.
-/

/-- Tokens that are left of others when at least one of them is taken away. -/
structure Behind (rest tokens : List Token) : Prop where
  suffix : rest <:+ tokens
  shorter : rest.length < tokens.length

namespace Behind

theorem tail
    (token : Token)
    (rest : List Token) :
    Behind rest (token :: rest) :=
  ⟨List.suffix_cons token rest, by simp⟩

/-- What is behind the start of a suffix is behind the start of the whole. -/
theorem thenSuffix
    {rest middle tokens : List Token}
    (behind : Behind rest middle)
    (suffix : middle <:+ tokens) :
    Behind rest tokens :=
  ⟨behind.suffix.trans suffix, Nat.lt_of_lt_of_le behind.shorter suffix.length_le⟩

/-- A suffix of what is behind the start is behind it too. -/
theorem ofSuffix
    {rest middle tokens : List Token}
    (suffix : rest <:+ middle)
    (behind : Behind middle tokens) :
    Behind rest tokens :=
  ⟨suffix.trans behind.suffix, Nat.lt_of_le_of_lt suffix.length_le behind.shorter⟩

/-- Two steps forward lead behind the start of the first. -/
theorem trans
    {rest middle tokens : List Token}
    (first : Behind rest middle)
    (second : Behind middle tokens) :
    Behind rest tokens :=
  first.thenSuffix second.suffix

/-- Behind the second of two tokens. -/
theorem second
    (first second : Token)
    (rest : List Token) :
    Behind rest (first :: second :: rest) :=
  (tail second rest).trans (tail first _)

end Behind

/-- Skipping blanks leaves a suffix. -/
theorem skipBlanks_suffix
    (tokens : List Token) :
    skipBlanks tokens <:+ tokens :=
  List.dropWhile_suffix _

/-- What belongs to a namespace bar is all that stands behind it. -/
theorem qualified?_eq_some
    {qualifier name : String}
    {tokens rest : List Token}
    (found : qualified? qualifier tokens = .ok (some (name, rest))) :
    rest = tokens := by
  unfold qualified? at found
  split at found <;> simp_all

/-- A namespace takes up its bar at least. -/
theorem qualifier?_behind
    {name : String}
    {tokens rest : List Token}
    (found : qualifier? tokens = .ok (some (name, rest))) :
    Behind rest tokens := by
  unfold qualifier? at found
  split at found
  · exact qualified?_eq_some found ▸ Behind.second _ _ _
  · exact qualified?_eq_some found ▸ Behind.second _ _ _
  · exact qualified?_eq_some found ▸ Behind.tail _ _
  · simp at found

/-- Where there need not be a namespace, nothing may be taken up. -/
theorem optionalQualifier_suffix
    {qualifier : Option String}
    {tokens rest : List Token}
    (found : optionalQualifier tokens = .ok (qualifier, rest)) :
    rest <:+ tokens := by
  unfold optionalQualifier at found
  split at found
  · simp at found
  · rename_i name behind read
    simp only [Except.ok.injEq, Prod.mk.injEq] at found
    exact found.2 ▸ (qualifier?_behind read).suffix
  · simp only [Except.ok.injEq, Prod.mk.injEq] at found
    exact found.2 ▸ List.suffix_refl tokens

/-- A type selector takes up a name or `*` at least. -/
theorem typeSelector?_behind
    {selector : Selector}
    {tokens rest : List Token}
    (found : typeSelector? tokens = .ok (some (selector, rest))) :
    Behind rest tokens := by
  unfold typeSelector? at found
  split at found
  · simp at found
  · rename_i read
    simp only [Except.ok.injEq, Option.some.injEq, Prod.mk.injEq] at found
    exact found.2 ▸ (Behind.tail _ _).thenSuffix (optionalQualifier_suffix read)
  · rename_i read
    simp only [Except.ok.injEq, Option.some.injEq, Prod.mk.injEq] at found
    exact found.2 ▸ (Behind.tail _ _).thenSuffix (optionalQualifier_suffix read)
  · simp at found

/-- A matcher takes up its equals sign at least. -/
theorem attributeMatcher?_behind
    {matcher : AttributeMatcher}
    {tokens rest : List Token}
    (found : attributeMatcher? tokens = some (matcher, rest)) :
    Behind rest tokens := by
  unfold attributeMatcher? at found
  split at found
  · cases found
    exact Behind.tail _ _
  · cases found
    exact Behind.second _ _ _
  · simp at found

/-- A flag takes up its name. -/
theorem caseModifier?_behind
    {modifier : CaseModifier}
    {tokens rest : List Token}
    (found : caseModifier? tokens = some (modifier, rest)) :
    Behind rest tokens := by
  unfold caseModifier? at found
  split at found
  · split at found
    · cases found
      exact Behind.tail _ _
    · split at found
      · cases found
        exact Behind.tail _ _
      · simp at found
  · simp at found

/-- An expected value takes up a token. -/
theorem attributeValue?_behind
    {value : String}
    {tokens rest : List Token}
    (found : attributeValue? tokens = some (value, rest)) :
    Behind rest tokens := by
  unfold attributeValue? at found
  split at found <;> cases found <;> exact Behind.tail _ _

theorem optionalModifier_suffix
    (tokens : List Token) :
    (optionalModifier tokens).2 <:+ tokens := by
  unfold optionalModifier
  split
  · rename_i read
    exact (skipBlanks_suffix _).trans (caseModifier?_behind read).suffix
  · exact List.suffix_refl tokens

/-- The condition of an attribute leaves a suffix, and may take up nothing. -/
theorem attributeCondition_suffix
    {name : String}
    {qualifier : Option String}
    {test : AttributeTest}
    {tokens rest : List Token}
    (found : attributeCondition name qualifier tokens = .ok (test, rest)) :
    rest <:+ tokens := by
  unfold attributeCondition at found
  split at found
  · cases found
    exact List.suffix_refl tokens
  · rename_i matched
    split at found
    · simp at found
    · rename_i valued
      cases found
      exact (optionalModifier_suffix _).trans ((skipBlanks_suffix _).trans
        ((attributeValue?_behind valued).suffix.trans ((skipBlanks_suffix _).trans
          (attributeMatcher?_behind matched).suffix)))

/-- What stands in brackets leaves a suffix. -/
theorem attributeTest_suffix
    {test : AttributeTest}
    {tokens rest : List Token}
    (found : attributeTest tokens = .ok (test, rest)) :
    rest <:+ tokens := by
  unfold attributeTest at found
  split at found
  · simp at found
  · rename_i read
    exact (attributeCondition_suffix found).trans ((skipBlanks_suffix _).trans
      ((List.suffix_cons _ _).trans ((optionalQualifier_suffix read).trans
        (skipBlanks_suffix _))))
  · simp at found

/-- An attribute selector leaves a suffix of what stands behind its bracket. -/
theorem bracketed_suffix
    {selector : Selector}
    {tokens rest : List Token}
    (found : (bracketed tokens).outcome = .ok (selector, rest)) :
    rest <:+ tokens := by
  unfold bracketed at found
  split at found
  · simp [Reading.failure] at found
  · rename_i read
    simp only [Reading.value, Except.ok.injEq, Prod.mk.injEq] at found
    exact found.2 ▸ (List.suffix_cons _ _).trans (attributeTest_suffix read)
  · simp only [Except.ok.injEq, Prod.mk.injEq] at found
    exact found.2 ▸ List.nil_suffix
  · simp [Reading.failure] at found

/-- An argument and what is behind it are cut apart by a closing parenthesis. -/
theorem splitArgument?_eq_some
    {depth : Nat}
    {tokens inside behind : List Token}
    (found : splitArgument? depth tokens = some (inside, behind)) :
    tokens = inside ++ .rightParen :: behind := by
  fun_induction splitArgument? depth tokens generalizing inside behind with
  | case1 => simp at found
  | case2 rest =>
      cases found
      rfl
  | case3 depth rest inductionHypothesis =>
      obtain ⟨⟨first, second⟩, read, same⟩ := Option.map_eq_some_iff.mp found
      cases same
      simp [inductionHypothesis read]
  | case4 depth rest inductionHypothesis =>
      obtain ⟨⟨first, second⟩, read, same⟩ := Option.map_eq_some_iff.mp found
      cases same
      simp [inductionHypothesis read]
  | case5 depth name rest inductionHypothesis =>
      obtain ⟨⟨first, second⟩, read, same⟩ := Option.map_eq_some_iff.mp found
      cases same
      simp [inductionHypothesis read]
  | case6 depth token rest _ _ _ _ inductionHypothesis =>
      obtain ⟨⟨first, second⟩, read, same⟩ := Option.map_eq_some_iff.mp found
      cases same
      simp [inductionHypothesis read]

/-- An argument has fewer tokens than there are, for a parenthesis closes it. -/
theorem splitArgument?_inside_length
    {depth : Nat}
    {tokens inside behind : List Token}
    (found : splitArgument? depth tokens = some (inside, behind)) :
    inside.length < tokens.length := by
  rw [splitArgument?_eq_some found]
  simp

/-- What follows an argument is behind the parenthesis that closes it. -/
theorem splitArgument?_behind
    {depth : Nat}
    {tokens inside behind : List Token}
    (found : splitArgument? depth tokens = some (inside, behind)) :
    Behind behind tokens := by
  rw [splitArgument?_eq_some found]
  exact (Behind.tail _ _).thenSuffix (List.suffix_append _ _)

/-- The name of a pseudo selector and what follows it are a suffix. -/
theorem pseudoName?_suffix
    {form : PseudoForm}
    {token : Token}
    {tokens rest : List Token}
    (found : pseudoName? tokens = some (form, token, rest)) :
    token :: rest <:+ tokens := by
  unfold pseudoName? at found
  split at found <;> cases found
  · exact List.suffix_cons _ _
  · exact List.suffix_cons _ _
  · exact List.suffix_refl _
  · exact List.suffix_refl _

/-- A pseudo selector takes up its name. -/
theorem pseudoName?_behind
    {form : PseudoForm}
    {token : Token}
    {tokens rest : List Token}
    (found : pseudoName? tokens = some (form, token, rest)) :
    Behind rest tokens :=
  (Behind.tail token rest).thenSuffix (pseudoName?_suffix found)

/-- An argument is what a scan cuts off behind one of the function tokens. -/
def HasArgument (tokens inside : List Token) : Prop :=
  ∃ name rest behind, .function name :: rest <:+ tokens ∧
    splitArgument? 0 rest = some (inside, behind)

namespace HasArgument

variable {tokens rest inside : List Token}

/-- An argument of a suffix is one of the whole. -/
theorem ofSuffix
    (suffix : rest <:+ tokens)
    (has : HasArgument rest inside) :
    HasArgument tokens inside := by
  obtain ⟨name, later, behind, isFunction, cut⟩ := has
  exact ⟨name, later, behind, isFunction.trans suffix, cut⟩

/-- An argument has fewer tokens than those that it is found in. -/
theorem shorter
    (has : HasArgument tokens inside) :
    inside.length < tokens.length := by
  obtain ⟨name, later, behind, isFunction, cut⟩ := has
  have within := splitArgument?_inside_length cut
  have whole := isFunction.length_le
  rw [List.length_cons] at whole
  omega

end HasArgument

section Lists

variable {rules : ArgumentRules} {readList : List Token → Reading (List Selector)}

/-- A pseudo selector takes up its name at least. -/
theorem pseudo?_behind
    {selector : Selector}
    {tokens rest : List Token}
    (found : (pseudo? rules readList tokens).outcome = .ok (some (selector, rest))) :
    Behind rest tokens := by
  unfold pseudo? at found
  split at found
  · rename_i read
    simp only [Reading.value, Except.ok.injEq, Option.some.injEq, Prod.mk.injEq] at found
    exact found.2 ▸ pseudoName?_behind read
  · rename_i read
    split at found
    · simp [Reading.failure] at found
    · rename_i cut
      simp only [Reading.bind_eq_andThen, Reading.outcome_andThen_eq_ok, Reading.pure_eq_value,
        Reading.value, Except.ok.injEq, Option.some.injEq, Prod.mk.injEq] at found
      obtain ⟨_, _, _, same⟩ := found
      exact same ▸ (splitArgument?_behind cut).trans (pseudoName?_behind read)
  · simp [Reading.value] at found

/-- A simple selector takes up at least one token. -/
theorem simple?_behind
    {selector : Selector}
    {tokens rest : List Token}
    (found : (simple? rules readList tokens).outcome = .ok (some (selector, rest))) :
    Behind rest tokens := by
  unfold simple? at found
  split at found
  · simp [Reading.failure] at found
  · rename_i read
    simp only [Reading.value, Except.ok.injEq, Option.some.injEq] at found
    exact typeSelector?_behind (found ▸ read)
  · split at found
    · simp only [Reading.value, Except.ok.injEq, Option.some.injEq, Prod.mk.injEq] at found
      exact found.2 ▸ Behind.tail _ _
    · simp only [Reading.value, Except.ok.injEq, Option.some.injEq, Prod.mk.injEq] at found
      exact found.2 ▸ Behind.second _ _ _
    · simp only [Reading.bind_eq_andThen, Reading.outcome_andThen_eq_ok, Reading.pure_eq_value,
        Reading.value, Except.ok.injEq, Option.some.injEq] at found
      obtain ⟨_, read, same⟩ := found
      subst same
      exact Behind.ofSuffix (bracketed_suffix read) (Behind.tail _ _)
    · exact (pseudo?_behind found).trans (Behind.tail _ _)
    · simp [Reading.value] at found

end Lists

/-- Two sequences of readings agree if their parts do, the second on what the first can give. -/
theorem andThen_congr
    {α β : Type}
    {first : Reading α}
    {next further : α → Reading β}
    (agree : ∀ result, first.outcome = .ok result → next result = further result) :
    first.andThen next = first.andThen further := by
  unfold Reading.andThen
  split
  · rename_i result read
    rw [agree result read]
  · rfl

section Repetition

variable {α : Type} {step : List Token → Reading (Option (α × List Token))}

/-- A step that takes up at least one token whenever it reads something. -/
def Advances (step : List Token → Reading (Option (α × List Token))) : Prop :=
  ∀ tokens item rest, (step tokens).outcome = .ok (some (item, rest)) → Behind rest tokens

/-- What follows one more step of a repetition. -/
def manyNext (step : List Token → Reading (Option (α × List Token))) (tokens : List Token) :
    Option (α × List Token) → Reading (List α × List Token)
  | none => .value ([], tokens)
  | some (item, rest) => do
      let (items, behind) ← many step rest
      return (item :: items, behind)

/-- A repetition is one step and, if it read something, the repetition behind it. -/
theorem many_eq
    (advances : Advances step)
    (tokens : List Token) :
    many step tokens = (step tokens).andThen (manyNext step tokens) := by
  rw [many]
  split
  · rename_i read
    simp [read, Reading.andThen]
  · rename_i read
    simp [read, Reading.andThen, manyNext, Reading.noticing, Reading.value]
  · rename_i item rest read
    have shorter := (advances tokens item rest (by rw [read])).shorter
    simp only [read, Reading.andThen, manyNext, if_pos shorter]

/-- Repeating a step leaves a suffix, though it may take up nothing. -/
theorem many_suffix
    (advances : Advances step)
    {items : List α}
    {tokens rest : List Token}
    (found : (many step tokens).outcome = .ok (items, rest)) :
    rest <:+ tokens := by
  induction h : tokens.length using Nat.strongRecOn generalizing tokens items with
  | _ length inductionHypothesis =>
      rw [many_eq advances, Reading.outcome_andThen_eq_ok] at found
      obtain ⟨middle, read, found⟩ := found
      match middle with
      | none =>
          simp only [manyNext, Reading.value, Except.ok.injEq, Prod.mk.injEq] at found
          exact found.2 ▸ List.suffix_refl tokens
      | some (item, behind) =>
          simp only [manyNext, Reading.bind_eq_andThen, Reading.outcome_andThen_eq_ok] at found
          obtain ⟨⟨others, final⟩, later, same⟩ := found
          simp only [Reading.pure_eq_value, Reading.value, Except.ok.injEq, Prod.mk.injEq] at same
          obtain ⟨_, sameRest⟩ := same
          subst sameRest
          have place := advances tokens item behind read
          exact (inductionHypothesis _ (h ▸ place.shorter) later rfl).trans place.suffix

/-- A repetition that reads anything takes up at least one token. -/
theorem many_behind
    (advances : Advances step)
    {item : α}
    {items : List α}
    {tokens rest : List Token}
    (found : (many step tokens).outcome = .ok (item :: items, rest)) :
    Behind rest tokens := by
  rw [many_eq advances, Reading.outcome_andThen_eq_ok] at found
  obtain ⟨middle, read, found⟩ := found
  match middle with
  | none =>
      simp [manyNext, Reading.value] at found
  | some (first, behind) =>
      simp only [manyNext, Reading.bind_eq_andThen, Reading.outcome_andThen_eq_ok] at found
      obtain ⟨⟨others, final⟩, later, same⟩ := found
      simp only [Reading.pure_eq_value, Reading.value, Except.ok.injEq, Prod.mk.injEq] at same
      exact Behind.ofSuffix (same.2 ▸ many_suffix advances later)
        (advances tokens first behind read)

/-- Steps that agree wherever a repetition can come repeat alike. -/
theorem many_congr
    {other : List Token → Reading (Option (α × List Token))}
    (advances : Advances step)
    (otherAdvances : Advances other)
    {tokens : List Token}
    (agree : ∀ rest, rest <:+ tokens → step rest = other rest) :
    many step tokens = many other tokens := by
  induction h : tokens.length using Nat.strongRecOn generalizing tokens with
  | _ length inductionHypothesis =>
      rw [many_eq advances, many_eq otherAdvances, agree tokens (List.suffix_refl tokens)]
      refine andThen_congr fun found read => ?_
      cases found with
      | none => rfl
      | some found =>
          obtain ⟨item, rest⟩ := found
          have place := otherAdvances tokens item rest read
          have same := inductionHypothesis rest.length (h ▸ place.shorter)
            (fun later suffix => agree later (suffix.trans place.suffix)) rfl
          simp only [manyNext, same]

end Repetition

section Lists

variable {rules : ArgumentRules} {readList : List Token → Reading (List Selector)}

/-- A simple selector takes up tokens and so can be repeated. -/
theorem advances_simple? :
    Advances (simple? rules readList) :=
  fun _ _ _ found => simple?_behind found

/-- A compound takes up what its first member does. -/
theorem compound?_behind
    {selector : Selector}
    {tokens rest : List Token}
    (found : (compound? rules readList tokens).outcome = .ok (some (selector, rest))) :
    Behind rest tokens := by
  simp only [compound?, Reading.bind_eq_andThen, Reading.outcome_andThen_eq_ok] at found
  obtain ⟨⟨members, behind⟩, read, same⟩ := found
  simp only [Reading.pure_eq_value, Reading.value, Except.ok.injEq, Option.map_eq_some_iff,
    Prod.mk.injEq] at same
  obtain ⟨_, whole, _, same⟩ := same
  subst same
  cases members with
  | nil => simp [compoundOf?] at whole
  | cons member others => exact many_behind advances_simple? read

/-- A combinator that is written out takes up its character. -/
theorem explicitCombinator?_behind
    {combinator : Combinator}
    {tokens rest : List Token}
    (found : explicitCombinator? tokens = some (combinator, rest)) :
    Behind rest tokens := by
  unfold explicitCombinator? at found
  split at found
  · obtain ⟨_, _, same⟩ := Option.map_eq_some_iff.mp found
    cases same
    exact Behind.ofSuffix (skipBlanks_suffix _) (Behind.tail _ _)
  · simp at found

/-- A combinator leaves a suffix. -/
theorem combinator?_suffix
    {combinator : Combinator}
    {tokens rest : List Token}
    (found : combinator? tokens = some (combinator, rest)) :
    rest <:+ tokens := by
  simp only [combinator?] at found
  split at found
  · rename_i pair read
    cases found
    exact (explicitCombinator?_behind read).suffix.trans (skipBlanks_suffix tokens)
  · split at found
    · cases found
      exact skipBlanks_suffix tokens
    · simp at found

/-- A combinator and the compound behind it take up at least one token. -/
theorem advances_link? :
    Advances (link? rules readList) := by
  intro tokens item rest found
  unfold link? at found
  split at found
  · simp [Reading.value] at found
  · rename_i read
    simp only [Reading.bind_eq_andThen, Reading.outcome_andThen_eq_ok] at found
    obtain ⟨middle, compound, found⟩ := found
    split at found
    · simp only [Reading.pure_eq_value, Reading.value, Except.ok.injEq, Option.some.injEq,
        Prod.mk.injEq] at found
      exact found.2 ▸ (compound?_behind compound).thenSuffix (combinator?_suffix read)
    · split at found
      · simp [Reading.value] at found
      · simp [Reading.failure] at found

/-- The start of a chain takes up tokens. -/
theorem chainStart?_behind
    {selector : Selector}
    {tokens rest : List Token}
    (found : (chainStart? rules readList tokens).outcome = .ok (some (selector, rest))) :
    Behind rest tokens := by
  unfold chainStart? at found
  split at found
  · exact compound?_behind found
  · rename_i read
    simp only [Reading.bind_eq_andThen, Reading.outcome_andThen_eq_ok] at found
    obtain ⟨middle, compound, found⟩ := found
    split at found
    · simp only [Reading.pure_eq_value, Reading.value, Except.ok.injEq, Option.some.injEq,
        Prod.mk.injEq] at found
      exact found.2 ▸ (compound?_behind compound).trans (explicitCombinator?_behind read)
    · simp [Reading.failure] at found

/-- A complex selector takes up what its start does. -/
theorem complex?_behind
    {selector : Selector}
    {tokens rest : List Token}
    (found : (complex? rules readList tokens).outcome = .ok (some (selector, rest))) :
    Behind rest tokens := by
  simp only [complex?, Reading.bind_eq_andThen, Reading.outcome_andThen_eq_ok] at found
  obtain ⟨middle, start, found⟩ := found
  split at found
  · simp [Reading.value] at found
  · simp only [Reading.outcome_andThen_eq_ok] at found
    obtain ⟨⟨links, behind⟩, linked, same⟩ := found
    simp only [Reading.pure_eq_value, Reading.value, Except.ok.injEq, Option.some.injEq,
      Prod.mk.injEq] at same
    exact same.2 ▸ Behind.ofSuffix (many_suffix advances_link? linked) (chainStart?_behind start)

/-- A member of a list takes up tokens. -/
theorem member_behind
    {selector : Selector}
    {tokens rest : List Token}
    (found : (member rules readList tokens).outcome = .ok (selector, rest)) :
    Behind rest tokens := by
  simp only [member, Reading.bind_eq_andThen, Reading.outcome_andThen_eq_ok] at found
  obtain ⟨middle, read, found⟩ := found
  split at found
  · simp only [Reading.pure_eq_value, Reading.value, Except.ok.injEq] at found
    subst found
    exact (complex?_behind read).thenSuffix (skipBlanks_suffix tokens)
  · simp [Reading.failure] at found

/-- A comma and the member behind it take up at least one token. -/
theorem advances_furtherMember? :
    Advances (furtherMember? rules readList) := by
  intro tokens item rest found
  unfold furtherMember? at found
  split at found
  · simp [Reading.value] at found
  · rename_i start
    simp only [Reading.bind_eq_andThen, Reading.outcome_andThen_eq_ok, Reading.pure_eq_value,
      Reading.value, Except.ok.injEq, Option.some.injEq] at found
    obtain ⟨_, read, same⟩ := found
    subst same
    have fromComma := (member_behind read).trans (Behind.tail Token.comma _)
    exact fromComma.thenSuffix (start ▸ skipBlanks_suffix tokens)
  · simp [Reading.failure] at found

/-- Two readers of selector lists that agree on the arguments in some tokens. -/
def AgreeOn (tokens : List Token) (one other : List Token → Reading (List Selector)) : Prop :=
  ∀ inside, HasArgument tokens inside → one inside = other inside

section Agreement

variable {other : List Token → Reading (List Selector)} {tokens rest : List Token}

/-- Readers that agree on the arguments in some tokens agree on those in a suffix. -/
theorem AgreeOn.ofSuffix
    (agree : AgreeOn tokens readList other)
    (suffix : rest <:+ tokens) :
    AgreeOn rest readList other :=
  fun inside has => agree inside (has.ofSuffix suffix)

/-- An argument is read alike by readers that agree on its tokens. -/
theorem argument_congr
    {inside : List Token}
    (agree : readList inside = other inside)
    (form : PseudoForm)
    (name : String) :
    argument rules readList form name inside = argument rules other form name inside := by
  unfold argument
  rw [agree]

/-- A pseudo selector asks the reader for nothing but the argument behind its name. -/
theorem pseudo?_congr
    (agree : AgreeOn tokens readList other) :
    pseudo? rules readList tokens = pseudo? rules other tokens := by
  unfold pseudo?
  split
  · rfl
  · rename_i name _ named
    split
    · rfl
    · rename_i inside behind cut
      rw [argument_congr (agree inside ⟨name, _, behind, pseudoName?_suffix named, cut⟩)]
  · rfl

/-- A simple selector is read alike by readers that agree on the arguments there. -/
theorem simple?_congr
    (agree : AgreeOn tokens readList other) :
    simple? rules readList tokens = simple? rules other tokens := by
  unfold simple?
  split
  · rfl
  · rfl
  · split
    · rfl
    · rfl
    · rfl
    · exact pseudo?_congr (agree.ofSuffix (List.suffix_cons _ _))
    · rfl

/-- A compound is read alike by readers that agree on the arguments there. -/
theorem compound?_congr
    (agree : AgreeOn tokens readList other) :
    compound? rules readList tokens = compound? rules other tokens := by
  unfold compound?
  rw [many_congr advances_simple? advances_simple?
    fun _ suffix => simple?_congr (agree.ofSuffix suffix)]

theorem link?_congr
    (agree : AgreeOn tokens readList other) :
    link? rules readList tokens = link? rules other tokens := by
  unfold link?
  split
  · rfl
  · rename_i read
    rw [compound?_congr (agree.ofSuffix (combinator?_suffix read))]

theorem chainStart?_congr
    (agree : AgreeOn tokens readList other) :
    chainStart? rules readList tokens = chainStart? rules other tokens := by
  unfold chainStart?
  split
  · exact compound?_congr agree
  · rename_i read
    rw [compound?_congr (agree.ofSuffix (explicitCombinator?_behind read).suffix)]

theorem complex?_congr
    (agree : AgreeOn tokens readList other) :
    complex? rules readList tokens = complex? rules other tokens := by
  simp only [complex?, Reading.bind_eq_andThen]
  rw [chainStart?_congr agree]
  refine andThen_congr fun found read => ?_
  cases found with
  | none => rfl
  | some found =>
      obtain ⟨first, behind⟩ := found
      have suffix := (chainStart?_behind read).suffix
      simp only [many_congr advances_link? advances_link?
        fun _ later => link?_congr (agree.ofSuffix (later.trans suffix))]

/-- A member of a list is read alike by readers that agree on the arguments there. -/
theorem member_congr
    (agree : AgreeOn tokens readList other) :
    member rules readList tokens = member rules other tokens := by
  unfold member
  rw [complex?_congr (agree.ofSuffix (skipBlanks_suffix tokens))]

theorem furtherMember?_congr
    (agree : AgreeOn tokens readList other) :
    furtherMember? rules readList tokens = furtherMember? rules other tokens := by
  unfold furtherMember?
  split
  · rfl
  · rename_i rest start
    have suffix := skipBlanks_suffix tokens
    rw [start] at suffix
    rw [member_congr (agree.ofSuffix ((List.suffix_cons _ _).trans suffix))]
  · rfl

/-- Reading a list of tokens asks for nothing but the arguments in it. -/
theorem selectorList_congr
    (agree : AgreeOn tokens readList other) :
    selectorList rules readList tokens = selectorList rules other tokens := by
  unfold selectorList
  split
  · rfl
  · rw [member_congr agree]
    simp only [Reading.bind_eq_andThen]
    refine andThen_congr fun found read => ?_
    obtain ⟨first, behind⟩ := found
    have suffix := (member_behind read).suffix
    simp only [many_congr advances_furtherMember? advances_furtherMember?
      fun _ later => furtherMember?_congr (agree.ofSuffix (later.trans suffix))]

end Agreement

end Lists

end TreeSelectors.Parser

namespace TreeSelectors

/-- The lists inside parentheses are read as the whole list is. -/
theorem parseTokens_eq
    (rules : ArgumentRules)
    (tokens : List Token) :
    parseTokens rules tokens = Parser.selectorList rules (parseTokens rules) tokens := by
  rw [parseTokens]
  refine Parser.selectorList_congr fun inside isArgument => ?_
  simp only [if_pos isArgument.shorter]

end TreeSelectors
