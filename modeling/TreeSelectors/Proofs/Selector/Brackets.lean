import TreeSelectors.Proofs.Selector.Wrapping

namespace TreeSelectors.Grammar

/-!
# Where the brackets of a list are

`OpensBracket` goes through tokens from left to right, and into the parentheses
of the pseudo selectors that take a list, and stops at a bracket. A phrase
starts an attribute selector at each of its brackets: `FinishesBrackets.ofDerives`.
-/

open TreeSelectors.Parser
open TreeSelectors.Selector

/--
A bracket is opened in tokens. Given are the tokens behind it in its own list,
and those outside that list.
-/
inductive OpensBracket (rules : ArgumentRules) :
    List Token → List Token → List Token → Prop where
  | here (behind : List Token) :
      OpensBracket rules (.leftBracket :: behind) behind []
  | past {token : Token} {tokens behind outside : List Token} :
      isPlain token = true →
      token ≠ .colon →
      OpensBracket rules tokens behind outside →
      OpensBracket rules (token :: tokens) behind outside
  | pastPseudo (form : PseudoForm) (name : String) {tokens behind outside : List Token} :
      OpensBracket rules tokens behind outside →
      OpensBracket rules (form.colons.map (fun _ => .colon) ++ .ident name :: tokens) behind outside
  | pastFunction (form : PseudoForm) (name : String)
      {inside tokens behind outside : List Token} :
      Parenthesized inside →
      OpensBracket rules tokens behind outside →
      OpensBracket rules
        (form.colons.map (fun _ => .colon) ++ .function name :: (inside ++ .rightParen :: tokens))
        behind outside
  | inFunction {form : PseudoForm} {name : String}
      {inside behind outside : List Token} (tokens : List Token) :
      Parenthesized inside →
      rules.get? (argumentKey form name) = some .selectorList →
      OpensBracket rules inside behind outside →
      OpensBracket rules
        (form.colons.map (fun _ => .colon) ++ .function name :: (inside ++ .rightParen :: tokens))
        behind (outside ++ .rightParen :: tokens)

/-- An attribute selector and the bracket that closes it are what tokens start with. -/
def Closed (behind : List Token) : Prop :=
  ∃ inside rest, Attribute inside ∧ behind = inside ++ .rightBracket :: rest

section Places

variable {rules : ArgumentRules} {token : Token} {tokens rest behind outside : List Token}

/-- The tokens behind a bracket are those of its list and those outside it. -/
theorem OpensBracket.suffix
    (opens : OpensBracket rules tokens behind outside) :
    .leftBracket :: (behind ++ outside) <:+ tokens := by
  induction opens with
  | here behind => rw [List.append_nil]
  | past _ _ _ inductionHypothesis => exact inductionHypothesis.trans (List.suffix_cons _ _)
  | pastPseudo form name _ inductionHypothesis =>
      exact inductionHypothesis.trans ((List.suffix_cons _ _).trans (List.suffix_append _ _))
  | pastFunction form name _ _ inductionHypothesis =>
      exact inductionHypothesis.trans ((List.suffix_cons _ _).trans ((List.suffix_append _ _).trans
        ((List.suffix_cons _ _).trans (List.suffix_append _ _))))
  | @inFunction form name inside behind outside tokens _ _ _ inductionHypothesis =>
      obtain ⟨front, same⟩ := inductionHypothesis
      refine ⟨form.colons.map (fun _ => .colon) ++ .function name :: front, ?_⟩
      rw [← same]
      simp

/-- Outside the list of a bracket there is nothing, or first the parenthesis that ends the list. -/
theorem OpensBracket.outside_cases
    (opens : OpensBracket rules tokens behind outside) :
    outside = [] ∨ ∃ more, outside = .rightParen :: more := by
  induction opens with
  | here behind => exact Or.inl rfl
  | past _ _ _ inductionHypothesis => exact inductionHypothesis
  | pastPseudo form name _ inductionHypothesis => exact inductionHypothesis
  | pastFunction form name _ _ inductionHypothesis => exact inductionHypothesis
  | inFunction tokens _ _ _ inductionHypothesis =>
      rcases inductionHypothesis with nothing | ⟨more, ends⟩
      · exact Or.inr ⟨tokens, by rw [nothing, List.nil_append]⟩
      · exact Or.inr ⟨more ++ .rightParen :: tokens, by rw [ends, List.cons_append]⟩

/-- No bracket is opened where there are no tokens. -/
theorem not_opensBracket_nil :
    ¬ OpensBracket rules [] behind outside := by
  intro opens
  exact absurd (List.suffix_nil.mp opens.suffix) (by simp)

/-- Colons and the token behind them are given by the tokens they are the first of. -/
theorem colons_inj
    {form other : PseudoForm}
    {first second : Token}
    {more : List Token}
    (notFirst : first ≠ .colon)
    (notSecond : second ≠ .colon)
    (same : form.colons.map (fun _ => .colon) ++ first :: rest =
      other.colons.map (fun _ => .colon) ++ second :: more) :
    form = other ∧ first = second ∧ rest = more := by
  cases form <;> cases other <;> cases same
  · exact ⟨rfl, rfl, rfl⟩
  · exact absurd rfl notFirst
  · exact absurd rfl notSecond
  · exact ⟨rfl, rfl, rfl⟩

/-- Only a colon starts a pseudo selector. -/
theorem cons_ne_colons
    (notColon : token ≠ .colon)
    (form : PseudoForm)
    (more : List Token) :
    token :: tokens ≠ form.colons.map (fun _ => .colon) ++ more := by
  intro same
  cases form <;> exact notColon (List.cons.inj same).1

/-- In front of the bracket may stand any token that is neither one nor starts a pseudo selector. -/
theorem opensBracket_inert_iff
    (inert : isInert token = true) :
    OpensBracket rules (token :: tokens) behind outside ↔
      OpensBracket rules tokens behind outside := by
  have notColon : token ≠ .colon := by
    intro same
    rw [same] at inert
    cases inert
  refine ⟨fun opens => ?_, .past (isPlain_of_isInert inert) notColon⟩
  generalize shape : token :: tokens = whole at opens
  cases opens with
  | here behind =>
      cases shape
      cases inert
  | past _ _ opens =>
      cases shape
      exact opens
  | pastPseudo form => exact absurd shape (cons_ne_colons notColon form _)
  | pastFunction form => exact absurd shape (cons_ne_colons notColon form _)
  | @inFunction form => exact absurd shape (cons_ne_colons notColon form _)

/-- Inert tokens in front of a bracket change nothing of it. -/
theorem opensBracket_append_iff
    {front : List Token}
    (inert : ∀ token ∈ front, isInert token = true) :
    OpensBracket rules (front ++ tokens) behind outside ↔
      OpensBracket rules tokens behind outside := by
  induction front with
  | nil => rfl
  | cons token front inductionHypothesis =>
      obtain ⟨head, tail⟩ := List.forall_mem_cons.mp inert
      exact (opensBracket_inert_iff head).trans (inductionHypothesis tail)

/-- At a bracket, it is this one that is opened or one behind it. -/
theorem opensBracket_leftBracket_cases
    (opens : OpensBracket rules (.leftBracket :: tokens) behind outside) :
    behind = tokens ∨ OpensBracket rules tokens behind outside := by
  have notColon : Token.leftBracket ≠ .colon := by
    simp
  generalize shape : Token.leftBracket :: tokens = whole at opens
  cases opens with
  | here behind =>
      cases shape
      exact Or.inl rfl
  | past _ _ opens =>
      cases shape
      exact Or.inr opens
  | pastPseudo form => exact absurd shape (cons_ne_colons notColon form _)
  | pastFunction form => exact absurd shape (cons_ne_colons notColon form _)
  | @inFunction form => exact absurd shape (cons_ne_colons notColon form _)

/-- Behind colons the bracket is behind the name, or in or behind the argument. -/
theorem opensBracket_colons_cases
    {form : PseudoForm}
    (notColon : token ≠ .colon)
    (opens :
      OpensBracket rules (form.colons.map (fun _ => .colon) ++ token :: tokens) behind outside) :
    (∃ name, token = .ident name ∧ OpensBracket rules tokens behind outside) ∨
      ∃ name inside rest, token = .function name ∧ Parenthesized inside ∧
        tokens = inside ++ .rightParen :: rest ∧
        (OpensBracket rules rest behind outside ∨
          rules.get? (argumentKey form name) = some .selectorList ∧
            ∃ outer, OpensBracket rules inside behind outer) := by
  have starts : ∃ more,
      form.colons.map (fun _ => .colon) ++ token :: tokens = .colon :: more := by
    cases form <;> exact ⟨_, rfl⟩
  generalize shape : form.colons.map (fun _ => .colon) ++ token :: tokens = whole at opens starts
  obtain ⟨more, colon⟩ := starts
  cases opens with
  | here behind => cases colon
  | past _ isNot _ =>
      cases colon
      exact absurd rfl isNot
  | pastPseudo other name opens =>
      obtain ⟨_, isName, same⟩ := colons_inj notColon (by simp) shape
      exact Or.inl ⟨name, isName, same ▸ opens⟩
  | pastFunction other name parenthesized opens =>
      obtain ⟨_, isName, same⟩ := colons_inj notColon (by simp) shape
      exact Or.inr ⟨name, _, _, isName, parenthesized, same, Or.inl opens⟩
  | @inFunction other name inside _ outer rest parenthesized rule opens =>
      obtain ⟨sameForm, isName, same⟩ := colons_inj notColon (by simp) shape
      subst sameForm
      exact Or.inr ⟨name, _, _, isName, parenthesized, same, Or.inr ⟨rule, outer, opens⟩⟩

end Places

/--
A phrase in front of a rest of tokens: a bracket is opened in the tokens if it is in the rest, and
one that is not starts an attribute selector of the phrase.
-/
structure FinishesBrackets (rules : ArgumentRules) (tokens rest : List Token) : Prop where
  kept :
    ∀ {behind outside}, OpensBracket rules rest behind outside →
      OpensBracket rules tokens behind outside
  finished :
    ∀ {behind outside}, OpensBracket rules tokens behind outside →
      (Closed behind ∨ Attribute behind) ∨ OpensBracket rules rest behind outside

namespace FinishesBrackets

variable {rules : ArgumentRules} {front tokens middle rest : List Token}

theorem nothing
    (tokens : List Token) :
    FinishesBrackets rules tokens tokens :=
  ⟨id, Or.inr⟩

/-- A phrase behind another one finishes the brackets of both. -/
theorem trans
    (first : FinishesBrackets rules tokens middle)
    (second : FinishesBrackets rules middle rest) :
    FinishesBrackets rules tokens rest := by
  refine ⟨fun opens => first.kept (second.kept opens), fun opens => ?_⟩
  rcases first.finished opens with finished | later
  · exact Or.inl finished
  · exact second.finished later

theorem inert
    (isInert : ∀ token ∈ front, isInert token = true) :
    FinishesBrackets rules (front ++ tokens) tokens :=
  ⟨(opensBracket_append_iff isInert).mpr,
    fun opens => Or.inr ((opensBracket_append_iff isInert).mp opens)⟩

/-- An inert token is no bracket and opens none. -/
theorem token
    {token : Token}
    (inert : isInert token = true) :
    FinishesBrackets rules (token :: tokens) tokens :=
  ⟨(opensBracket_inert_iff inert).mpr,
    fun opens => Or.inr ((opensBracket_inert_iff inert).mp opens)⟩

theorem blanks
    {blanks : List Token}
    (onlyBlanks : Blanks blanks) :
    FinishesBrackets rules (blanks ++ tokens) tokens :=
  inert (isInert_of_blanks onlyBlanks)

/-- Nothing but blanks is like nothing at all. -/
theorem onlyBlanks
    {blanks : List Token}
    (areBlanks : Blanks blanks) :
    FinishesBrackets rules blanks [] := by
  have passed : FinishesBrackets rules (blanks ++ []) [] := FinishesBrackets.blanks areBlanks
  rwa [List.append_nil] at passed

/-- A bracket is finished if an attribute selector stands behind it. -/
theorem bracket
    (isFinished : Closed tokens ∨ Attribute tokens)
    (behind : FinishesBrackets rules tokens rest) :
    FinishesBrackets rules (.leftBracket :: tokens) rest := by
  refine ⟨fun opens => .past rfl (by simp) (behind.kept opens), fun opens => ?_⟩
  rcases opensBracket_leftBracket_cases opens with here | later
  · exact Or.inl (here ▸ isFinished)
  · exact behind.finished later

/-- A pseudo selector without parentheses opens no bracket. -/
theorem pseudo
    (form : PseudoForm)
    (name : String) :
    FinishesBrackets rules (form.colons.map (fun _ => .colon) ++ .ident name :: tokens) tokens := by
  refine ⟨.pastPseudo form name, fun opens => ?_⟩
  rcases opensBracket_colons_cases (by simp) opens with
    ⟨_, _, later⟩ | ⟨_, _, _, isFunction, _⟩
  · exact Or.inr later
  · cases isFunction

/-- The brackets of an argument count only where its rule asks for a list. -/
theorem function
    (form : PseudoForm)
    (name : String)
    {inside : List Token}
    (parenthesized : Parenthesized inside)
    (argument : rules.get? (argumentKey form name) = some .selectorList →
      FinishesBrackets rules inside []) :
    FinishesBrackets rules
      (form.colons.map (fun _ => .colon) ++ .function name :: (inside ++ .rightParen :: tokens))
      tokens := by
  refine ⟨.pastFunction form name parenthesized, fun opens => ?_⟩
  rcases opensBracket_colons_cases (by simp) opens with
    ⟨_, isIdent, _⟩ | ⟨other, within, rest, isFunction, parenthesizedWithin, same, place⟩
  · cases isIdent
  · obtain ⟨sameInside, sameTokens⟩ := parenthesized_inj parenthesized parenthesizedWithin same
    subst sameInside
    subst sameTokens
    cases isFunction
    rcases place with later | ⟨rule, _, opensInside⟩
    · exact Or.inr later
    · rcases (argument rule).finished opensInside with finished | impossible
      · exact Or.inl finished
      · exact absurd impossible not_opensBracket_nil

/-- A phrase finishes its brackets, by induction on how it derives. -/
theorem ofDerives
    {symbol : Symbol}
    (derives : Derives rules symbol tokens rest) :
    FinishesBrackets rules tokens rest := by
  induction derives with
  | typeName isQualifier named =>
      exact (inert (isInert_of_optionalQualifier isQualifier)).trans
        (token (isInert_of_named named))
  | identifier name kind rest => exact token rfl
  | className name rest => exact (token rfl).trans (token rfl)
  | «attribute» rest isAttribute =>
      exact bracket (Or.inl ⟨_, rest, isAttribute, rfl⟩)
        ((inert (isInert_of_attribute isAttribute)).trans (token rfl))
  | @unclosedAttribute inside isAttribute =>
      refine bracket (Or.inr isAttribute) ?_
      have passed : FinishesBrackets rules (inside ++ []) [] :=
        inert (isInert_of_attribute isAttribute)
      rwa [List.append_nil] at passed
  | pseudo form name rest => exact pseudo form name
  | @function form name inside rest parenthesized _ argument =>
      exact function form name parenthesized argument
  | alone _ simple => exact simple
  | together _ _ simple compound => exact simple.trans compound
  | noLinks rest => exact nothing rest
  | descendant onlyBlanks _ _ _ compound links =>
      exact (blanks onlyBlanks).trans (compound.trans links)
  | combinator onlyBlanks _ onlySpaces _ _ compound links =>
      exact (blanks onlyBlanks).trans ((token rfl).trans
        ((blanks onlySpaces).trans (compound.trans links)))
  | complex _ _ compound links => exact compound.trans links
  | relative _ onlySpaces _ _ compound links =>
      exact (token rfl).trans ((blanks onlySpaces).trans (compound.trans links))
  | lastMember areBlanks => exact onlyBlanks areBlanks
  | nextMember onlyBlanks onlySpaces _ _ complex later =>
      exact (blanks onlyBlanks).trans ((token rfl).trans
        ((blanks onlySpaces).trans (complex.trans later)))
  | noMembers areBlanks => exact onlyBlanks areBlanks
  | members onlyBlanks _ _ complex later => exact (blanks onlyBlanks).trans (complex.trans later)

end FinishesBrackets

end TreeSelectors.Grammar
