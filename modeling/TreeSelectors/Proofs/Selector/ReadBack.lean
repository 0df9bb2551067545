import TreeSelectors.Proofs.Selector.SimpleReading

namespace TreeSelectors.Selector

/-!
# The tokens of a selector are read back

What fits a table of rules is read back with it from its tokens, whatever ends
the reading behind them. `ReadsSimple`, `ReadsCompound` and `ReadsChain` say
this layer by layer; going through the tree, every selector has the one of its
layer.
-/

open TreeSelectors.Parser

/-- The tokens behind a compound go on with none of its members. -/
def endsCompound : List Token → Bool
  | [] => true
  | .whitespace :: _ => true
  | .comma :: _ => true
  | _ => false

section Layers

variable (rules : ArgumentRules)

/-- A compound is read back from its tokens. -/
structure ReadsCompound (selector : Selector) : Prop where
  starts :
    ∃ first others, selector.tokens = first :: others ∧ startsSimple first = true
  balanced :
    Balanced selector.tokens
  read :
    ∀ rest, endsCompound rest = true →
      compound? rules (parseTokens rules) (selector.tokens ++ rest) = .value (some (selector, rest))

/-- The tokens of a combinator and the compound behind it. -/
def linkTokens (link : Combinator × Selector) : List Token :=
  .whitespace :: combinatorTokens link.1 ++ link.2.tokens

/-- A chain is read back from the tokens of its start and its links. -/
structure ReadsLinks (selector first : Selector) (links : List (Combinator × Selector)) :
    Prop where
  shape :
    selector = chain first links
  tokens :
    selector.tokens = first.tokens ++ links.flatMap linkTokens
  starts :
    ∃ token others, first.tokens = token :: others ∧ token.isWhitespace = false
  balanced :
    Balanced selector.tokens
  start :
    ∀ rest, endsCompound rest = true →
      chainStart? rules (parseTokens rules) (first.tokens ++ rest) = .value (some (first, rest))
  links :
    ∀ link ∈ links, ∀ rest, endsCompound rest = true →
      link? rules (parseTokens rules) (linkTokens link ++ rest) = .value (some (link, rest))

/-- A chain is read back from its tokens. -/
def ReadsChain (selector : Selector) : Prop :=
  ∃ first links, ReadsLinks rules selector first links

/-- A selector is read back from its tokens where one of its layer is asked for. -/
def ReadsLayer (layer : Layer) (selector : Selector) : Prop :=
  match layer with
  | .simple => ReadsSimple rules selector
  | .compound => ReadsCompound rules selector
  | .chain => ReadsChain rules selector

variable {rules}

section Compounds

/-- Nothing simple starts where a compound ends. -/
theorem simple?_of_endsCompound
    {rest : List Token}
    (ends : endsCompound rest = true) :
    simple? rules (parseTokens rules) rest = .value none := by
  unfold endsCompound at ends
  split at ends
  · rfl
  · rfl
  · rfl
  · exact absurd ends (by simp)

/-- No simple selector is read where a compound ends. -/
theorem many_simple?_of_endsCompound
    {rest : List Token}
    (ends : endsCompound rest = true) :
    many (simple? rules (parseTokens rules)) rest = .value ([], rest) := by
  rw [many_eq advances_simple?, simple?_of_endsCompound ends, Reading.value_andThen]
  rfl

/-- No bar follows a compound. -/
theorem head?_ne_bar_of_endsCompound
    {rest : List Token}
    (ends : endsCompound rest = true) :
    rest.head? ≠ some (.delim '|') := by
  intro bar
  obtain ⟨others, shape⟩ := List.head?_eq_some_iff.mp bar
  rw [shape] at ends
  exact absurd ends (by simp [endsCompound])

/-- Simple selectors that keep their bars are read back one behind the other. -/
theorem many_simple?_compoundTokens
    {members : List Selector}
    (reads : ∀ member ∈ members, ReadsSimple rules member)
    (keepsBars : KeepsBars members)
    {rest : List Token}
    (ends : endsCompound rest = true) :
    many (simple? rules (parseTokens rules)) (compoundTokens members ++ rest) =
      .value (members, rest) := by
  induction members with
  | nil => exact many_simple?_of_endsCompound ends
  | cons member members inductionHypothesis =>
      obtain ⟨head, tail⟩ := List.forall_mem_cons.mp reads
      have noBar : takesBar member = true →
          (compoundTokens members ++ rest).head? ≠ some (.delim '|') := by
        intro takes bar
        cases members with
        | nil => exact head?_ne_bar_of_endsCompound ends bar
        | cons next members =>
            obtain ⟨first, others, shape, _, starts⟩ := (tail next List.mem_cons_self).starts
            rw [compoundTokens, shape] at bar
            exact keepsBars.1 ⟨takes, starts (by simpa using bar)⟩
      have keepsLater : KeepsBars members := by
        cases members with
        | nil => trivial
        | cons next members => exact keepsBars.2
      have later := inductionHypothesis tail keepsLater
      rw [compoundTokens, List.append_assoc, many_eq advances_simple?, head.read _ noBar,
        Reading.value_andThen]
      simp only [manyNext, later, Reading.bind_eq_andThen, Reading.value_andThen,
        Reading.pure_eq_value]

/-- A simple selector is read back as the compound that it alone makes up. -/
theorem readsCompound_of_simple
    {selector : Selector}
    (reads : ReadsSimple rules selector) :
    ReadsCompound rules selector := by
  obtain ⟨first, others, shape, starts, _⟩ := reads.starts
  refine ⟨⟨first, others, shape, starts⟩, reads.balanced, fun rest ends => ?_⟩
  have alone : ∀ member ∈ [selector], ReadsSimple rules member :=
    List.forall_mem_singleton.mpr reads
  have read := many_simple?_compoundTokens alone trivial ends
  rw [compoundTokens, compoundTokens, List.append_nil] at read
  simp only [compound?, read, Reading.bind_eq_andThen, Reading.value_andThen,
    Reading.pure_eq_value, compoundOf?, Option.map_some]

/-- A compound is read back if its members are and no bar comes between them. -/
theorem readsCompound_compound
    {members : List Selector}
    (several : 2 ≤ members.length)
    (reads : ∀ member ∈ members, ReadsSimple rules member)
    (keepsBars : KeepsBars members) :
    ReadsCompound rules (.compound members) := by
  have whole : compoundOf? members = some (.compound members) := by
    match members, several with
    | _ :: _ :: _, _ => rfl
  constructor
  · match members, several with
    | member :: _ :: _, _ =>
        obtain ⟨first, others, shape, starts, _⟩ := (reads member List.mem_cons_self).starts
        rw [tokens, compoundTokens, shape]
        exact ⟨first, _, rfl, starts⟩
  · rw [tokens]
    clear several keepsBars whole
    induction members with
    | nil => exact Balanced.nil
    | cons member members inductionHypothesis =>
        obtain ⟨head, tail⟩ := List.forall_mem_cons.mp reads
        exact head.balanced.append (inductionHypothesis tail)
  · intro rest ends
    have read := many_simple?_compoundTokens reads keepsBars ends
    simp only [tokens, compound?, read, whole, Reading.bind_eq_andThen, Reading.value_andThen,
      Reading.pure_eq_value, Option.map_some]

end Compounds

section Chains

/-- No combinator is written with a token that a simple selector starts with. -/
theorem explicitCombinator?_of_startsSimple
    {token : Token}
    (starts : startsSimple token = true)
    (rest : List Token) :
    explicitCombinator? (token :: rest) = none := by
  unfold explicitCombinator?
  split
  · next shape =>
      rw [(List.cons.inj shape).1] at starts
      simp only [startsSimple, Bool.or_eq_true, beq_iff_eq] at starts
      rcases starts with (star | bar) | point
      · rw [star]
        rfl
      · rw [bar]
        rfl
      · rw [point]
        rfl
  · rfl

/-- No simple selector starts with a blank. -/
theorem isWhitespace_of_startsSimple
    {token : Token}
    (starts : startsSimple token = true) :
    token.isWhitespace = false := by
  cases token <;> first | rfl | exact absurd starts (by simp [startsSimple])

theorem skipBlanks_cons
    {token : Token}
    (notBlank : token.isWhitespace = false)
    (rest : List Token) :
    skipBlanks (token :: rest) = token :: rest := by
  rw [skipBlanks, List.dropWhile_cons_of_neg (by simp [notBlank])]

theorem skipBlanks_whitespace
    (rest : List Token) :
    skipBlanks (.whitespace :: rest) = skipBlanks rest :=
  rfl

variable {selector left right : Selector} {combinator : Combinator}

/-- There are no blanks to skip in front of a compound. -/
theorem ReadsCompound.skipBlanks_tokens
    (reads : ReadsCompound rules selector)
    (rest : List Token) :
    skipBlanks (selector.tokens ++ rest) = selector.tokens ++ rest := by
  obtain ⟨first, others, shape, starts⟩ := reads.starts
  rw [shape, List.cons_append, skipBlanks_cons (isWhitespace_of_startsSimple starts)]

/-- No compound starts with a combinator. -/
theorem ReadsCompound.explicitCombinator?_tokens
    (reads : ReadsCompound rules selector)
    (rest : List Token) :
    explicitCombinator? (selector.tokens ++ rest) = none := by
  obtain ⟨first, others, shape, starts⟩ := reads.starts
  rw [shape, List.cons_append, explicitCombinator?_of_startsSimple starts]

/-- A combinator is read back with the blanks behind it. -/
theorem explicitCombinator?_combinatorTokens
    (explicit : combinator ≠ .descendant)
    (reads : ReadsCompound rules right)
    (rest : List Token) :
    explicitCombinator? (combinatorTokens combinator ++ (right.tokens ++ rest)) =
      some (combinator, right.tokens ++ rest) := by
  have skipped := reads.skipBlanks_tokens rest
  cases combinator with
  | descendant => exact absurd rfl explicit
  | _ =>
      simp only [combinatorTokens, List.cons_append, List.nil_append, explicitCombinator?,
        skipBlanks_whitespace, skipped]
      rfl

theorem balanced_combinatorTokens
    (combinator : Combinator) :
    Balanced (combinatorTokens combinator) := by
  cases combinator <;> exact Balanced.plain (by decide)

/-- A compound is read back as a chain without links. -/
theorem readsChain_of_compound
    (reads : ReadsCompound rules selector) :
    ReadsChain rules selector := by
  obtain ⟨first, others, shape, starts⟩ := reads.starts
  refine ⟨selector, [], rfl, by simp,
    ⟨first, others, shape, isWhitespace_of_startsSimple starts⟩,
    reads.balanced, fun rest ends => ?_, List.forall_mem_nil _⟩
  rw [chainStart?, reads.explicitCombinator?_tokens]
  exact reads.read rest ends

/-- A relative selector is read back as a chain that starts with its combinator. -/
theorem readsChain_relative
    (explicit : combinator ≠ .descendant)
    (reads : ReadsCompound rules right) :
    ReadsChain rules (.relative combinator right) := by
  refine ⟨.relative combinator right, [], rfl, by simp, ?_, ?_, fun rest ends => ?_,
    List.forall_mem_nil _⟩
  · cases combinator with
    | descendant => exact absurd rfl explicit
    | _ => exact ⟨_, _, rfl, rfl⟩
  · rw [tokens]
    exact (balanced_combinatorTokens combinator).append reads.balanced
  · rw [tokens, List.append_assoc, chainStart?,
      explicitCombinator?_combinatorTokens explicit reads]
    simp only [reads.read rest ends, Reading.bind_eq_andThen, Reading.value_andThen,
      Reading.pure_eq_value]

/-- A combinator between its blanks is read back with the compound behind it. -/
theorem link?_linkTokens
    (reads : ReadsCompound rules right)
    {rest : List Token}
    (ends : endsCompound rest = true) :
    link? rules (parseTokens rules) (linkTokens (combinator, right) ++ rest) =
      .value (some ((combinator, right), rest)) := by
  have combined : combinator? (linkTokens (combinator, right) ++ rest) =
      some (combinator, right.tokens ++ rest) := by
    have skipped : skipBlanks (linkTokens (combinator, right) ++ rest) =
        skipBlanks (combinatorTokens combinator ++ (right.tokens ++ rest)) := by
      rw [linkTokens, List.append_assoc, List.cons_append, skipBlanks_whitespace]
    by_cases explicit : combinator = .descendant
    · subst explicit
      have bare : skipBlanks (combinatorTokens .descendant ++ (right.tokens ++ rest)) =
          right.tokens ++ rest :=
        reads.skipBlanks_tokens rest
      simp only [combinator?, skipped, bare, reads.explicitCombinator?_tokens rest]
      rfl
    · have bare : skipBlanks (combinatorTokens combinator ++ (right.tokens ++ rest)) =
          combinatorTokens combinator ++ (right.tokens ++ rest) := by
        cases combinator with
        | descendant => exact absurd rfl explicit
        | _ => rfl
      simp only [combinator?, skipped, bare, explicitCombinator?_combinatorTokens explicit reads]
  simp only [link?, combined, reads.read rest ends, Reading.bind_eq_andThen,
    Reading.value_andThen, Reading.pure_eq_value]

/-- A chain with one more link is read back. -/
theorem readsChain_complex
    (readsLeft : ReadsChain rules left)
    (readsRight : ReadsCompound rules right) :
    ReadsChain rules (.complex left combinator right) := by
  obtain ⟨first, links, reads⟩ := readsLeft
  refine ⟨first, links ++ [(combinator, right)], ?_, ?_, reads.starts, ?_, reads.start, ?_⟩
  · have whole : chain first (links ++ [(combinator, right)]) =
        .complex (chain first links) combinator right := by
      simp [chain]
    rw [whole, ← reads.shape]
  · simp [tokens, reads.tokens, linkTokens]
  · rw [tokens]
    exact (reads.balanced.append (Balanced.cons rfl (balanced_combinatorTokens combinator))).append
      readsRight.balanced
  · intro link member rest ends
    rcases List.mem_append.mp member with earlier | last
    · exact reads.links link earlier rest ends
    · rw [List.mem_singleton.mp last]
      exact link?_linkTokens readsRight ends

end Chains

section Lists

/-- The tokens behind a chain go on with none of its links. -/
def endsChain : List Token → Bool
  | [] => true
  | .comma :: _ => true
  | _ => false

/-- What ends a chain ends its last compound. -/
theorem endsCompound_of_endsChain
    {rest : List Token}
    (ends : endsChain rest = true) :
    endsCompound rest = true := by
  unfold endsChain at ends
  split at ends
  · rfl
  · rfl
  · exact absurd ends (by simp)

/-- No link starts where a chain ends. -/
theorem link?_of_endsChain
    {rest : List Token}
    (ends : endsChain rest = true) :
    link? rules (parseTokens rules) rest = .value none := by
  unfold endsChain at ends
  split at ends
  · rfl
  · rfl
  · exact absurd ends (by simp)

/-- A further link ends the compound in front of it. -/
theorem endsCompound_links
    (links : List (Combinator × Selector))
    {rest : List Token}
    (ends : endsChain rest = true) :
    endsCompound (links.flatMap linkTokens ++ rest) = true := by
  cases links with
  | nil => exact endsCompound_of_endsChain ends
  | cons link links => rfl

/-- The links of a chain are read back one after another. -/
theorem many_link?
    {links : List (Combinator × Selector)}
    (reads : ∀ link ∈ links, ∀ rest, endsCompound rest = true →
      link? rules (parseTokens rules) (linkTokens link ++ rest) = .value (some (link, rest)))
    {rest : List Token}
    (ends : endsChain rest = true) :
    many (link? rules (parseTokens rules)) (links.flatMap linkTokens ++ rest) =
      .value (links, rest) := by
  induction links with
  | nil =>
      rw [List.flatMap_nil, List.nil_append, many_eq advances_link?, link?_of_endsChain ends,
        Reading.value_andThen]
      rfl
  | cons link links inductionHypothesis =>
      obtain ⟨head, tail⟩ := List.forall_mem_cons.mp reads
      have later := inductionHypothesis tail
      rw [List.flatMap_cons, List.append_assoc, many_eq advances_link?,
        head _ (endsCompound_links links ends), Reading.value_andThen]
      simp only [manyNext, later, Reading.bind_eq_andThen, Reading.value_andThen,
        Reading.pure_eq_value]

/-- A chain is read back where a complex selector is asked for. -/
theorem complex?_tokens
    {selector : Selector}
    (reads : ReadsChain rules selector)
    {rest : List Token}
    (ends : endsChain rest = true) :
    complex? rules (parseTokens rules) (selector.tokens ++ rest) =
      .value (some (selector, rest)) := by
  obtain ⟨first, links, reads⟩ := reads
  have start := reads.start _ (endsCompound_links links ends)
  have linked := many_link? reads.links ends
  rw [reads.tokens, List.append_assoc, complex?]
  simp only [start, linked, Reading.bind_eq_andThen, Reading.value_andThen,
    Reading.pure_eq_value, ← reads.shape]

/-- A chain is read back as the member of a list, whatever blanks stand in front of it. -/
theorem member_tokens
    {selector : Selector}
    (reads : ReadsChain rules selector)
    {tokens rest : List Token}
    (blanks : skipBlanks tokens = skipBlanks (selector.tokens ++ rest))
    (ends : endsChain rest = true) :
    member rules (parseTokens rules) tokens = .value (selector, rest) := by
  have bare : skipBlanks (selector.tokens ++ rest) = selector.tokens ++ rest := by
    obtain ⟨first, links, reads⟩ := reads
    obtain ⟨token, others, shape, notBlank⟩ := reads.starts
    rw [reads.tokens, shape]
    exact skipBlanks_cons notBlank _
  simp only [member, blanks, bare, complex?_tokens reads ends, Reading.bind_eq_andThen,
    Reading.value_andThen, Reading.pure_eq_value]

/-- The next member of a list ends the chain in front of it, and so does the end. -/
theorem endsChain_furtherTokens
    (members : List Selector) :
    endsChain (furtherTokens members) = true := by
  cases members with
  | nil => rfl
  | cons member members => rfl

/-- The members behind the first are read back one after another. -/
theorem many_furtherMember?
    {members : List Selector}
    (reads : ∀ member ∈ members, ReadsChain rules member) :
    many (furtherMember? rules (parseTokens rules)) (furtherTokens members) =
      .value (members, []) := by
  induction members with
  | nil =>
      rw [many_eq advances_furtherMember?]
      rfl
  | cons selector members inductionHypothesis =>
      obtain ⟨head, tail⟩ := List.forall_mem_cons.mp reads
      have later := inductionHypothesis tail
      have read : furtherMember? rules (parseTokens rules) (furtherTokens (selector :: members)) =
          .value (some (selector, furtherTokens members)) := by
        have blank : skipBlanks (.whitespace :: (selector.tokens ++ furtherTokens members)) =
            skipBlanks (selector.tokens ++ furtherTokens members) := rfl
        have first := member_tokens head blank (endsChain_furtherTokens members)
        have shape : skipBlanks (furtherTokens (selector :: members)) =
            .comma :: .whitespace :: (selector.tokens ++ furtherTokens members) := by
          rfl
        simp only [furtherMember?, shape, first, Reading.bind_eq_andThen, Reading.value_andThen,
          Reading.pure_eq_value]
      rw [many_eq advances_furtherMember?, read, Reading.value_andThen]
      simp only [manyNext, later, Reading.bind_eq_andThen, Reading.value_andThen,
        Reading.pure_eq_value]

/-- A list is read back from its tokens if its members are. -/
theorem parseTokens_of_readsChain
    {members : List Selector}
    (reads : ∀ member ∈ members, ReadsChain rules member) :
    parseTokens rules (listTokens members) = .value members := by
  rw [parseTokens_eq, selectorList]
  cases members with
  | nil => rfl
  | cons selector members =>
      obtain ⟨head, tail⟩ := List.forall_mem_cons.mp reads
      have bare : skipBlanks (listTokens (selector :: members)) =
          skipBlanks (selector.tokens ++ furtherTokens members) := rfl
      have first := member_tokens head bare (endsChain_furtherTokens members)
      have further := many_furtherMember? tail
      have someToken : (skipBlanks (listTokens (selector :: members))).isEmpty = false := by
        obtain ⟨start, links, reads⟩ := head
        obtain ⟨token, others, shape, notBlank⟩ := reads.starts
        rw [listTokens, reads.tokens, shape]
        simp only [List.cons_append]
        rw [skipBlanks_cons notBlank]
        rfl
      simp only [someToken, first, further, Reading.bind_eq_andThen, Reading.value_andThen,
        Reading.pure_eq_value, Bool.false_eq_true, if_false]

/-- The tokens of a list close the parentheses that they open. -/
theorem balanced_listTokens
    {members : List Selector}
    (reads : ∀ member ∈ members, ReadsChain rules member) :
    Balanced (listTokens members) := by
  have further : ∀ {members : List Selector},
      (∀ member ∈ members, ReadsChain rules member) → Balanced (furtherTokens members) := by
    intro members reads
    induction members with
    | nil => exact Balanced.nil
    | cons selector members inductionHypothesis =>
        obtain ⟨⟨first, links, head⟩, tail⟩ := List.forall_mem_cons.mp reads
        exact Balanced.cons rfl (Balanced.cons rfl
          (head.balanced.append (inductionHypothesis tail)))
  cases members with
  | nil => exact Balanced.nil
  | cons selector members =>
      obtain ⟨⟨first, links, head⟩, tail⟩ := List.forall_mem_cons.mp reads
      exact head.balanced.append (further tail)

end Lists

/-- What is read as a simple selector is read as a compound and as a chain too. -/
theorem readsLayer_of_simple
    {selector : Selector}
    (reads : ReadsSimple rules selector)
    (layer : Layer) :
    ReadsLayer rules layer selector := by
  cases layer with
  | simple => exact reads
  | compound => exact readsCompound_of_simple reads
  | chain => exact readsChain_of_compound (readsCompound_of_simple reads)

mutual

/-- A selector that fits is read back from its tokens. -/
theorem readsLayer_of_fits :
    (selector : Selector) → (layer : Layer) → Fits rules layer selector →
      ReadsLayer rules layer selector
  | .list _, _, fits => (not_fits_list fits).elim
  | .complex left combinator right, layer, fits => by
      obtain ⟨isChain, fitsLeft, fitsRight⟩ := fits_complex_iff.mp fits
      subst isChain
      exact readsChain_complex (readsLayer_of_fits left .chain fitsLeft)
        (readsLayer_of_fits right .compound fitsRight)
  | .relative combinator right, layer, fits => by
      obtain ⟨isChain, explicit, fitsRight⟩ := fits_relative_iff.mp fits
      subst isChain
      exact readsChain_relative explicit (readsLayer_of_fits right .compound fitsRight)
  | .compound members, layer, fits => by
      obtain ⟨notSimple, several, each, keepsBars⟩ := fits_compound_iff.mp fits
      have reads := readsCompound_compound several (readsSimple_of_fitsEach members each) keepsBars
      cases layer with
      | simple => exact absurd rfl notSimple
      | compound => exact reads
      | chain => exact readsChain_of_compound reads
  | .typeName name qualifier, layer, _ =>
      readsLayer_of_simple (readsSimple_typeName name qualifier) layer
  | .identifier name, layer, _ =>
      readsLayer_of_simple (readsSimple_identifier name) layer
  | .className name, layer, _ =>
      readsLayer_of_simple (readsSimple_className name) layer
  | .attribute test, layer, fits =>
      readsLayer_of_simple (readsSimple_attribute (fits_attribute_iff.mp fits)) layer
  | .pseudo form name argument, layer, fits =>
      readsLayer_of_simple
        (readsSimple_pseudo (readsInside_of_fits argument rfl (fits_pseudo_iff.mp fits))) layer

/-- An argument that fits its rule is read back from what stands in its parentheses. -/
theorem readsInside_of_fits
    {form : PseudoForm}
    {name : String} :
    (argument : Argument) → {rule : Option ArgumentRule} →
      rules.get? (ruleKey form name) = rule → FitsArgument rules rule argument →
      argument = .absent ∨ ∃ inside, ReadsInside rules form name argument inside
  | .absent, _, _, _ => Or.inl rfl
  | .raw inside, rule, found, fits => by
      have kept : Balanced inside ∧ argument rules (parseTokens rules) form name inside =
          .value (.raw inside) := by
        rcases rule with none | (_ | _ | _ | _)
        · exact ⟨fits, by rw [argument, found]⟩
        · exact ⟨fits, by rw [argument, found]⟩
        · exact fits.elim
        · exact fits.elim
        · exact fits.elim
      exact Or.inr ⟨inside, rfl, kept.1, kept.2⟩
  | .selectors members, rule, found, fits => by
      obtain ⟨isList, fitsList⟩ := fitsArgument_selectors fits
      subst isList
      have reads := readsChain_of_fitsList members fitsList
      refine Or.inr ⟨listTokens members, rfl, balanced_listTokens reads, ?_⟩
      simp only [argument, found, parseTokens_of_readsChain reads, Reading.bind_eq_andThen,
        Reading.value_andThen, Reading.pure_eq_value]
  | .anPlusB inside, rule, found, fits => by
      rcases rule with none | (_ | _ | _ | _)
      · exact fits.elim
      · exact fits.elim
      · exact fits.elim
      · exact Or.inr ⟨inside, rfl, fits, by rw [argument, found]⟩
      · exact fits.elim
  | .custom _, _, _, fits => (not_fitsArgument_custom fits).elim

/-- The parts of a compound that fit are read back. -/
theorem readsSimple_of_fitsEach :
    (members : List Selector) → FitsEach rules members →
      ∀ member ∈ members, ReadsSimple rules member
  | [], _ => List.forall_mem_nil _
  | member :: rest, fits =>
      List.forall_mem_cons.mpr
        ⟨readsLayer_of_fits member .simple fits.1, readsSimple_of_fitsEach rest fits.2⟩

/-- The members of a list that fit are read back. -/
theorem readsChain_of_fitsList :
    (members : List Selector) → FitsList rules members →
      ∀ member ∈ members, ReadsChain rules member
  | [], _ => List.forall_mem_nil _
  | member :: rest, fits =>
      List.forall_mem_cons.mpr
        ⟨readsLayer_of_fits member .chain fits.1, readsChain_of_fitsList rest fits.2⟩

end

/-- A list that fits is read back from its tokens. -/
theorem parseTokens_listTokens
    {members : List Selector}
    (fits : FitsList rules members) :
    parseTokens rules (listTokens members) = .value members :=
  parseTokens_of_readsChain (readsChain_of_fitsList members fits)

end Layers

end TreeSelectors.Selector
