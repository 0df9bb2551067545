import TreeSelectors.Proofs.Token.Runs

namespace TreeSelectors

/-!
# The ends of a written text

White space at the ends of a text is dropped before it is cut into tokens. What
writing adds to the characters of the tokens is known, `count_chars`, and a
space that ends a written text is the one that a backslash escapes:
`endsEscaped_chars`. So a text that loses something at its ends cannot stand
for what it has been written for.
-/

open TreeSelectors.Text
open TreeSelectors.Lexer

namespace Text

/-- The white space that is trimmed at the front of a text. -/
def leadingSpace (text : List Char) : List Char :=
  text.takeWhile isWhiteSpace

/-- The white space that is trimmed at the end of a text. -/
def trailingSpace (text : List Char) : List Char :=
  ((text.dropWhile isWhiteSpace).reverse.takeWhile isWhiteSpace).reverse

/-- What is trimmed away and what is kept make up the text. -/
theorem leadingSpace_append
    (text : List Char) :
    leadingSpace text ++ trim text ++ trailingSpace text = text := by
  have back : (text.dropWhile isWhiteSpace).reverse.takeWhile isWhiteSpace ++
      (text.dropWhile isWhiteSpace).reverse.dropWhile isWhiteSpace =
        (text.dropWhile isWhiteSpace).reverse :=
    List.takeWhile_append_dropWhile
  have behind := congrArg List.reverse back
  rw [List.reverse_append, List.reverse_reverse] at behind
  rw [trim, trimBy, trailingSpace, List.append_assoc, behind]
  exact List.takeWhile_append_dropWhile

/-- Nothing but white space is trimmed at the front. -/
theorem isWhiteSpace_of_leadingSpace
    {text : List Char} :
    ∀ char ∈ leadingSpace text, isWhiteSpace char = true :=
  fun char member => List.all_eq_true.mp List.all_takeWhile char member

/-- Nothing but white space is trimmed at the end. -/
theorem isWhiteSpace_of_trailingSpace
    {text : List Char} :
    ∀ char ∈ trailingSpace text, isWhiteSpace char = true :=
  fun char member => List.all_eq_true.mp List.all_takeWhile char (List.mem_reverse.mp member)

end Text

namespace Token

section Counting

variable {char : Char}

theorem count_singleton_of_notMem
    (notMark : char ∉ marks)
    {mark : Char}
    (isMark : mark ∈ marks) :
    [mark].count char = 0 := by
  rw [List.count_eq_zero, List.mem_singleton]
  intro same
  exact notMark (same ▸ isMark)

/-- Escaping a name adds backslashes only. -/
theorem count_escapeNameChars
    (notMark : char ∉ marks)
    (name : List Char) :
    (escapeNameChars name).count char = name.count char := by
  induction name with
  | nil => rfl
  | cons first name inductionHypothesis =>
      have backslash := count_singleton_of_notMem notMark (show '\\' ∈ marks by decide)
      rw [escapeNameChars_cons, List.count_append, inductionHypothesis, escapeNameChar]
      split
      · rw [← List.count_append, List.singleton_append]
      · have pair : ['\\', first] = ['\\'] ++ [first] := rfl
        rw [pair, List.count_append, backslash, Nat.zero_add, ← List.count_append,
          List.singleton_append]

/-- Escaping an identifier adds backslashes only. -/
theorem count_escapeIdentChars
    (notMark : char ∉ marks)
    (name : List Char) :
    (escapeIdentChars name).count char = name.count char := by
  cases name with
  | nil => rfl
  | cons first name =>
      have backslash := count_singleton_of_notMem notMark (show '\\' ∈ marks by decide)
      rw [escapeIdentChars, List.count_append, count_escapeNameChars notMark]
      split
      · rw [← List.count_append, List.singleton_append]
      · have pair : ['\\', first] = ['\\'] ++ [first] := rfl
        rw [pair, List.count_append, backslash, Nat.zero_add, ← List.count_append,
          List.singleton_append]

/-- Quoting a string adds quotes and backslashes only. -/
theorem count_quoteChars
    (notMark : char ∉ marks)
    (value : List Char) :
    (quoteChars value).count char = value.count char := by
  have quote := count_singleton_of_notMem notMark (show doubleQuote ∈ marks by decide)
  have backslash := count_singleton_of_notMem notMark (show '\\' ∈ marks by decide)
  have inside : (value.flatMap quoteChar).count char = value.count char := by
    induction value with
    | nil => rfl
    | cons first value inductionHypothesis =>
        rw [List.flatMap_cons, List.count_append, inductionHypothesis, quoteChar]
        split
        · have pair : ['\\', first] = ['\\'] ++ [first] := rfl
          rw [pair, List.count_append, backslash, Nat.zero_add, ← List.count_append,
            List.singleton_append]
        · rw [← List.count_append, List.singleton_append]
  have whole : quoteChars value = [doubleQuote] ++ value.flatMap quoteChar ++ [doubleQuote] := rfl
  rw [whole, List.count_append, List.count_append, inside, quote]
  omega

/-- Writing adds nothing but its marks and spaces. -/
theorem count_chars
    (notMark : char ∉ marks)
    (notSpace : char ≠ ' ')
    (token : Token) :
    token.chars.count char = token.content.count char := by
  have apart := fun {mark : Char} (isMark : mark ∈ marks) =>
    count_singleton_of_notMem notMark isMark
  cases token with
  | ident name => exact count_escapeIdentChars notMark _
  | function name =>
      rw [chars, List.count_append, count_escapeIdentChars notMark, apart (by decide)]
      rfl
  | atKeyword name =>
      have shape : chars (.atKeyword name) = ['@'] ++ escapeIdentChars name.toList := rfl
      rw [shape, List.count_append, count_escapeIdentChars notMark, apart (by decide), Nat.zero_add]
      rfl
  | hash name kind =>
      have shape : chars (.hash name kind) = ['#'] ++ escapeNameChars name.toList := rfl
      rw [shape, List.count_append, count_escapeNameChars notMark, apart (by decide), Nat.zero_add]
      rfl
  | string value => exact count_quoteChars notMark _
  | number numeral => rfl
  | dimension numeral unit =>
      have written : (unitChars unit.toList).count char = unit.toList.count char := by
        unfold unitChars
        split
        · have pair : '\\' :: escapeIdentChars unit.toList =
              ['\\'] ++ escapeIdentChars unit.toList := rfl
          rw [pair, List.count_append, count_escapeIdentChars notMark, apart (by decide),
            Nat.zero_add]
        · exact count_escapeIdentChars notMark _
      rw [chars, content, List.count_append, List.count_append, written]
  | delim char => rfl
  | whitespace => exact List.count_eq_zero.mpr fun member => notSpace (List.mem_singleton.mp member)
  | _ => exact apart (by decide)

/-- A character that is no mark and no space is written as often as the tokens hold it. -/
theorem count_listChars
    (notMark : char ∉ marks)
    (notSpace : char ≠ ' ')
    (tokens : List Token) :
    (listChars tokens).count char = (contents tokens).count char := by
  induction tokens with
  | nil => rfl
  | cons token tokens inductionHypothesis =>
      have shape : contents (token :: tokens) = token.content ++ contents tokens := rfl
      rw [listChars_cons, shape, List.count_append, List.count_append,
        count_chars notMark notSpace, inductionHypothesis]

end Counting

section Escapes

/-- Behind a text whose escapes are closed the count of backslashes starts anew. -/
theorem escapesClosed_append
    {left : List Char}
    (closed : escapesClosed left = true)
    (right : List Char) :
    escapesClosed (left ++ right) = escapesClosed right := by
  induction left using escapesClosed.induct with
  | case1 => rfl
  | case2 => exact absurd closed (by decide)
  | case3 escaped rest inductionHypothesis =>
      rw [escapesClosed_escaped] at closed
      rw [List.cons_append, List.cons_append, escapesClosed_escaped, inductionHypothesis closed]
  | case4 char rest notLast notEscape inductionHypothesis =>
      have plain : char ≠ '\\' := by
        intro same
        cases rest with
        | nil => exact notLast same rfl
        | cons escaped rest => exact notEscape escaped rest same rfl
      rw [escapesClosed_plain plain] at closed
      rw [List.cons_append, escapesClosed_plain plain, inductionHypothesis closed]

/-- Without a backslash nothing is escaped. -/
theorem escapesClosed_of_notMem
    {text : List Char}
    (none : '\\' ∉ text) :
    escapesClosed text = true := by
  induction text with
  | nil => rfl
  | cons char text inductionHypothesis =>
      rw [List.mem_cons, not_or] at none
      rw [escapesClosed_plain (Ne.symm none.1), inductionHypothesis none.2]

/-- Every backslash escapes something, and a space at the end is escaped. -/
structure EndsEscaped (text : List Char) : Prop where
  closed :
    escapesClosed text = true
  space :
    ∀ body, text = body ++ [' '] → escapesClosed body = false

namespace EndsEscaped

variable {left right text : List Char} {char : Char}

/-- The empty text has no end that could be a space. -/
theorem nil :
    EndsEscaped [] :=
  ⟨rfl, by simp⟩

/-- Only the last part of a text has to end escaped, if the one before is closed. -/
theorem behind
    (closed : escapesClosed left = true)
    (nonempty : right ≠ [])
    (second : EndsEscaped right) :
    EndsEscaped (left ++ right) := by
  refine ⟨(escapesClosed_append closed right).trans second.closed, fun body same => ?_⟩
  obtain ⟨init, last, shape⟩ := (List.eq_nil_or_concat right).resolve_left nonempty
  rw [List.concat_eq_append] at shape
  subst shape
  rw [← List.append_assoc] at same
  obtain ⟨bodySame, lastSame⟩ := List.append_inj' same rfl
  rw [← bodySame, escapesClosed_append closed]
  exact second.space init (by rw [lastSame])

/-- Two texts that end escaped do so together. -/
theorem append
    (first : EndsEscaped left)
    (second : EndsEscaped right) :
    EndsEscaped (left ++ right) := by
  by_cases empty : right = []
  · rw [empty, List.append_nil]
    exact first
  · exact behind first.closed empty second

/-- A last character that is neither a space nor a backslash is enough. -/
theorem ofLast
    (closed : escapesClosed text = true)
    (notSpace : char ≠ ' ')
    (plain : char ≠ '\\') :
    EndsEscaped (text ++ [char]) := by
  refine ⟨?_, fun body same => ?_⟩
  · rw [escapesClosed_append closed, escapesClosed_plain plain]
    rfl
  · exact absurd (List.cons.inj (List.append_inj' same rfl).2).1 notSpace

theorem plain
    (notSpace : char ≠ ' ')
    (plain : char ≠ '\\') :
    EndsEscaped [char] := by
  have closed : escapesClosed [] = true := rfl
  exact ofLast closed notSpace plain

/-- A backslash and any character are a whole text. -/
theorem escaped
    (char : Char) :
    EndsEscaped ['\\', char] := by
  refine ⟨escapesClosed_escaped char [], fun body same => ?_⟩
  have shape : ['\\', char] = ['\\'] ++ [char] := rfl
  rw [shape] at same
  rw [← (List.append_inj' same rfl).1]
  rfl

/-- A text without spaces and backslashes ends escaped. -/
theorem plains
    (each : ∀ char ∈ text, char ≠ ' ' ∧ char ≠ '\\') :
    EndsEscaped text := by
  induction text with
  | nil => exact nil
  | cons char text inductionHypothesis =>
      obtain ⟨head, tail⟩ := List.forall_mem_cons.mp each
      exact (plain head.1 head.2).append (inductionHypothesis tail)

theorem nameChar
    (nameChar : isNameChar char = true) :
    EndsEscaped [char] :=
  plain (ne_of_holds nameChar (by decide)) (ne_of_holds nameChar (by decide))

/-- An escaped name ends escaped. -/
theorem escapeNameChars
    (name : List Char) :
    EndsEscaped (Text.escapeNameChars name) := by
  induction name with
  | nil => exact nil
  | cons char name inductionHypothesis =>
      refine append ?_ inductionHypothesis
      unfold escapeNameChar
      split
      · next inName => exact nameChar inName
      · exact escaped char

/-- An escaped identifier ends escaped. -/
theorem escapeIdentChars
    (name : List Char) :
    EndsEscaped (Text.escapeIdentChars name) := by
  cases name with
  | nil => exact nil
  | cons char name =>
      refine append ?_ (escapeNameChars name)
      split
      · next unescaped => exact nameChar (isNameChar_of_startsUnescaped unescaped)
      · exact escaped char

/-- A quoted string ends with its quote. -/
theorem quoteChars
    (value : List Char) :
    EndsEscaped (Text.quoteChars value) := by
  have closed : escapesClosed (value.flatMap quoteChar) = true := by
    induction value with
    | nil => rfl
    | cons char value inductionHypothesis =>
        rw [List.flatMap_cons, quoteChar]
        split
        · rw [List.cons_append, List.singleton_append, escapesClosed_escaped, inductionHypothesis]
        · next notSpecial =>
            have notBackslash : char ≠ '\\' := by
              intro same
              exact notSpecial (by simp [same])
            rw [List.singleton_append, escapesClosed_plain notBackslash, inductionHypothesis]
  have opened : escapesClosed (doubleQuote :: value.flatMap quoteChar) = true := by
    rw [escapesClosed_plain (by decide), closed]
  exact ofLast opened (by decide) (by decide)

/-- The text of a number ends with a digit or a letter. -/
theorem number
    (isNumber : IsNumber text) :
    EndsEscaped text := by
  refine plains fun char member => ?_
  have known := mem_of_isNumber isNumber char member
  refine ⟨?_, ?_⟩ <;>
  · intro same
    rw [same] at known
    exact absurd known (by decide)

end EndsEscaped

/-- A space at the end of a written token that is not blank is escaped. -/
theorem endsEscaped_chars
    {token : Token}
    (wellFormed : token.WellFormed)
    (notBlank : token ≠ .whitespace) :
    EndsEscaped token.chars := by
  cases token with
  | ident name => exact EndsEscaped.escapeIdentChars _
  | function name =>
      exact EndsEscaped.ofLast (EndsEscaped.escapeIdentChars _).closed (by decide) (by decide)
  | atKeyword name =>
      exact (EndsEscaped.plain (by decide) (by decide)).append (EndsEscaped.escapeIdentChars _)
  | hash name kind =>
      exact (EndsEscaped.plain (by decide) (by decide)).append (EndsEscaped.escapeNameChars _)
  | string value => exact EndsEscaped.quoteChars _
  | number numeral => exact EndsEscaped.number wellFormed
  | dimension numeral unit =>
      refine (EndsEscaped.number wellFormed.1).append ?_
      obtain ⟨first, others, shape⟩ := List.exists_cons_of_ne_nil wellFormed.2.1
      rw [shape]
      by_cases exponent : startsExponent (first :: others) = true
      · rw [unitChars_of_startsExponent exponent]
        exact (EndsEscaped.escaped first).append (EndsEscaped.escapeNameChars others)
      · rw [unitChars, if_neg exponent]
        exact EndsEscaped.escapeIdentChars _
  | delim char =>
      obtain ⟨⟨blank, _⟩, backslash, _⟩ := isDelim_cases wellFormed.1
      refine EndsEscaped.plain ?_ backslash
      intro same
      rw [same] at blank
      exact absurd blank (by decide)
  | whitespace => exact absurd rfl notBlank
  | _ => exact EndsEscaped.plain (by decide) (by decide)

/-- What tokens are written as leaves no escape open. -/
theorem escapesClosed_listChars
    {tokens : List Token}
    (wellFormed : AllWellFormed tokens) :
    escapesClosed (listChars tokens) = true := by
  induction tokens with
  | nil => rfl
  | cons token tokens inductionHypothesis =>
      obtain ⟨head, tail⟩ := List.forall_mem_cons.mp wellFormed
      have closed : escapesClosed token.chars = true := by
        by_cases blank : token = .whitespace
        · subst blank
          rfl
        · exact (endsEscaped_chars head blank).closed
      rw [listChars_cons, escapesClosed_append closed, inductionHypothesis tail]

/-- What tokens are written as ends escaped, unless the last one is a blank. -/
theorem endsEscaped_listChars
    {tokens : List Token}
    {last : Token}
    (wellFormed : AllWellFormed (tokens ++ [last]))
    (notBlank : last ≠ .whitespace) :
    EndsEscaped (listChars (tokens ++ [last])) := by
  obtain ⟨init, final⟩ := List.forall_mem_append.mp wellFormed
  have lastFormed := final last List.mem_cons_self
  obtain ⟨first, others, shape, _⟩ := chars_eq_cons lastFormed notBlank
  have written : listChars (tokens ++ [last]) = listChars tokens ++ last.chars := by
    simp
  rw [written]
  exact EndsEscaped.behind (escapesClosed_listChars init) (by simp [shape])
    (endsEscaped_chars lastFormed notBlank)

end Escapes

section Trimming

/-- A text is what trimming keeps, with white space on both sides. -/
theorem trim_cases
    (text : List Char) :
    ∃ leading trailing, text = leading ++ trim text ++ trailing ∧
      (∀ char ∈ leading, isWhiteSpace char = true) ∧
      ∀ char ∈ trailing, isWhiteSpace char = true :=
  ⟨leadingSpace text, trailingSpace text, (leadingSpace_append text).symm,
    isWhiteSpace_of_leadingSpace, isWhiteSpace_of_trailingSpace⟩

/-- No mark is white space. -/
theorem notMem_marks
    {char : Char}
    (white : isWhiteSpace char = true) :
    char ∉ marks := by
  have visible : ∀ mark ∈ marks, isWhiteSpace mark = false := by
    decide
  intro isMark
  rw [visible char isMark] at white
  exact absurd white (by simp)

/-- The space that ends a text belongs to a backslash, so it is not cut off from it. -/
theorem EndsEscaped.trailing_eq_nil
    {text trailing : List Char}
    (ends : EndsEscaped (text ++ trailing))
    (closed : escapesClosed text = true)
    (spaces : ∀ char ∈ trailing, char = ' ') :
    trailing = [] := by
  rcases List.eq_nil_or_concat trailing with none | ⟨init, last, concat⟩
  · exact none
  · rw [List.concat_eq_append] at concat
    subst concat
    obtain ⟨initSpaces, lastSpace⟩ := List.forall_mem_append.mp spaces
    have broken := ends.space (text ++ init) (by
      rw [← lastSpace last List.mem_cons_self, List.append_assoc])
    have initClosed : escapesClosed init = true := by
      refine escapesClosed_of_notMem fun member => ?_
      exact absurd (initSpaces '\\' member) (by decide)
    rw [escapesClosed_append closed, initClosed] at broken
    exact absurd broken (by simp)

/-- A written text that loses no character with its white space at the ends has none there. -/
theorem trim_listChars
    {tokens : List Token}
    (wellFormed : AllWellFormed tokens)
    (starts : tokens.head? ≠ some .whitespace)
    (ends : EndsEscaped (listChars tokens))
    (closed : escapesClosed (trim (listChars tokens)) = true)
    (kept : ∀ char, isWhiteSpace char = true → char ≠ ' ' →
      (listChars tokens).count char ≤ (trim (listChars tokens)).count char) :
    trim (listChars tokens) = listChars tokens := by
  obtain ⟨leading, trailing, shape, leadingWhite, trailingWhite⟩ :=
    trim_cases (listChars tokens)
  have notBlank := (dropWhile_isBlank_listChars wellFormed starts).1
  generalize listChars tokens = text at *
  have onlySpaces : ∀ char, isWhiteSpace char = true →
      char ∈ leading ∨ char ∈ trailing → char = ' ' := by
    intro char white member
    refine Decidable.byContradiction fun notSpace => ?_
    have counts := kept char white notSpace
    have parts := congrArg (List.count char) shape
    rw [List.count_append, List.count_append] at parts
    rcases member with front | back
    · have some := List.count_pos_iff.mpr front
      omega
    · have some := List.count_pos_iff.mpr back
      omega
  have noLeading : leading = [] := by
    cases leading with
    | nil => rfl
    | cons char leading =>
        have white := leadingWhite char List.mem_cons_self
        have space := onlySpaces char white (Or.inl List.mem_cons_self)
        rw [shape, space] at notBlank
        exact absurd notBlank (by simp [isBlank])
  have noTrailing : trailing = [] := by
    rw [shape, noLeading, List.nil_append] at ends
    refine ends.trailing_eq_nil closed fun char member => ?_
    exact onlySpaces char (trailingWhite char member) (Or.inr member)
  rw [noLeading, noTrailing] at shape
  simpa using shape.symm

/-- Trimming keeps a text that neither starts nor ends with white space. -/
theorem trim_of_edges
    {text : List Char}
    (first : ∀ char ∈ text.head?, isWhiteSpace char = false)
    (last : ∀ char ∈ text.getLast?, isWhiteSpace char = false) :
    trim text = text := by
  have keeps : ∀ {text : List Char}, (∀ char ∈ text.head?, isWhiteSpace char = false) →
      text.dropWhile isWhiteSpace = text := by
    intro text first
    cases text with
    | nil => rfl
    | cons char text => exact List.dropWhile_cons_of_neg (by simp [first char rfl])
  have back : ∀ char ∈ text.reverse.head?, isWhiteSpace char = false := by
    rw [List.head?_reverse]
    exact last
  rw [trim, trimBy, keeps first, keeps back, List.reverse_reverse]

end Trimming

end Token

namespace Lexer

/-- Line breaks that have been unified are unified. -/
theorem unified_unifyBreaks
    (text : List Char) :
    Unified (unifyBreaks text) := by
  induction text using unifyBreaks.induct with
  | case1 => exact List.forall_mem_nil _
  | case2 rest inductionHypothesis =>
      rw [unifyBreaks]
      exact List.forall_mem_cons.mpr ⟨by decide, inductionHypothesis⟩
  | case3 rest _ inductionHypothesis =>
      rw [unifyBreaks]
      · exact List.forall_mem_cons.mpr ⟨by decide, inductionHypothesis⟩
      · assumption
  | case4 rest inductionHypothesis =>
      rw [unifyBreaks]
      exact List.forall_mem_cons.mpr ⟨by decide, inductionHypothesis⟩
  | case5 rest inductionHypothesis =>
      rw [unifyBreaks]
      exact List.forall_mem_cons.mpr ⟨by decide, inductionHypothesis⟩
  | case6 char rest _ notReturn notFeed notNull inductionHypothesis =>
      rw [unifyBreaks]
      · exact List.forall_mem_cons.mpr ⟨⟨notReturn, notFeed, notNull⟩, inductionHypothesis⟩
      all_goals assumption

/-- There is nothing to unify in a text that is. -/
theorem unifyBreaks_of_unified
    {text : List Char}
    (unified : Unified text) :
    unifyBreaks text = text := by
  induction text with
  | nil => rfl
  | cons char text inductionHypothesis =>
      obtain ⟨⟨notReturn, notFeed, notNull⟩, tail⟩ := List.forall_mem_cons.mp unified
      rw [unifyBreaks, inductionHypothesis tail]
      · exact fun _ same => absurd same notReturn
      · exact notReturn
      · exact notFeed
      · exact notNull

/-- There is nothing to unify in a text that normalising leaves as it is. -/
theorem unifyBreaks_of_settled
    {text : List Char}
    (settled : Settled text) :
    unifyBreaks text = text :=
  unifyBreaks_of_unified fun char member => (settled char member).2

end Lexer

end TreeSelectors
