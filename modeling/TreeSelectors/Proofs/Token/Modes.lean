import TreeSelectors.Proofs.Token.Runs

namespace TreeSelectors

/-!
# What a text leaves open

A text can be cut into tokens exactly if every escape, string and comment in it
is completed. That is read off one character after the other, without regard to
where tokens end: `Mode`, `run_error?_eq_none_iff`. A character outside comments
is kept by the token that it belongs to, unless it is punctuation, a mark of the
kind of a token, or a blank between tokens; other white space is always kept:
`filter_contents_run`.
-/

open TreeSelectors.Text

namespace Lexer

/-- What the text so far leaves open. -/
inductive Mode where
  | outside
  /-- A slash, which a star makes the start of a comment. -/
  | slash
  | escape
  | string (quote : Char)
  | stringEscape (quote : Char)
  | comment
  /-- A star in a comment, which a slash makes the end of it. -/
  | star
  | commentEscape
  /-- No text behind makes up for it. -/
  | failed
deriving Repr, DecidableEq

namespace Mode

/-- What a character outside strings and comments leaves open. -/
def enter (char : Char) : Mode :=
  if char == '/' then .slash
  else if char == '\\' then .escape
  else if char == doubleQuote || char == apostrophe then .string char
  else .outside

/-- What is open behind one more character. -/
def next (mode : Mode) (char : Char) : Mode :=
  match mode with
  | .outside => enter char
  | .slash => if char == '*' then .comment else enter char
  | .escape => if char == '\n' then .failed else .outside
  | .string quote =>
      if char == quote then .outside
      else if char == '\n' then .failed
      else if char == '\\' then .stringEscape quote
      else .string quote
  | .stringEscape quote => .string quote
  | .comment =>
      if char == '*' then .star
      else if char == '\\' then .commentEscape
      else .comment
  | .star =>
      if char == '/' then .outside
      else if char == '*' then .star
      else if char == '\\' then .commentEscape
      else .comment
  | .commentEscape => .comment
  | .failed => .failed

/-- What is open behind a text. -/
def after (mode : Mode) (text : List Char) : Mode :=
  text.foldl next mode

/-- Nothing is open. -/
def isCalm : Mode → Bool
  | .outside => true
  | .slash => true
  | _ => false

/-- Whether the next character is part of a comment. -/
def hides : Mode → Bool
  | .comment => true
  | .star => true
  | .commentEscape => true
  | _ => false

/-- The characters of a text that are not hidden in comments. -/
def exposed (mode : Mode) : List Char → List Char
  | [] => []
  | char :: rest =>
      if mode.hides then
        exposed (mode.next char) rest
      else
        char :: exposed (mode.next char) rest

section Texts

variable {mode : Mode} {char : Char} {text : List Char}

@[simp] theorem after_nil
    (mode : Mode) :
    mode.after [] = mode :=
  rfl

@[simp] theorem after_cons
    (mode : Mode)
    (char : Char)
    (text : List Char) :
    mode.after (char :: text) = (mode.next char).after text :=
  rfl

/-- What is open behind two texts is found by reading one behind the other. -/
theorem after_append
    (mode : Mode)
    (left right : List Char) :
    mode.after (left ++ right) = (mode.after left).after right :=
  List.foldl_append

/-- Nothing is read behind a failure. -/
theorem after_failed
    (text : List Char) :
    Mode.failed.after text = .failed := by
  induction text with
  | nil => rfl
  | cons char text inductionHypothesis => exact inductionHypothesis

/-- What two texts expose is what the first one does and then the second. -/
theorem exposed_append
    (mode : Mode)
    (left right : List Char) :
    mode.exposed (left ++ right) = mode.exposed left ++ (mode.after left).exposed right := by
  induction left generalizing mode with
  | nil => rfl
  | cons char left inductionHypothesis =>
      simp only [List.cons_append, exposed, after_cons, inductionHypothesis]
      split <;> rfl

/-- Behind a slash that starts no comment a text goes on as behind nothing. -/
theorem next_slash
    (noStar : char ≠ '*') :
    Mode.slash.next char = Mode.outside.next char := by
  simp [next, noStar]

/-- Behind a star that ends no comment a comment goes on as behind any other character. -/
theorem next_star
    (noSlash : char ≠ '/') :
    Mode.star.next char = Mode.comment.next char := by
  simp [next, noSlash]

end Texts

end Mode

/-- White space that is no blank to the scans. -/
def isOddSpace (char : Char) : Bool :=
  isWhiteSpace char && !isBlank char

/--
A text that starts outside strings and comments leaves something open, and the odd white space in
it, as far as it is not in comments, is that of a content.
-/
structure Passes (text content : List Char) (mode : Mode) : Prop where
  ends :
    Mode.outside.after text = mode
  keeps :
    (Mode.outside.exposed text).filter isOddSpace = content.filter isOddSpace

namespace Passes

variable {char : Char} {text more content further : List Char} {mode : Mode}

theorem nothing :
    Passes [] [] .outside :=
  ⟨rfl, rfl⟩

/-- Two texts that are passed one behind the other are passed together. -/
theorem append
    (first : Passes text content .outside)
    (second : Passes more further mode) :
    Passes (text ++ more) (content ++ further) mode := by
  refine ⟨?_, ?_⟩
  · rw [Mode.after_append, first.ends, second.ends]
  · rw [Mode.exposed_append, first.ends, List.filter_append, List.filter_append, first.keeps,
      second.keeps]

/-- One character passes as it stands and leaves open what it enters. -/
theorem single
    (char : Char) :
    Passes [char] [char] (Mode.enter char) :=
  ⟨rfl, rfl⟩

/-- Characters that enter nothing pass as they stand. -/
theorem plain
    (plain : ∀ char ∈ text, Mode.enter char = .outside) :
    Passes text text .outside := by
  induction text with
  | nil => exact nothing
  | cons char text inductionHypothesis =>
      obtain ⟨head, tail⟩ := List.forall_mem_cons.mp plain
      exact append (head ▸ single char) (inductionHypothesis tail)

/-- Characters that are no odd white space need not be kept. -/
theorem drop
    (passes : Passes text content mode)
    (even : content.filter isOddSpace = []) :
    Passes text [] mode :=
  ⟨passes.ends, passes.keeps.trans even⟩

/-- A mark that no token keeps. -/
theorem mark
    (plain : Mode.enter char = .outside)
    (even : isOddSpace char = false) :
    Passes [char] [] .outside := by
  have passes := plain ▸ single char
  exact passes.drop (by simp [even])

/-- An escape passes with the character that it escapes. -/
theorem escaped
    (notBreak : char ≠ '\n') :
    Passes ['\\', char] [char] .outside := by
  refine ⟨?_, ?_⟩
  · simp [Mode.after, Mode.next, Mode.enter, notBreak]
  · rfl

end Passes

section Spellings

variable {char : Char} {text name value rest : List Char}

/-- Four characters enter something: the slash, the backslash and the two quotes. -/
theorem enter_eq_outside_iff :
    Mode.enter char = .outside ↔
      char ≠ '/' ∧ char ≠ '\\' ∧ char ≠ doubleQuote ∧ char ≠ apostrophe := by
  unfold Mode.enter
  split
  · next slash => simp [beq_iff_eq.mp slash]
  · split
    · next backslash => simp [beq_iff_eq.mp backslash]
    · split
      · next quote =>
          rw [Bool.or_eq_true, beq_iff_eq, beq_iff_eq] at quote
          rcases quote with same | same <;> simp [same]
      · simp_all

/-- A character of a name enters nothing. -/
theorem enter_of_isNameChar
    (nameChar : isNameChar char = true) :
    Mode.enter char = .outside :=
  enter_eq_outside_iff.mpr ⟨ne_of_holds nameChar (by decide), ne_of_holds nameChar (by decide),
    ne_of_holds nameChar (by decide), ne_of_holds nameChar (by decide)⟩

/-- The text of a name passes with the name as its content. -/
theorem passes_nameText
    (nameText : NameText text name) :
    Passes text name .outside := by
  induction nameText with
  | done => exact Passes.nothing
  | plain nameChar _ inductionHypothesis =>
      exact Passes.append (enter_of_isNameChar nameChar ▸ Passes.single _) inductionHypothesis
  | escaped notBreak _ inductionHypothesis =>
      exact (Passes.escaped notBreak).append inductionHypothesis

/-- In a string a backslash and the character behind it are part of the string. -/
theorem string_escape
    {quote : Char}
    (isQuote : quote = doubleQuote ∨ quote = apostrophe)
    (char : Char)
    (text : List Char) :
    (Mode.string quote).after ('\\' :: char :: text) = (Mode.string quote).after text ∧
      (Mode.string quote).exposed ('\\' :: char :: text) =
        '\\' :: char :: (Mode.string quote).exposed text := by
  have escapes : (Mode.string quote).next '\\' = .stringEscape quote := by
    rcases isQuote with same | same <;> rw [same] <;> rfl
  rw [Mode.after_cons, Mode.exposed, escapes]
  exact ⟨rfl, rfl⟩

/-- The text of a string leaves the string open, and the string keeps what is in it. -/
theorem after_stringText
    {quote : Char}
    (isQuote : quote = doubleQuote ∨ quote = apostrophe)
    (stringText : StringText quote text value) :
    (Mode.string quote).after text = .string quote ∧
      ((Mode.string quote).exposed text).filter isOddSpace = value.filter isOddSpace := by
  induction stringText with
  | done => exact ⟨rfl, rfl⟩
  | @plain char text value notQuote notBackslash notBreak _ inductionHypothesis =>
      have goesOn : (Mode.string quote).next char = .string quote := by
        simp [Mode.next, notQuote, notBackslash, notBreak]
      simp only [Mode.after_cons, Mode.exposed, goesOn, Mode.hides, Bool.false_eq_true, if_false,
        List.filter_cons, inductionHypothesis, and_self]
  | joined _ inductionHypothesis =>
      obtain ⟨sameMode, sameExposed⟩ := string_escape isQuote '\n' _
      rw [sameMode, sameExposed]
      exact inductionHypothesis
  | @escaped char text value _ _ inductionHypothesis =>
      obtain ⟨sameMode, sameExposed⟩ := string_escape isQuote char text
      have hidden : isOddSpace '\\' = false := by
        decide
      rw [sameMode, sameExposed]
      simp only [List.filter_cons, hidden, Bool.false_eq_true, if_false, inductionHypothesis,
        and_self]

/-- A string passes with its value as its content, and is closed behind its quote. -/
theorem passes_string
    {quote : Char}
    (isQuote : quote = doubleQuote ∨ quote = apostrophe)
    (stringText : StringText quote text value) :
    Passes (quote :: (text ++ [quote])) value .outside := by
  obtain ⟨ends, keeps⟩ := after_stringText isQuote stringText
  have opens : Mode.outside.next quote = .string quote := by
    rcases isQuote with same | same <;> rw [same] <;> rfl
  have even : isOddSpace quote = false := by
    rcases isQuote with same | same <;> rw [same] <;> decide
  have closes : (Mode.string quote).next quote = .outside := by
    simp [Mode.next]
  constructor
  · rw [Mode.after_cons, opens, Mode.after_append, ends, Mode.after_cons, closes, Mode.after_nil]
  · simp only [Mode.exposed, opens, Mode.hides, Bool.false_eq_true, if_false, List.filter_cons,
      even, Mode.exposed_append, ends, List.filter_append, keeps, List.filter_nil,
      List.append_nil]

/-- A blank is no odd white space. -/
theorem isOddSpace_of_isBlank
    (blank : isBlank char = true) :
    isOddSpace char = false := by
  simp [isOddSpace, blank]

/-- Blanks pass with nothing as their content. -/
theorem passes_blanks
    (blanks : ∀ char ∈ text, isBlank char = true) :
    Passes text [] .outside := by
  have passes : Passes text text .outside := by
    refine Passes.plain fun char member => enter_eq_outside_iff.mpr ?_
    have blank := blanks char member
    exact ⟨ne_of_holds blank (by decide), ne_of_holds blank (by decide),
      ne_of_holds blank (by decide), ne_of_holds blank (by decide)⟩
  refine passes.drop (List.filter_eq_nil_iff.mpr fun char member => ?_)
  simp [isOddSpace_of_isBlank (blanks char member)]

/-- The text of a number passes as it stands. -/
theorem passes_isNumber
    (isNumber : IsNumber text) :
    Passes text text .outside := by
  refine Passes.plain fun char member => ?_
  rcases mem_of_isNumber isNumber char member with digit | isMark
  · exact enter_of_isNameChar (by simp [isNameChar, digit])
  · have known : ∀ mark ∈ ['+', '-', '.', 'e', 'E'], Mode.enter mark = .outside := by
      decide
    exact known char isMark

/-- Punctuation passes with nothing as its content. -/
theorem passes_punctuation?
    {token : Token}
    (punctuation : punctuation? char = some token) :
    Passes [char] [] .outside := by
  unfold punctuation? at punctuation
  split at punctuation
  all_goals first
    | exact Passes.mark (by decide) (by decide)
    | cases punctuation

/-- Whatever token a text spells, nothing is open behind it but the slash that is a token. -/
theorem passes_of_spelling
    {token : Token}
    (spelling : Spelling rest text token) :
    Passes text token.content .outside ∨ text = ['/'] ∧ Passes text token.content .slash := by
  cases spelling with
  | whitespace blanks _ => exact Or.inl (passes_blanks blanks)
  | ident spells _ _ =>
      rw [Token.content, String.toList_ofList]
      exact Or.inl (passes_nameText spells.nameText)
  | @function text name spells _ =>
      have whole := (passes_nameText spells.nameText).append
        (Passes.mark (show Mode.enter '(' = .outside by decide) (by decide))
      rw [List.append_nil] at whole
      rw [Token.content, String.toList_ofList]
      exact Or.inl whole
  | atKeyword spells =>
      rw [Token.content, String.toList_ofList]
      exact Or.inl ((Passes.mark (show Mode.enter '@' = .outside by decide) (by decide)).append
        (passes_nameText spells.nameText))
  | hash _ spells =>
      rw [Token.content, String.toList_ofList]
      exact Or.inl ((Passes.mark (show Mode.enter '#' = .outside by decide) (by decide)).append
        (passes_nameText spells.nameText))
  | string isQuote stringText =>
      rw [Token.content, String.toList_ofList]
      exact Or.inl (passes_string isQuote stringText)
  | number isNumber =>
      rw [Token.content, String.toList_ofList]
      exact Or.inl (passes_isNumber isNumber)
  | dimension isNumber spells =>
      rw [Token.content, String.toList_ofList, String.toList_ofList]
      exact Or.inl ((passes_isNumber isNumber).append (passes_nameText spells.nameText))
  | punctuation punctuation =>
      rw [(wellFormed_of_punctuation? punctuation).2.1]
      exact Or.inl (passes_punctuation? punctuation)
  | @delim char delim =>
      obtain ⟨⟨_, notQuote, notApostrophe⟩, notBackslash, _⟩ := isDelim_cases delim
      by_cases slash : char = '/'
      · rw [slash]
        exact Or.inr ⟨rfl, Passes.single '/'⟩
      · have enters : Mode.enter char = .outside :=
          enter_eq_outside_iff.mpr ⟨slash, notBackslash, notQuote, notApostrophe⟩
        exact Or.inl (enters ▸ Passes.single char)

/-- Behind a star a comment goes on as behind any other character, if no slash ends it. -/
theorem after_star
    {first : Char}
    (noSlash : first ≠ '/')
    (text : List Char) :
    Mode.star.after (first :: text) = Mode.comment.after (first :: text) ∧
      Mode.star.exposed (first :: text) = Mode.comment.exposed (first :: text) := by
  have same := Mode.next_star noSlash
  exact ⟨by rw [Mode.after_cons, Mode.after_cons, same],
    by simp [Mode.exposed, Mode.hides, same]⟩

/-- A comment is closed at its end and hides all of its text. -/
theorem after_commentText
    (commentText : CommentText text) :
    Mode.comment.after text = .outside ∧ Mode.comment.exposed text = [] := by
  induction commentText with
  | closed => exact ⟨rfl, rfl⟩
  | hidden char _ inductionHypothesis => exact inductionHypothesis
  | @plain char text notBackslash notEnd commentText inductionHypothesis =>
      by_cases star : char = '*'
      · obtain ⟨first, others, shape⟩ : ∃ first others, text = first :: others := by
          cases commentText <;> exact ⟨_, _, rfl⟩
        have noSlash : first ≠ '/' := by
          intro slash
          exact notEnd ⟨star, by rw [shape, slash]; rfl⟩
        obtain ⟨same, sameExposed⟩ := after_star noSlash others
        rw [← shape] at same sameExposed
        rw [star, Mode.after_cons]
        exact ⟨same.trans inductionHypothesis.1, sameExposed.trans inductionHypothesis.2⟩
      · have goesOn : Mode.comment.next char = .comment := by
          simp [Mode.next, star, notBackslash]
        rw [Mode.after_cons, Mode.exposed, goesOn]
        exact inductionHypothesis

/-- A whole comment passes with nothing as its content. -/
theorem passes_comment
    (commentText : CommentText text) :
    Passes ('/' :: '*' :: text) [] .outside := by
  obtain ⟨ends, hidden⟩ := after_commentText commentText
  have opens : Mode.outside.after ['/', '*'] = .comment := rfl
  have whole : '/' :: '*' :: text = ['/', '*'] ++ text := rfl
  constructor
  · rw [whole, Mode.after_append, opens, ends]
  · rw [whole, Mode.exposed_append, opens, hidden, List.append_nil]
    decide

end Spellings

section Failures

variable {text rest : List Char} {error : LexicalError}

theorem Scan.outcome_map_eq_error
    {α β : Type}
    {transform : α → β}
    {scan : Scan α} :
    (scan.map transform).outcome = .error error ↔ scan.outcome = .error error := by
  obtain ⟨outcome, rest⟩ := scan
  cases outcome <;> simp [Scan.map, Except.map]

/-- A name is not read only if a backslash with nothing to escape ends the text. -/
theorem after_of_scanName_error
    (failed : (scanName text).outcome = .error error) :
    Mode.outside.after text = .escape := by
  induction text using scanName.induct with
  | case1 => simp [scanName] at failed
  | case2 first rest nameChar inductionHypothesis =>
      rw [scanName_nameChar nameChar, Scan.outcome_map_eq_error] at failed
      have enters : Mode.outside.next first = .outside := enter_of_isNameChar nameChar
      rw [Mode.after_cons, enters, inductionHypothesis failed]
  | case3 first notName backslash =>
      rw [beq_iff_eq.mp backslash]
      rfl
  | case4 first notName backslash escaped rest isBreak =>
      simp [scanName_cons, notName, backslash, isBreak] at failed
  | case5 first notName backslash escaped rest notBreak inductionHypothesis =>
      have noBreak : escaped ≠ '\n' := by
        simpa using notBreak
      rw [beq_iff_eq.mp backslash] at failed ⊢
      rw [scanName_escaped noBreak, Scan.outcome_map_eq_error] at failed
      have passes : Mode.outside.after ['\\', escaped] = .outside :=
        (Passes.escaped noBreak).ends
      exact (Mode.after_append .outside ['\\', escaped] rest).trans
        (by rw [passes, inductionHypothesis failed])
  | case6 first rest notName notBackslash =>
      simp [scanName_cons, notName, notBackslash] at failed

/-- A string that fails is left open, or fails at its line break. -/
theorem not_calm_of_scanString_error
    {quote : Char}
    (isQuote : quote = doubleQuote ∨ quote = apostrophe)
    {before : List Char}
    (failed : (scanString quote before text).outcome = .error error) :
    ((Mode.string quote).after text).isCalm = false := by
  induction before, text using scanString.induct quote with
  | case1 before => rfl
  | case2 before char rest closing =>
      rw [scanString.eq_def] at failed
      simp [closing] at failed
  | case3 before char rest notClosing isBreak =>
      have fails : (Mode.string quote).next char = .failed := by
        simp [Mode.next, notClosing, isBreak]
      rw [Mode.after_cons, fails, Mode.after_failed]
      rfl
  | case4 before char notClosing notBreak backslash =>
      have escapes : (Mode.string quote).next char = .stringEscape quote := by
        simp [Mode.next, notClosing, notBreak, backslash]
      rw [Mode.after_cons, escapes]
      rfl
  | case5 before char notClosing notBreak backslash escaped rest isBreak inductionHypothesis =>
      rw [scanString.eq_def] at failed
      simp only [notClosing, notBreak, backslash, isBreak, if_true, Bool.false_eq_true,
        if_false] at failed
      rw [beq_iff_eq.mp backslash, (string_escape isQuote escaped rest).1]
      exact inductionHypothesis failed
  | case6 before char notClosing notBreak backslash escaped rest plainBreak inductionHypothesis =>
      rw [scanString.eq_def] at failed
      simp only [notClosing, notBreak, backslash, plainBreak, if_true, Bool.false_eq_true,
        if_false] at failed
      rw [beq_iff_eq.mp backslash, (string_escape isQuote escaped rest).1]
      exact inductionHypothesis failed
  | case7 before char rest notClosing notBreak notBackslash inductionHypothesis =>
      have goesOn : (Mode.string quote).next char = .string quote := by
        simp [Mode.next, notClosing, notBreak, notBackslash]
      rw [scanString.eq_def] at failed
      simp only [notClosing, notBreak, notBackslash, Bool.false_eq_true, if_false] at failed
      rw [Mode.after_cons, goesOn]
      exact inductionHypothesis failed

/-- A comment that fails is left open. -/
theorem not_calm_of_scanComment_error
    (failed : (scanComment text).outcome = .error error) :
    (Mode.comment.after text).isCalm = false := by
  induction text using scanComment.induct with
  | case1 => rfl
  | case2 rest =>
      rw [scanComment] at failed
      cases failed
  | case3 => rfl
  | case4 escaped rest inductionHypothesis =>
      rw [scanComment] at failed
      exact inductionHypothesis failed
  | case5 char rest notEnd notLast notEscape inductionHypothesis =>
      have plain : char ≠ '\\' := by
        intro same
        cases rest with
        | nil => exact notLast same rfl
        | cons escaped rest => exact notEscape escaped rest same rfl
      rw [scanComment] at failed
      · by_cases star : char = '*'
        · cases rest with
          | nil =>
              rw [star]
              rfl
          | cons first others =>
              have noSlash : first ≠ '/' := by
                intro slash
                exact notEnd others star (by rw [slash])
              rw [star, Mode.after_cons]
              show (Mode.star.after (first :: others)).isCalm = false
              rw [(after_star noSlash others).1]
              exact inductionHypothesis failed
        · have goesOn : Mode.comment.next char = .comment := by
            simp [Mode.next, star, plain]
          rw [Mode.after_cons, goesOn]
          exact inductionHypothesis failed
      all_goals assumption

/-- A name fails where its last escape is left open. -/
theorem not_calm_of_scanIdentLike_error
    (failed : (scanIdentLike text).outcome = .error error) :
    (Mode.outside.after text).isCalm = false := by
  cases scanned : scanName text with
  | mk outcome left =>
      have named := @after_of_scanName_error text
      rw [scanned] at named
      cases outcome with
      | error error =>
          rw [named rfl]
          rfl
      | ok name =>
          unfold scanIdentLike at failed
          rw [scanned] at failed
          split at failed
          · next same => cases same
          · cases failed
          · cases failed

/-- A name behind something else, which stands alone where no name starts. -/
theorem not_calm_of_optionalName_error
    {starts : Bool}
    {transform : List Char → Token}
    {alone : Token}
    (failed :
      (if starts then (scanName text).map transform else ⟨.ok alone, text⟩).outcome =
        .error error) :
    (Mode.outside.after text).isCalm = false := by
  cases starts with
  | false => cases failed
  | true =>
      rw [after_of_scanName_error (Scan.outcome_map_eq_error.mp failed)]
      rfl

/-- A number fails where an escape in its unit is left open. -/
theorem not_calm_of_scanNumeric_error
    (starts : startsNumber text = true)
    (failed : (scanNumeric text).outcome = .error error) :
    (Mode.outside.after text).isCalm = false := by
  have digits := (passes_isNumber (isNumber_splitNumber starts)).ends
  rw [← splitNumber_append text, Mode.after_append, digits]
  exact not_calm_of_optionalName_error failed

/-- A token that fails leaves something open. -/
theorem not_calm_of_scanToken_error
    {char : Char}
    (failed : (scanToken char rest).outcome = .error error) :
    (Mode.outside.after (char :: rest)).isCalm = false := by
  unfold scanToken at failed
  split at failed
  · cases failed
  split at failed
  · next quote =>
      rw [Bool.or_eq_true, beq_iff_eq, beq_iff_eq] at quote
      have opens : Mode.outside.next char = .string char := by
        rcases quote with same | same <;> rw [same] <;> rfl
      rw [Mode.after_cons, opens]
      exact not_calm_of_scanString_error quote (Scan.outcome_map_eq_error.mp failed)
  split at failed
  · next hash =>
      unfold scanHash at failed
      rw [beq_iff_eq.mp hash]
      show (Mode.outside.after rest).isCalm = false
      exact not_calm_of_optionalName_error failed
  split at failed
  · next atSign =>
      unfold scanAtKeyword at failed
      rw [beq_iff_eq.mp atSign]
      show (Mode.outside.after rest).isCalm = false
      exact not_calm_of_optionalName_error failed
  split at failed
  · next backslash =>
      split at failed
      · exact not_calm_of_scanIdentLike_error failed
      · next noEscape =>
          rw [beq_iff_eq.mp backslash] at noEscape ⊢
          cases rest with
          | nil => rfl
          | cons escaped rest =>
              have isBreak : escaped = '\n' := by
                simpa [startsEscape] using noEscape
              rw [isBreak]
              show (Mode.failed.after rest).isCalm = false
              rw [Mode.after_failed]
              rfl
  split at failed
  · next number => exact not_calm_of_scanNumeric_error number failed
  split at failed
  · exact not_calm_of_scanIdentLike_error failed
  split at failed
  · cases failed
  · cases failed

/-- A step that fails leaves something open. -/
theorem not_calm_of_step_error
    {char : Char}
    (failed : (step char rest).outcome = .error error) :
    (Mode.outside.after (char :: rest)).isCalm = false := by
  unfold step at failed
  split at failed
  · exact not_calm_of_scanComment_error (Scan.outcome_map_eq_error.mp failed)
  · exact not_calm_of_scanToken_error (Scan.outcome_map_eq_error.mp failed)

end Failures

section Runs

/-- Nothing is open in front of a text but a slash that starts no comment there. -/
theorem after_eq_of_left
    {mode : Mode}
    {text : List Char}
    (left : mode = .outside ∨ mode = .slash ∧ text.head? ≠ some '*') :
    (mode.after text).isCalm = (Mode.outside.after text).isCalm ∧
      mode.exposed text = Mode.outside.exposed text := by
  rcases left with outside | ⟨slash, noStar⟩
  · rw [outside]
    exact ⟨rfl, rfl⟩
  · rw [slash]
    cases text with
    | nil => exact ⟨rfl, rfl⟩
    | cons char rest =>
        have same : Mode.slash.next char = Mode.outside.next char := by
          refine Mode.next_slash fun star => noStar ?_
          rw [star]
          rfl
        rw [Mode.after_cons, Mode.after_cons, Mode.exposed, Mode.exposed, same]
        exact ⟨rfl, rfl⟩

/-- What cutting up a text has to do with what the text leaves open. -/
structure Followed (text : List Char) : Prop where
  succeeds :
    (run text).error? = none ↔ (Mode.outside.after text).isCalm = true
  keeps :
    (run text).error? = none →
      (contents (run text).tokens).filter isOddSpace =
        (Mode.outside.exposed text).filter isOddSpace

/-- A token or a comment in front of a text leaves open what the text does. -/
theorem Followed.prepend
    {front rest content : List Char}
    {mode : Mode}
    (passes : Passes front content mode)
    (left : mode = .outside ∨ mode = .slash ∧ rest.head? ≠ some '*')
    (sameError : (run (front ++ rest)).error? = (run rest).error?)
    (adds : contents (run (front ++ rest)).tokens = content ++ contents (run rest).tokens)
    (later : Followed rest) :
    Followed (front ++ rest) := by
  obtain ⟨sameCalm, sameExposed⟩ := after_eq_of_left left
  constructor
  · rw [sameError, Mode.after_append, passes.ends, sameCalm]
    exact later.succeeds
  · intro noError
    rw [sameError] at noError
    rw [adds, Mode.exposed_append, passes.ends, sameExposed, List.filter_append,
      List.filter_append, passes.keeps, later.keeps noError]

/-- The mode follows every text, by induction on the steps that cut it up. -/
theorem followed
    (text : List Char) :
    Followed text := by
  induction text using run.induct with
  | case1 => exact ⟨by simp [Mode.isCalm], fun _ => by simp [contents, Mode.exposed]⟩
  | case2 char rest token? read inductionHypothesis =>
      have same : run (char :: rest) = (run (step char rest).rest).precededBy token? := by
        rw [run_cons, read]
      cases token? with
      | none =>
          obtain ⟨front, shape, commentText⟩ := commentText_of_step read
          have whole : char :: rest = ('/' :: '*' :: front) ++ (step char rest).rest := shape
          rw [whole] at same ⊢
          exact inductionHypothesis.prepend (passes_comment commentText) (Or.inl rfl)
            (by rw [same]; rfl) (by rw [same]; rfl)
      | some token =>
          obtain ⟨front, shape, _, spelling⟩ := spells_step read
          have noComment : front = ['/'] → (step char rest).rest.head? ≠ some '*' := by
            intro slash star
            obtain ⟨others, behind⟩ := List.head?_eq_some_iff.mp star
            rw [slash, behind] at shape
            obtain ⟨isSlash, isStar⟩ := List.cons.inj shape
            rw [isSlash, isStar] at read
            obtain ⟨_, _, impossible⟩ := Scan.outcome_map_eq_ok.mp read
            cases impossible
          rw [shape] at same ⊢
          rcases passes_of_spelling spelling with passes | ⟨slash, passes⟩
          · exact inductionHypothesis.prepend passes (Or.inl rfl) (by rw [same]; rfl)
              (by rw [same]; rfl)
          · exact inductionHypothesis.prepend passes (Or.inr ⟨rfl, noComment slash⟩)
              (by rw [same]; rfl) (by rw [same]; rfl)
  | case3 char rest error failed =>
      have notCalm := not_calm_of_step_error failed
      have fails : (run (char :: rest)).error? = some error := by
        rw [run_cons, failed]
      constructor
      · rw [fails, notCalm]
        simp
      · intro noError
        rw [fails] at noError
        cases noError

/-- A text is cut up without an error exactly if it leaves nothing open. -/
theorem run_error?_eq_none_iff
    {text : List Char} :
    (run text).error? = none ↔ (Mode.outside.after text).isCalm = true :=
  (followed text).succeeds

/-- White space that is no blank is kept by tokens wherever it is not part of a comment. -/
theorem filter_contents_run
    {text : List Char}
    (noError : (run text).error? = none) :
    (contents (run text).tokens).filter isOddSpace =
      (Mode.outside.exposed text).filter isOddSpace :=
  (followed text).keeps noError

end Runs

end Lexer

end TreeSelectors
