import TreeSelectors.Proofs.Token.Legibility
import TreeSelectors.Token.Lexer

namespace TreeSelectors

/-!
# What tokens are spelt with

`Spelling` says what the text of a token looks like, kind by kind and without
the scans. Whatever a step reads of a text is spelt by what it takes off the
front, `spells_step`, and what it reads nothing of is a comment.
-/

open TreeSelectors.Text

namespace Lexer

/-- A text spells the characters of a name, some of them with a backslash in front. -/
inductive NameText : List Char → List Char → Prop where
  | done :
      NameText [] []
  | plain {char : Char} {text name : List Char} :
      isNameChar char = true →
      NameText text name →
      NameText (char :: text) (char :: name)
  | escaped {char : Char} {text name : List Char} :
      char ≠ '\n' →
      NameText text name →
      NameText ('\\' :: char :: text) (char :: name)

/-- A text spells a name that what stands behind it does not go on with. -/
structure SpellsName (text name rest : List Char) : Prop where
  nameText :
    NameText text name
  nonempty :
    text ≠ []
  ended :
    startsNameChar rest = false

/-- A text between two quotes spells a string; a line feed behind a backslash is no part of it. -/
inductive StringText (quote : Char) : List Char → List Char → Prop where
  | done :
      StringText quote [] []
  | plain {char : Char} {text value : List Char} :
      char ≠ quote →
      char ≠ '\\' →
      char ≠ '\n' →
      StringText quote text value →
      StringText quote (char :: text) (char :: value)
  | joined {text value : List Char} :
      StringText quote text value →
      StringText quote ('\\' :: '\n' :: text) value
  | escaped {char : Char} {text value : List Char} :
      char ≠ '\n' →
      StringText quote text value →
      StringText quote ('\\' :: char :: text) (char :: value)

/-- The rest of a comment, which the first end that no backslash hides completes. -/
inductive CommentText : List Char → Prop where
  | closed :
      CommentText ['*', '/']
  | hidden (char : Char) {text : List Char} :
      CommentText text →
      CommentText ('\\' :: char :: text)
  | plain {char : Char} {text : List Char} :
      char ≠ '\\' →
      ¬ (char = '*' ∧ text.head? = some '/') →
      CommentText text →
      CommentText (char :: text)

/-- A text spells a token, with what stands behind it. -/
inductive Spelling (rest : List Char) : List Char → Token → Prop where
  | whitespace {text : List Char} :
      (∀ char ∈ text, isBlank char = true) →
      rest.head?.any isBlank = false →
      Spelling rest text .whitespace
  | ident {text name : List Char} :
      SpellsName text name rest →
      startsIdent text = true →
      rest.head? ≠ some '(' →
      Spelling rest text (.ident (String.ofList name))
  | function {text name : List Char} :
      SpellsName text name ('(' :: rest) →
      startsIdent text = true →
      Spelling rest (text ++ ['(']) (.function (String.ofList name))
  | atKeyword {text name : List Char} :
      SpellsName text name rest →
      Spelling rest ('@' :: text) (.atKeyword (String.ofList name))
  | hash {text name : List Char} (kind : HashKind) :
      SpellsName text name rest →
      Spelling rest ('#' :: text) (.hash (String.ofList name) kind)
  | string {quote : Char} {text value : List Char} :
      quote = doubleQuote ∨ quote = apostrophe →
      StringText quote text value →
      Spelling rest (quote :: (text ++ [quote])) (.string (String.ofList value))
  | number {digits : List Char} :
      IsNumber digits →
      Spelling rest digits (.number ⟨String.ofList digits⟩)
  | dimension {digits text unit : List Char} :
      IsNumber digits →
      SpellsName text unit rest →
      Spelling rest (digits ++ text) (.dimension ⟨String.ofList digits⟩ (String.ofList unit))
  | punctuation {char : Char} {token : Token} :
      punctuation? char = some token →
      Spelling rest [char] token
  | delim {char : Char} :
      isDelim char = true →
      Spelling rest [char] (.delim char)

/-- Only a backslash starts an escape. -/
theorem startsEscape_of_ne_backslash
    {char : Char}
    (plain : char ≠ '\\')
    (rest : List Char) :
    startsEscape (char :: rest) = false := by
  unfold startsEscape
  split
  · next shape => exact absurd (List.cons.inj shape).1 plain
  · rfl

section Scans

/-- A name that is read is the longest one at the start of the text. -/
theorem nameText_of_scanName
    {text name : List Char}
    (read : (scanName text).outcome = .ok name) :
    ∃ front, text = front ++ (scanName text).rest ∧ NameText front name ∧
      startsNameChar (scanName text).rest = false := by
  induction text using scanName.induct generalizing name with
  | case1 =>
      cases read
      exact ⟨[], rfl, .done, rfl⟩
  | case2 first rest nameChar inductionHypothesis =>
      rw [scanName_nameChar nameChar] at read ⊢
      obtain ⟨others, later, shape⟩ := Scan.outcome_map_eq_ok.mp read
      obtain ⟨front, same, nameText, ended⟩ := inductionHypothesis later
      subst shape
      exact ⟨first :: front, congrArg (first :: ·) same, .plain nameChar nameText, ended⟩
  | case3 first notName backslash =>
      simp [scanName_cons, notName, backslash] at read
  | case4 first notName backslash escaped rest isBreak =>
      simp only [scanName_cons, notName, backslash, isBreak, if_true, Bool.false_eq_true,
        if_false, Except.ok.injEq] at read ⊢
      subst read
      refine ⟨[], rfl, .done, ?_⟩
      rw [beq_iff_eq.mp backslash, beq_iff_eq.mp isBreak]
      rfl
  | case5 first notName backslash escaped rest notBreak inductionHypothesis =>
      have noBreak : escaped ≠ '\n' := by
        simpa using notBreak
      rw [beq_iff_eq.mp backslash, scanName_escaped noBreak] at read ⊢
      obtain ⟨others, later, shape⟩ := Scan.outcome_map_eq_ok.mp read
      obtain ⟨front, same, nameText, ended⟩ := inductionHypothesis later
      subst shape
      exact ⟨'\\' :: escaped :: front, congrArg ('\\' :: escaped :: ·) same,
        .escaped noBreak nameText, ended⟩
  | case6 first rest notName notBackslash =>
      simp only [scanName_cons, notName, notBackslash, Bool.false_eq_true, if_false,
        Except.ok.injEq] at read ⊢
      subst read
      refine ⟨[], rfl, .done, ?_⟩
      have plain : first ≠ '\\' := by
        simpa using notBackslash
      simp [startsNameChar, notName, startsEscape_of_ne_backslash plain]

/-- What a scan reads as a name spells it. -/
theorem spellsName_of_scanName
    {text name : List Char}
    (starts : startsNameChar text = true)
    (read : (scanName text).outcome = .ok name) :
    ∃ front, text = front ++ (scanName text).rest ∧
      SpellsName front name (scanName text).rest := by
  obtain ⟨front, same, nameText, ended⟩ := nameText_of_scanName read
  refine ⟨front, same, nameText, ?_, ended⟩
  intro none
  rw [none, List.nil_append] at same
  rw [same, ended] at starts
  exact absurd starts (by simp)

/-- What makes a hyphen start an identifier goes on with a name. -/
theorem startsNameChar_of_startsIdent_hyphen
    {rest : List Char}
    (starts : startsIdent ('-' :: rest) = true) :
    startsNameChar rest = true := by
  cases rest with
  | nil => exact absurd starts (by decide)
  | cons second rest =>
      simp only [startsIdent, beq_self_eq_true, if_true, Bool.or_eq_true, beq_iff_eq] at starts
      rcases starts with escape | start | hyphen
      · simp [startsNameChar, escape]
      · simp [startsNameChar, isNameChar_of_isNameStart start]
      · simp [startsNameChar, hyphen, isNameChar]

/-- An identifier is one without what stands behind its name. -/
theorem SpellsName.startsIdent
    {text name rest : List Char}
    (spells : SpellsName text name rest)
    (starts : Lexer.startsIdent (text ++ rest) = true) :
    Lexer.startsIdent text = true := by
  have noEscape : ∀ {char : Char}, isNameChar char = true → ∀ behind,
      startsEscape (char :: behind) = false :=
    fun nameChar behind =>
      startsEscape_of_ne_backslash (ne_of_holds nameChar isNameChar_backslash) behind
  cases spells.nameText with
  | done => exact absurd rfl spells.nonempty
  | @plain first text name nameChar later =>
      by_cases hyphen : first = '-'
      · subst hyphen
        cases later with
        | done =>
            have goesOn : startsNameChar rest = true :=
              startsNameChar_of_startsIdent_hyphen starts
            rw [spells.ended] at goesOn
            exact absurd goesOn (by simp)
        | plain secondName later =>
            simpa [Lexer.startsIdent, noEscape secondName] using starts
        | escaped notBreak later =>
            simp [Lexer.startsIdent, startsEscape, notBreak]
      · simpa [Lexer.startsIdent, hyphen, noEscape nameChar] using starts
  | escaped notBreak later =>
      simp [Lexer.startsIdent, startsEscape, notBreak]

/-- A string that is read ends with the first of its quotes that no backslash hides. -/
theorem stringText_of_scanString
    {quote : Char}
    {before text value : List Char}
    (read : (scanString quote before text).outcome = .ok value) :
    ∃ inside more, text = inside ++ quote :: (scanString quote before text).rest ∧
      value = before.reverse ++ more ∧ StringText quote inside more := by
  induction before, text using scanString.induct quote with
  | case1 before =>
      simp [scanString] at read
  | case2 before char rest closing =>
      rw [scanString.eq_def] at read ⊢
      simp only [closing, if_true, Except.ok.injEq] at read ⊢
      refine ⟨[], [], ?_, by simp [read], .done⟩
      rw [beq_iff_eq.mp closing]
      rfl
  | case3 before char rest notClosing isBreak =>
      rw [scanString.eq_def] at read
      simp [notClosing, isBreak] at read
  | case4 before char notClosing notBreak backslash =>
      rw [scanString.eq_def] at read
      simp [notClosing, notBreak, backslash] at read
  | case5 before char notClosing notBreak backslash escaped rest isBreak inductionHypothesis =>
      rw [scanString.eq_def] at read ⊢
      simp only [notClosing, notBreak, backslash, isBreak, if_true, Bool.false_eq_true,
        if_false] at read ⊢
      obtain ⟨inside, more, shape, same, stringText⟩ := inductionHypothesis read
      rw [beq_iff_eq.mp backslash, beq_iff_eq.mp isBreak]
      exact ⟨'\\' :: '\n' :: inside, more, congrArg ('\\' :: '\n' :: ·) shape, same,
        .joined stringText⟩
  | case6 before char notClosing notBreak backslash escaped rest plainBreak inductionHypothesis =>
      rw [scanString.eq_def] at read ⊢
      simp only [notClosing, notBreak, backslash, plainBreak, if_true, Bool.false_eq_true,
        if_false] at read ⊢
      obtain ⟨inside, more, shape, same, stringText⟩ := inductionHypothesis read
      rw [beq_iff_eq.mp backslash]
      exact ⟨'\\' :: escaped :: inside, escaped :: more, congrArg ('\\' :: escaped :: ·) shape,
        by simp [same], .escaped (by simpa using plainBreak) stringText⟩
  | case7 before char rest notClosing notBreak notBackslash inductionHypothesis =>
      rw [scanString.eq_def] at read ⊢
      simp only [notClosing, notBreak, notBackslash, Bool.false_eq_true, if_false] at read ⊢
      obtain ⟨inside, more, shape, same, stringText⟩ := inductionHypothesis read
      exact ⟨char :: inside, char :: more, congrArg (char :: ·) shape, by simp [same],
        .plain (by simpa using notClosing) (by simpa using notBackslash) (by simpa using notBreak)
          stringText⟩

/-- A comment that is read ends with the first end that no backslash hides. -/
theorem commentText_of_scanComment
    {text : List Char}
    {result : Unit}
    (read : (scanComment text).outcome = .ok result) :
    ∃ front, text = front ++ (scanComment text).rest ∧ CommentText front := by
  induction text using scanComment.induct with
  | case1 => simp [scanComment] at read
  | case2 rest =>
      rw [scanComment]
      exact ⟨['*', '/'], rfl, .closed⟩
  | case3 => simp [scanComment] at read
  | case4 escaped rest inductionHypothesis =>
      rw [scanComment] at read ⊢
      obtain ⟨front, shape, commentText⟩ := inductionHypothesis read
      exact ⟨'\\' :: escaped :: front, congrArg ('\\' :: escaped :: ·) shape,
        .hidden escaped commentText⟩
  | case5 char rest notEnd notLast notEscape inductionHypothesis =>
      have plain : char ≠ '\\' := by
        intro same
        cases rest with
        | nil => exact notLast same rfl
        | cons escaped rest => exact notEscape escaped rest same rfl
      rw [scanComment] at read ⊢
      · obtain ⟨front, shape, commentText⟩ := inductionHypothesis read
        refine ⟨char :: front, congrArg (char :: ·) shape, .plain plain ?_ commentText⟩
        rintro ⟨star, slash⟩
        obtain ⟨others, same⟩ := List.head?_eq_some_iff.mp slash
        rw [same] at shape
        exact notEnd _ star shape
      all_goals assumption

/-- A token that is read from a text is spelt by what it takes off the front. -/
def Spells (text : List Char) (token : Token) (rest : List Char) : Prop :=
  ∃ front, text = front ++ rest ∧ front ≠ [] ∧ Spelling rest front token

/-- What a scan reads as a name or function spells it, parenthesis included. -/
theorem spells_scanIdentLike
    {text : List Char}
    (starts : startsIdent text = true)
    {token : Token}
    (read : (scanIdentLike text).outcome = .ok token) :
    Spells text token (scanIdentLike text).rest := by
  have named := @spellsName_of_scanName text
  cases scanned : scanName text with
  | mk outcome left =>
      rw [scanned] at named
      cases outcome with
      | error error => simp [scanIdentLike, scanned] at read
      | ok name =>
          obtain ⟨front, shape, spells⟩ := named (startsNameChar_of_startsIdent starts) rfl
          have ident : startsIdent front = true := by
            rw [shape] at starts
            exact spells.startsIdent starts
          rw [← String.toList_ofList (l := name)] at scanned
          by_cases parenthesis : left.head? = some '('
          · obtain ⟨rest, same⟩ := List.head?_eq_some_iff.mp parenthesis
            subst same
            rw [scanIdentLike_eq_function_iff.mpr scanned] at read ⊢
            cases read
            exact ⟨front ++ ['('], by simpa using shape, by simp, .function spells ident⟩
          · rw [scanIdentLike_eq_ident_iff.mpr ⟨scanned, parenthesis⟩] at read ⊢
            cases read
            exact ⟨front, shape, spells.nonempty, .ident spells ident parenthesis⟩

/-- A name behind the mark of its kind. -/
theorem spells_marked
    (mark : Char)
    {rest name : List Char}
    (starts : startsNameChar rest = true)
    (scanned : (scanName rest).outcome = .ok name)
    {token : Token}
    (spelling : ∀ {front}, SpellsName front name (scanName rest).rest →
      Spelling (scanName rest).rest (mark :: front) token) :
    Spells (mark :: rest) token (scanName rest).rest := by
  obtain ⟨front, shape, spells⟩ := spellsName_of_scanName starts scanned
  exact ⟨mark :: front, congrArg (mark :: ·) shape, by simp, spelling spells⟩

/-- A character that is a token of its own. -/
theorem spells_single
    {char : Char}
    {rest : List Char}
    {token : Token}
    (spelling : Spelling rest [char] token) :
    Spells (char :: rest) token rest :=
  ⟨[char], rfl, by simp, spelling⟩

/-- What a scan reads as a hash spells it with its number sign. -/
theorem spells_scanHash
    {rest : List Char}
    {token : Token}
    (read : (scanHash rest).outcome = .ok token) :
    Spells ('#' :: rest) token (scanHash rest).rest := by
  unfold scanHash at read ⊢
  by_cases starts : startsNameChar rest = true
  · simp only [starts, if_true] at read ⊢
    obtain ⟨name, scanned, shape⟩ := Scan.outcome_map_eq_ok.mp read
    subst shape
    exact spells_marked '#' starts scanned fun spells => .hash _ spells
  · simp only [starts, if_false, Except.ok.injEq, Bool.false_eq_true] at read ⊢
    subst read
    exact spells_single (.delim (by decide))

/-- What a scan reads as an at-keyword spells it with its sign. -/
theorem spells_scanAtKeyword
    {rest : List Char}
    {token : Token}
    (read : (scanAtKeyword rest).outcome = .ok token) :
    Spells ('@' :: rest) token (scanAtKeyword rest).rest := by
  unfold scanAtKeyword at read ⊢
  by_cases starts : startsIdent rest = true
  · simp only [starts, if_true] at read ⊢
    obtain ⟨name, scanned, shape⟩ := Scan.outcome_map_eq_ok.mp read
    subst shape
    exact spells_marked '@' (startsNameChar_of_startsIdent starts) scanned
      fun spells => .atKeyword spells
  · simp only [starts, if_false, Except.ok.injEq, Bool.false_eq_true] at read ⊢
    subst read
    exact spells_single (.delim (by decide))

/-- What a scan reads as a number spells it, with its unit or without. -/
theorem spells_scanNumeric
    {text : List Char}
    (starts : startsNumber text = true)
    {token : Token}
    (read : (scanNumeric text).outcome = .ok token) :
    Spells text token (scanNumeric text).rest := by
  have isNumber := isNumber_splitNumber starts
  have whole := splitNumber_append text
  unfold scanNumeric at read ⊢
  cases split : splitNumber text with
  | mk digits left =>
      rw [split] at read isNumber whole
      have nonempty : digits ≠ [] := ne_nil_of_isNumber isNumber
      by_cases ident : startsIdent left = true
      · simp only [ident, if_true] at read ⊢
        obtain ⟨unit, scanned, shape⟩ := Scan.outcome_map_eq_ok.mp read
        subst shape
        obtain ⟨front, same, spells⟩ :=
          spellsName_of_scanName (startsNameChar_of_startsIdent ident) scanned
        refine ⟨digits ++ front, ?_, by simp [nonempty], .dimension isNumber spells⟩
        rw [List.append_assoc, Scan.rest_map, ← same, whole]
      · simp only [ident, if_false, Except.ok.injEq, Bool.false_eq_true] at read ⊢
        subst read
        exact ⟨digits, whole.symm, nonempty, .number isNumber⟩

/-- A run of blanks spells one token. -/
theorem spells_blanks
    {char : Char}
    (blank : isBlank char = true)
    (rest : List Char) :
    Spells (char :: rest) .whitespace (rest.dropWhile isBlank) := by
  refine ⟨char :: rest.takeWhile isBlank,
    congrArg (char :: ·) List.takeWhile_append_dropWhile.symm, by simp, .whitespace ?_ ?_⟩
  · refine List.forall_mem_cons.mpr ⟨blank, fun other member => ?_⟩
    exact List.all_eq_true.mp List.all_takeWhile other member
  · have notBlank := List.head?_dropWhile_not isBlank rest
    cases first : (rest.dropWhile isBlank).head? with
    | none => rfl
    | some char => simpa [first] using notBlank

/-- What a scan reads as a string spells it with its quotes. -/
theorem spells_scanString
    {quote : Char}
    (isQuote : (quote == doubleQuote || quote == apostrophe) = true)
    {rest value : List Char}
    (read : (scanString quote [] rest).outcome = .ok value) :
    Spells (quote :: rest) (.string (String.ofList value)) (scanString quote [] rest).rest := by
  obtain ⟨inside, more, shape, same, stringText⟩ := stringText_of_scanString read
  rw [List.reverse_nil, List.nil_append] at same
  subst same
  refine ⟨quote :: (inside ++ [quote]), ?_, by simp,
    .string (by simpa using isQuote) stringText⟩
  simpa using shape

/-- A character that starts a token of no other kind. -/
theorem isDelim_of_nothingElse
    {char : Char}
    {rest : List Char}
    (notBlank : ¬ isBlank char = true)
    (notQuote : ¬ (char == doubleQuote || char == apostrophe) = true)
    (notBackslash : char ≠ '\\')
    (notNumber : ¬ startsNumber (char :: rest) = true)
    (notIdent : ¬ startsIdent (char :: rest) = true)
    (noPunctuation : punctuation? char = none) :
    isDelim char = true := by
  have notStart : isNameStart char = false := by
    rw [Bool.eq_false_iff]
    exact fun starts => notIdent (startsIdent_of_isNameStart starts rest)
  have notDigit : char.isDigit = false := by
    rw [Bool.eq_false_iff]
    exact fun digit => notNumber (startsNumber_of_isDigit digit rest)
  simp only [Bool.or_eq_true, beq_iff_eq, not_or] at notQuote
  simp [isDelim, notBlank, notQuote, notBackslash, notStart, notDigit, noPunctuation]

/-- Whatever a token starts with, what it takes off the front of the text spells it. -/
theorem spells_scanToken
    {char : Char}
    {rest : List Char}
    {token : Token}
    (read : (scanToken char rest).outcome = .ok token) :
    Spells (char :: rest) token (scanToken char rest).rest := by
  unfold scanToken at read ⊢
  by_cases blank : isBlank char = true
  · rw [if_pos blank, Except.ok.injEq] at read
    rw [if_pos blank]
    subst read
    exact spells_blanks blank rest
  rw [if_neg blank] at read ⊢
  by_cases quote : (char == doubleQuote || char == apostrophe) = true
  · rw [if_pos quote] at read ⊢
    obtain ⟨value, scanned, shape⟩ := Scan.outcome_map_eq_ok.mp read
    subst shape
    exact spells_scanString quote scanned
  rw [if_neg quote] at read ⊢
  by_cases hash : (char == '#') = true
  · rw [if_pos hash] at read ⊢
    rw [beq_iff_eq.mp hash]
    exact spells_scanHash read
  rw [if_neg hash] at read ⊢
  by_cases atSign : (char == '@') = true
  · rw [if_pos atSign] at read ⊢
    rw [beq_iff_eq.mp atSign]
    exact spells_scanAtKeyword read
  rw [if_neg atSign] at read ⊢
  by_cases backslash : (char == '\\') = true
  · rw [if_pos backslash] at read ⊢
    by_cases escape : startsEscape (char :: rest) = true
    · rw [if_pos escape] at read ⊢
      refine spells_scanIdentLike ?_ read
      rw [beq_iff_eq.mp backslash] at escape ⊢
      simp [startsIdent, escape]
    · rw [if_neg escape] at read
      exact absurd read (by simp)
  rw [if_neg backslash] at read ⊢
  by_cases number : startsNumber (char :: rest) = true
  · rw [if_pos number] at read ⊢
    exact spells_scanNumeric number read
  rw [if_neg number] at read ⊢
  by_cases ident : startsIdent (char :: rest) = true
  · rw [if_pos ident] at read ⊢
    exact spells_scanIdentLike ident read
  rw [if_neg ident] at read ⊢
  cases punctuation : punctuation? char with
  | some found =>
      rw [punctuation, Except.ok.injEq] at read
      subst read
      exact spells_single (.punctuation punctuation)
  | none =>
      rw [punctuation, Except.ok.injEq] at read
      subst read
      exact spells_single (.delim
        (isDelim_of_nothingElse blank quote (by simpa using backslash) number ident punctuation))

/-- A step that gives a token reads what spells it. -/
theorem spells_step
    {char : Char}
    {rest : List Char}
    {token : Token}
    (read : (step char rest).outcome = .ok (some token)) :
    Spells (char :: rest) token (step char rest).rest := by
  unfold step at read ⊢
  split at read
  · obtain ⟨_, _, impossible⟩ := Scan.outcome_map_eq_ok.mp read
    cases impossible
  · obtain ⟨found, scanned, same⟩ := Scan.outcome_map_eq_ok.mp read
    cases same
    exact spells_scanToken scanned

/-- A step without a token takes a comment off the front of the text. -/
theorem commentText_of_step
    {char : Char}
    {rest : List Char}
    (read : (step char rest).outcome = .ok none) :
    ∃ front, char :: rest = '/' :: '*' :: (front ++ (step char rest).rest) ∧
      CommentText front := by
  unfold step at read ⊢
  split at read
  · obtain ⟨_, scanned, _⟩ := Scan.outcome_map_eq_ok.mp read
    obtain ⟨front, shape, commentText⟩ := commentText_of_scanComment scanned
    exact ⟨front, congrArg ('/' :: '*' :: ·) shape, commentText⟩
  · obtain ⟨_, _, impossible⟩ := Scan.outcome_map_eq_ok.mp read
    cases impossible

end Scans

end Lexer

end TreeSelectors
