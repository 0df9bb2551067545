import Mathlib
import TreeSelectors.Proofs.Token.Normalizing

namespace TreeSelectors

/-!
# Comments keep tokens apart

In front of a slash or a blank every scan ends where it ends in front of
nothing, unless a backslash with nothing to escape is left: `step_stop`. A text
that is cut up without an error is therefore cut up alike in front of a comment
or of white space, `run_stop`, and what stands behind a comment is cut up as if
nothing were in front of it: `tokenize_comment_between`.
-/

open TreeSelectors.Text

namespace Lexer

/-- A scan that leaves some further text behind what it leaves. -/
def Scan.before {α : Type} (scan : Scan α) (more : List Char) : Scan α :=
  ⟨scan.outcome, scan.rest ++ more⟩

/-- Changing the value of a scan has nothing to do with what it leaves. -/
@[simp] theorem before_map
    {α β : Type}
    (transform : α → β)
    (scan : Scan α)
    (more : List Char) :
    (scan.map transform).before more = (scan.before more).map transform :=
  rfl

/-- The characters that end every token in front of them and that go on with none. -/
def endsTokens (char : Char) : Bool :=
  char == '/' || isBlank char

section LookingAhead

variable {text : List Char} {stop : Char} (stops : endsTokens stop = true)

include stops

/-- What ends a token neither starts a name nor is a digit nor a hyphen. -/
theorem notName_of_endsTokens :
    isNameStart stop = false ∧ stop.isDigit = false ∧ stop ≠ '-' := by
  have notName : isNameChar stop = false := by
    rcases Bool.or_eq_true _ _ ▸ stops with slash | blank
    · rw [beq_iff_eq.mp slash]
      decide
    · exact isNameChar_eq_false_of_isBlank blank
  simp only [isNameChar, Bool.or_eq_false_iff, beq_eq_false_iff_ne] at notName
  exact ⟨notName.1.1, notName.1.2, notName.2⟩

/-- Whether a closed text starts with an escape is not changed by what stands behind it. -/
theorem startsEscape_stop
    (closed : escapesClosed text = true)
    (tail : List Char) :
    startsEscape (text ++ stop :: tail) = startsEscape text := by
  cases text with
  | nil => exact startsEscape_of_ne_backslash (ne_of_holds stops (by decide)) tail
  | cons char rest =>
      by_cases backslash : char = '\\'
      · subst backslash
        cases rest with
        | nil => exact absurd closed (by decide)
        | cons escaped rest => rfl
      · rw [List.cons_append, startsEscape_of_ne_backslash backslash,
          startsEscape_of_ne_backslash backslash]

/--
Whether a closed text starts with a character of a name is not changed by what stands behind it.
-/
theorem startsNameChar_stop
    (closed : escapesClosed text = true)
    (tail : List Char) :
    startsNameChar (text ++ stop :: tail) = startsNameChar text := by
  cases text with
  | nil =>
      obtain ⟨notStart, notDigit, notHyphen⟩ := notName_of_endsTokens stops
      have noEscape : startsEscape (stop :: tail) = false :=
        startsEscape_of_ne_backslash (ne_of_holds stops (by decide)) tail
      simp [startsNameChar, isNameChar, notStart, notDigit, notHyphen, noEscape]
  | cons char rest =>
      have escape := startsEscape_stop stops closed tail
      rw [List.cons_append] at escape ⊢
      rw [startsNameChar, startsNameChar, escape]

/-- Whether a closed text starts with an identifier is not changed by what stands behind it. -/
theorem startsIdent_stop
    (closed : escapesClosed text = true)
    (tail : List Char) :
    startsIdent (text ++ stop :: tail) = startsIdent text := by
  obtain ⟨notStart, _, notHyphen⟩ := notName_of_endsTokens stops
  have noEscape : startsEscape (stop :: tail) = false :=
    startsEscape_of_ne_backslash (ne_of_holds stops (by decide)) tail
  cases text with
  | nil => simp [startsIdent, notStart, notHyphen, noEscape]
  | cons char rest =>
      have escape := startsEscape_stop stops closed tail
      by_cases hyphen : char = '-'
      · subst hyphen
        rw [escapesClosed_plain (by decide)] at closed
        have escapeBehind := startsEscape_stop stops closed tail
        cases rest with
        | nil =>
            have nothing : startsEscape [] = false := rfl
            simp [startsIdent, notStart, notHyphen, noEscape, nothing]
        | cons second rest =>
            rw [List.cons_append] at escapeBehind
            simp only [List.cons_append, startsIdent, beq_self_eq_true, if_true, escapeBehind]
      · rw [List.cons_append] at escape
        simp only [List.cons_append, startsIdent, beq_false_of_ne hyphen, Bool.false_eq_true,
          if_false, escape]

theorem startsDigit_stop
    (text tail : List Char) :
    startsDigit (text ++ stop :: tail) = startsDigit text := by
  cases text with
  | nil => exact (notName_of_endsTokens stops).2.1
  | cons char rest => rfl

/-- Whether a text starts with a number is not changed by a character that ends tokens. -/
theorem startsUnsignedNumber_stop
    (text tail : List Char) :
    startsUnsignedNumber (text ++ stop :: tail) = startsUnsignedNumber text := by
  cases text with
  | nil =>
      rw [List.nil_append, startsUnsignedNumber_cons (ne_of_holds stops (by decide))]
      exact startsDigit_stop stops [] tail
  | cons char rest =>
      by_cases point : char = '.'
      · subst point
        exact startsDigit_stop stops rest tail
      · rw [List.cons_append, startsUnsignedNumber_cons point, startsUnsignedNumber_cons point]

/-- A sign is cut off alike. -/
theorem splitSign_stop
    (text tail : List Char) :
    splitSign (text ++ stop :: tail) =
      ((splitSign text).1, (splitSign text).2 ++ stop :: tail) := by
  cases text with
  | nil =>
      have noPlus : stop ≠ '+' := ne_of_holds stops (by decide)
      have noMinus : stop ≠ '-' := ne_of_holds stops (by decide)
      simp [splitSign, noPlus, noMinus]
  | cons char rest =>
      by_cases plus : char = '+'
      · subst plus
        rfl
      · by_cases minus : char = '-'
        · subst minus
          rfl
        · simp [splitSign, plus, minus]

omit stops in
theorem startsNumber_eq
    (text : List Char) :
    startsNumber text = startsUnsignedNumber (splitSign text).2 := by
  unfold startsNumber splitSign
  split <;> rfl

/-- With or without a sign, a text starts with a number or does not, whatever ends it. -/
theorem startsNumber_stop
    (text tail : List Char) :
    startsNumber (text ++ stop :: tail) = startsNumber text := by
  rw [startsNumber_eq, startsNumber_eq, splitSign_stop stops, startsUnsignedNumber_stop stops]

end LookingAhead

section Scans

variable {text : List Char} {stop : Char}

/-- A string that is closed reads nothing of what stands behind it. -/
theorem scanString_append
    {quote : Char}
    {before value : List Char}
    (read : (scanString quote before text).outcome = .ok value)
    (more : List Char) :
    scanString quote before (text ++ more) = (scanString quote before text).before more := by
  induction before, text using scanString.induct quote with
  | case1 before =>
      simp [scanString] at read
  | case2 before char rest closing =>
      rw [List.cons_append, scanString.eq_def, scanString.eq_def quote before (char :: rest)]
      simp [closing, Scan.before]
  | case3 before char rest notClosing isBreak =>
      rw [scanString.eq_def] at read
      simp [notClosing, isBreak] at read
  | case4 before char notClosing notBreak backslash =>
      rw [scanString.eq_def] at read
      simp [notClosing, notBreak, backslash] at read
  | case5 before char notClosing notBreak backslash escaped rest isBreak inductionHypothesis =>
      rw [scanString.eq_def] at read ⊢
      rw [scanString.eq_def quote before (char :: escaped :: rest)]
      simp only [List.cons_append, notClosing, notBreak, backslash, isBreak, if_true,
        Bool.false_eq_true, if_false] at read ⊢
      exact inductionHypothesis read
  | case6 before char notClosing notBreak backslash escaped rest plainBreak inductionHypothesis =>
      rw [scanString.eq_def] at read ⊢
      rw [scanString.eq_def quote before (char :: escaped :: rest)]
      simp only [List.cons_append, notClosing, notBreak, backslash, plainBreak, if_true,
        Bool.false_eq_true, if_false] at read ⊢
      exact inductionHypothesis read
  | case7 before char rest notClosing notBreak notBackslash inductionHypothesis =>
      rw [scanString.eq_def] at read ⊢
      rw [scanString.eq_def quote before (char :: rest)]
      simp only [List.cons_append, notClosing, notBreak, notBackslash, Bool.false_eq_true,
        if_false] at read ⊢
      exact inductionHypothesis read

variable (stops : endsTokens stop = true)

include stops

/-- Digits are cut off alike, for a character that ends tokens is none. -/
theorem splitDigits_stop
    (text tail : List Char) :
    splitDigits (text ++ stop :: tail) =
      ((splitDigits text).1, (splitDigits text).2 ++ stop :: tail) := by
  induction text with
  | nil =>
      have notDigit := (notName_of_endsTokens stops).2.1
      simp [splitDigits, notDigit]
  | cons char rest inductionHypothesis =>
      simp only [splitDigits, List.cons_append, List.takeWhile_cons, List.dropWhile_cons,
        Prod.mk.injEq] at inductionHypothesis ⊢
      cases char.isDigit with
      | false => exact ⟨rfl, rfl⟩
      | true => exact ⟨congrArg (char :: ·) inductionHypothesis.1, inductionHypothesis.2⟩

/-- A fraction is cut off alike. -/
theorem splitFraction_stop
    (text tail : List Char) :
    splitFraction (text ++ stop :: tail) =
      ((splitFraction text).1, (splitFraction text).2 ++ stop :: tail) := by
  cases text with
  | nil =>
      have noPoint : stop ≠ '.' := ne_of_holds stops (by decide)
      simp [splitFraction, noPoint]
  | cons char rest =>
      by_cases point : char = '.'
      · subst point
        simp only [List.cons_append, splitFraction, startsDigit_stop stops, splitDigits_stop stops]
        split <;> rfl
      · simp [splitFraction, point]

/-- An exponent is cut off alike. -/
theorem splitExponent_stop
    (text tail : List Char) :
    splitExponent (text ++ stop :: tail) =
      ((splitExponent text).1, (splitExponent text).2 ++ stop :: tail) := by
  cases text with
  | nil =>
      have noMark : stop ≠ 'e' ∧ stop ≠ 'E' :=
        ⟨ne_of_holds stops (by decide), ne_of_holds stops (by decide)⟩
      simp [splitExponent, noMark]
  | cons mark rest =>
      simp only [List.cons_append, splitExponent, splitSign_stop stops, startsDigit_stop stops,
        splitDigits_stop stops]
      split <;> rfl

/-- A number is cut off alike. -/
theorem splitNumber_stop
    (text tail : List Char) :
    splitNumber (text ++ stop :: tail) =
      ((splitNumber text).1, (splitNumber text).2 ++ stop :: tail) := by
  simp only [splitNumber, splitSign_stop stops, splitDigits_stop stops, splitFraction_stop stops,
    splitExponent_stop stops]

/-- A name that is read ends where the character is that ends tokens. -/
theorem scanName_stop
    {name : List Char}
    (read : (scanName text).outcome = .ok name)
    (tail : List Char) :
    scanName (text ++ stop :: tail) = (scanName text).before (stop :: tail) := by
  induction text using scanName.induct generalizing name with
  | case1 =>
      obtain ⟨notStart, notDigit, notHyphen⟩ := notName_of_endsTokens stops
      have noBackslash : stop ≠ '\\' := ne_of_holds stops (by decide)
      exact scanName_of_endsName
        (by simp [endsName, isNameChar, notStart, notDigit, notHyphen, noBackslash])
  | case2 first rest nameChar inductionHypothesis =>
      rw [scanName_nameChar nameChar] at read
      obtain ⟨others, later, _⟩ := Scan.outcome_map_eq_ok.mp read
      rw [List.cons_append, scanName_nameChar nameChar, scanName_nameChar nameChar,
        inductionHypothesis later, before_map]
  | case3 first notName backslash =>
      simp [scanName_cons, notName, backslash] at read
  | case4 first notName backslash escaped rest isBreak =>
      simp [scanName_cons, notName, backslash, isBreak, Scan.before]
  | case5 first notName backslash escaped rest notBreak inductionHypothesis =>
      have noBreak : escaped ≠ '\n' := by
        simpa using notBreak
      rw [beq_iff_eq.mp backslash, scanName_escaped noBreak] at read ⊢
      obtain ⟨others, later, _⟩ := Scan.outcome_map_eq_ok.mp read
      rw [List.cons_append, List.cons_append, scanName_escaped noBreak, inductionHypothesis later,
        before_map]
  | case6 first rest notName notBackslash =>
      simp [scanName_cons, notName, notBackslash, Scan.before]

/-- A name or function is read alike before a character that ends tokens. -/
theorem scanIdentLike_stop
    {token : Token}
    (read : (scanIdentLike text).outcome = .ok token)
    (tail : List Char) :
    scanIdentLike (text ++ stop :: tail) = (scanIdentLike text).before (stop :: tail) := by
  have named := fun name => @scanName_stop text stop stops name
  unfold scanIdentLike at read ⊢
  cases scanned : scanName text with
  | mk outcome rest =>
      rw [scanned] at named read
      cases outcome with
      | error error => simp at read
      | ok name =>
          rw [named name rfl tail]
          by_cases parenthesis : rest.head? = some '('
          · obtain ⟨others, same⟩ := List.head?_eq_some_iff.mp parenthesis
            subst same
            rfl
          · cases rest with
            | nil =>
                have other : stop ≠ '(' := ne_of_holds stops (by decide)
                simp [Scan.before, other]
            | cons char others =>
                have other : char ≠ '(' := by
                  simpa using parenthesis
                simp [Scan.before, other]

/-- A name behind something else, which stands alone where no name starts. -/
theorem optionalName_stop
    {starts : Bool}
    {transform : List Char → Token}
    {alone token : Token}
    (read :
      (if starts then (scanName text).map transform else ⟨.ok alone, text⟩).outcome = .ok token)
    (tail : List Char) :
    (if starts then (scanName (text ++ stop :: tail)).map transform
      else ⟨.ok alone, text ++ stop :: tail⟩) =
        (if starts then (scanName text).map transform else ⟨.ok alone, text⟩).before
          (stop :: tail) := by
  cases starts with
  | false => rfl
  | true =>
      obtain ⟨name, scanned, _⟩ := Scan.outcome_map_eq_ok.mp read
      rw [if_pos rfl, if_pos rfl, scanName_stop stops scanned, before_map]

/-- A hash is read alike before a character that ends tokens. -/
theorem scanHash_stop
    (closed : escapesClosed text = true)
    {token : Token}
    (read : (scanHash text).outcome = .ok token)
    (tail : List Char) :
    scanHash (text ++ stop :: tail) = (scanHash text).before (stop :: tail) := by
  unfold scanHash at read ⊢
  rw [startsNameChar_stop stops closed, startsIdent_stop stops closed]
  exact optionalName_stop stops read tail

/-- An at-keyword is read alike before a character that ends tokens. -/
theorem scanAtKeyword_stop
    (closed : escapesClosed text = true)
    {token : Token}
    (read : (scanAtKeyword text).outcome = .ok token)
    (tail : List Char) :
    scanAtKeyword (text ++ stop :: tail) = (scanAtKeyword text).before (stop :: tail) := by
  unfold scanAtKeyword at read ⊢
  rw [startsIdent_stop stops closed]
  exact optionalName_stop stops read tail

/-- A number with its unit is read alike before a character that ends tokens. -/
theorem scanNumeric_stop
    (starts : startsNumber text = true)
    (closed : escapesClosed text = true)
    {token : Token}
    (read : (scanNumeric text).outcome = .ok token)
    (tail : List Char) :
    scanNumeric (text ++ stop :: tail) = (scanNumeric text).before (stop :: tail) := by
  have closedBehind : escapesClosed (splitNumber text).2 = true := by
    have taken := taken_isNumber (isNumber_splitNumber starts) (splitNumber text).2
    rw [splitNumber_append] at taken
    exact taken.closed ▸ closed
  simp only [scanNumeric, splitNumber_stop stops, startsIdent_stop stops closedBehind] at read ⊢
  exact optionalName_stop stops read tail

end Scans

section Comments

/-- Behind a character that neither hides the next one nor starts its end, a comment goes on. -/
theorem scanComment_plain
    {char : Char}
    {rest : List Char}
    (plain : char ≠ '\\')
    (notEnd : ¬ (char = '*' ∧ rest.head? = some '/')) :
    scanComment (char :: rest) = scanComment rest := by
  rw [scanComment]
  · intro others star same
    exact notEnd ⟨star, by rw [same]; rfl⟩
  · intro same
    exact absurd same plain
  · intro _ _ same
    exact absurd same plain

/-- The rest of a comment is read, whatever stands behind it. -/
theorem scanComment_of_commentText
    {text : List Char}
    (commentText : CommentText text)
    (rest : List Char) :
    scanComment (text ++ rest) = ⟨.ok (), rest⟩ := by
  induction commentText with
  | closed => rfl
  | hidden char _ inductionHypothesis =>
      rw [List.cons_append, List.cons_append, scanComment, inductionHypothesis]
  | @plain char text notBackslash notEnd commentText inductionHypothesis =>
      have same : (text ++ rest).head? = text.head? := by
        cases commentText <;> rfl
      rw [List.cons_append, scanComment_plain notBackslash (same ▸ notEnd), inductionHypothesis]

/-- A body without a backslash that does not end the comment, and the end behind it. -/
theorem commentText_of_body
    {body : List Char}
    (noBackslash : '\\' ∉ body)
    (noEnd : ¬ ['*', '/'] <:+: body) :
    CommentText (body ++ ['*', '/']) := by
  induction body with
  | nil => exact .closed
  | cons char body inductionHypothesis =>
      rw [List.mem_cons, not_or] at noBackslash
      have later := inductionHypothesis noBackslash.2 fun ends =>
        noEnd (ends.trans (List.suffix_cons char body).isInfix)
      refine .plain (Ne.symm noBackslash.1) ?_ later
      rintro ⟨star, slash⟩
      cases body with
      | nil => exact absurd slash (by decide)
      | cons second body =>
          have isSlash : second = '/' := Option.some.inj slash
          exact noEnd ⟨[], body, by rw [star, isSlash]; rfl⟩

/-- A comment that is closed reads nothing of what stands behind it. -/
theorem scanComment_append
    {text : List Char}
    {result : Unit}
    (read : (scanComment text).outcome = .ok result)
    (more : List Char) :
    scanComment (text ++ more) = (scanComment text).before more := by
  obtain ⟨front, shape, commentText⟩ := commentText_of_scanComment read
  have here := scanComment_of_commentText commentText (scanComment text).rest
  have there := scanComment_of_commentText commentText ((scanComment text).rest ++ more)
  rw [← List.append_assoc, ← shape] at there
  rw [← shape] at here
  rw [there, Scan.before, congrArg Scan.outcome here]

end Comments

section Runs

variable {char : Char} {rest text : List Char} {stop : Char}

/-- A blank stands apart from the last characters of a text, unless the last one is a blank. -/
def StandsApart (text : List Char) (stop : Char) : Prop :=
  isBlank stop = true → ∀ last ∈ text.getLast?, isBlank last = false

/-- What stands apart from a text stands apart from the end of it. -/
theorem StandsApart.suffix
    {behind : List Char}
    (apart : StandsApart text stop)
    (isSuffix : behind <:+ text) :
    StandsApart behind stop := by
  obtain ⟨front, shape⟩ := isSuffix
  intro blank last isLast
  refine apart blank last ?_
  rw [← shape, List.getLast?_append, isLast]
  rfl

variable (stops : endsTokens stop = true)

/-- A run of blanks ends where it did, for the character behind it is no blank. -/
theorem dropWhile_isBlank_stop
    (blank : isBlank char = true)
    (apart : StandsApart (char :: rest) stop)
    (tail : List Char) :
    (rest ++ stop :: tail).dropWhile isBlank = rest.dropWhile isBlank ++ stop :: tail := by
  rw [List.dropWhile_append]
  split
  · next nothing =>
      have allBlank : ∀ other ∈ char :: rest, isBlank other = true :=
        List.forall_mem_cons.mpr
          ⟨blank, List.dropWhile_eq_nil_iff.mp (List.isEmpty_iff.mp nothing)⟩
      have notBlank : ¬ isBlank stop = true := by
        intro isBlankStop
        have lastBlank := allBlank _ (List.getLast_mem (List.cons_ne_nil char rest))
        rw [apart isBlankStop _ (List.getLast?_eq_some_getLast _)] at lastBlank
        exact absurd lastBlank (by simp)
      rw [List.isEmpty_iff.mp nothing, List.nil_append]
      exact List.dropWhile_cons_of_neg notBlank
  · rfl

include stops

/-- A token is read alike before a character that stands apart from it. -/
theorem scanToken_stop
    (apart : StandsApart (char :: rest) stop)
    (closed : escapesClosed (char :: rest) = true)
    {token : Token}
    (read : (scanToken char rest).outcome = .ok token)
    (tail : List Char) :
    scanToken char (rest ++ stop :: tail) = (scanToken char rest).before (stop :: tail) := by
  have closedBehind : char ≠ '\\' → escapesClosed rest = true := by
    intro plain
    rw [← closed, escapesClosed_plain plain]
  have number := startsNumber_stop stops (char :: rest) tail
  have ident := startsIdent_stop stops closed tail
  have escape := startsEscape_stop stops closed tail
  rw [List.cons_append] at number ident escape
  unfold scanToken at read ⊢
  rw [number, ident, escape]
  by_cases blank : isBlank char = true
  · simp only [if_pos blank, dropWhile_isBlank_stop blank apart]
    rfl
  simp only [if_neg blank] at read ⊢
  by_cases quote : (char == doubleQuote || char == apostrophe) = true
  · simp only [if_pos quote] at read ⊢
    obtain ⟨value, scanned, _⟩ := Scan.outcome_map_eq_ok.mp read
    rw [scanString_append scanned, before_map]
  simp only [if_neg quote] at read ⊢
  by_cases hash : (char == '#') = true
  · simp only [if_pos hash] at read ⊢
    exact scanHash_stop stops (closedBehind (by rw [beq_iff_eq.mp hash]; decide)) read tail
  simp only [if_neg hash] at read ⊢
  by_cases atSign : (char == '@') = true
  · simp only [if_pos atSign] at read ⊢
    exact scanAtKeyword_stop stops (closedBehind (by rw [beq_iff_eq.mp atSign]; decide)) read tail
  simp only [if_neg atSign] at read ⊢
  by_cases backslash : (char == '\\') = true
  · by_cases starts : startsEscape (char :: rest) = true
    · simp only [if_pos backslash, if_pos starts] at read ⊢
      exact scanIdentLike_stop stops read tail
    · simp only [if_pos backslash, if_neg starts] at read
      cases read
  simp only [if_neg backslash] at read ⊢
  by_cases numeric : startsNumber (char :: rest) = true
  · simp only [if_pos numeric] at read ⊢
    exact scanNumeric_stop stops numeric closed read tail
  simp only [if_neg numeric] at read ⊢
  by_cases named : startsIdent (char :: rest) = true
  · simp only [if_pos named] at read ⊢
    exact scanIdentLike_stop stops read tail
  simp only [if_neg named]
  cases punctuation? char with
  | none => rfl
  | some token => rfl

/-- In front of a character that ends tokens a step reads what it reads in front of nothing. -/
theorem step_stop
    (apart : StandsApart (char :: rest) stop)
    (closed : escapesClosed (char :: rest) = true)
    {token? : Option Token}
    (read : (step char rest).outcome = .ok token?)
    (tail : List Char) :
    step char (rest ++ stop :: tail) = (step char rest).before (stop :: tail) := by
  by_cases comment : char = '/' ∧ rest.head? = some '*'
  · obtain ⟨slash, star⟩ := comment
    obtain ⟨body, shape⟩ := List.head?_eq_some_iff.mp star
    subst slash
    subst shape
    obtain ⟨_, scanned, _⟩ := Scan.outcome_map_eq_ok.mp read
    show (scanComment (body ++ stop :: tail)).map _ = _
    rw [scanComment_append scanned, ← before_map]
    rfl
  · have token : ∀ {rest : List Char}, ¬ (char = '/' ∧ rest.head? = some '*') →
        step char rest = (scanToken char rest).map some := by
      intro rest notComment
      unfold step
      split
      · next body => exact absurd ⟨rfl, rfl⟩ notComment
      · rfl
    have notBehind : ¬ (char = '/' ∧ (rest ++ stop :: tail).head? = some '*') := by
      cases rest with
      | nil =>
          have noStar : stop ≠ '*' := ne_of_holds stops (by decide)
          simp [noStar]
      | cons second rest => exact comment
    rw [token comment] at read ⊢
    obtain ⟨_, scanned, _⟩ := Scan.outcome_map_eq_ok.mp read
    rw [token notBehind, scanToken_stop stops apart closed scanned, before_map]

/-- A text that is cut up without an error is cut up alike in front of what ends its tokens. -/
theorem run_stop
    (apart : StandsApart text stop)
    (noError : (run text).error? = none)
    (tail : List Char) :
    run (text ++ stop :: tail) =
      ⟨(run text).tokens ++ (run (stop :: tail)).tokens, (run (stop :: tail)).error?,
        (run (stop :: tail)).rest⟩ := by
  induction text using run.induct with
  | case1 =>
      rw [run_nil]
      rfl
  | case2 char rest token? read inductionHypothesis =>
      have whole := step_stop stops apart (Scanned.ofRun noError).closed read tail
      have behind := apart.suffix
        ((step_rest_suffix char rest).trans (List.suffix_cons char rest))
      rw [run_cons, read] at noError ⊢
      have later : (run (step char rest).rest).error? = none := by
        cases token? with
        | none => exact noError
        | some token => exact noError
      rw [List.cons_append, run_cons, whole, Scan.before, read]
      simp only [inductionHypothesis behind later]
      cases token? with
      | none => rfl
      | some token => rfl
  | case3 char rest error read =>
      rw [run_cons, read] at noError
      exact absurd noError (by simp)

omit stops in
/-- Behind a comment a text is cut up as if nothing stood in front of it. -/
theorem run_comment
    {text : List Char}
    (commentText : CommentText text)
    (behind : List Char) :
    run ('/' :: '*' :: (text ++ behind)) = run behind := by
  have read : step '/' ('*' :: (text ++ behind)) = ⟨.ok none, behind⟩ := by
    show (scanComment (text ++ behind)).map _ = _
    rw [scanComment_of_commentText commentText]
    rfl
  rw [run_cons, read]
  rfl

end Runs

section Texts

/-- Line breaks are unified apart in two texts, unless one is made of the ends of both. -/
theorem unifyBreaks_append
    (left : List Char)
    {right : List Char}
    (apart : left.getLast? = some '\r' → right.head? ≠ some '\n') :
    unifyBreaks (left ++ right) = unifyBreaks left ++ unifyBreaks right := by
  have ends : ∀ (front : List Char) {rest : List Char} {last : Char},
      rest.getLast? = some last → (front ++ rest).getLast? = some last := by
    intro front rest last isLast
    rw [List.getLast?_append, isLast]
    rfl
  induction left using unifyBreaks.induct with
  | case1 => rfl
  | case2 rest inductionHypothesis =>
      have later := inductionHypothesis fun last => apart (ends ['\r', '\n'] last)
      simp only [List.cons_append, unifyBreaks, later]
  | case3 rest noFeed inductionHypothesis =>
      have later := inductionHypothesis fun last => apart (ends ['\r'] last)
      have noFeedBehind : ∀ others, rest ++ right ≠ '\n' :: others := by
        intro others same
        cases rest with
        | nil =>
            rw [List.nil_append] at same
            exact apart rfl (by rw [same]; rfl)
        | cons first rest =>
            exact noFeed rest (by rw [(List.cons.inj same).1])
      rw [List.cons_append, unifyBreaks, unifyBreaks, later, List.cons_append]
      · exact noFeed
      · exact noFeedBehind
  | case4 rest inductionHypothesis =>
      have later := inductionHypothesis fun last => apart (ends ['\x0C'] last)
      simp only [List.cons_append, unifyBreaks, later]
  | case5 rest inductionHypothesis =>
      have later := inductionHypothesis fun last => apart (ends ['\x00'] last)
      simp only [List.cons_append, unifyBreaks, later]
  | case6 char rest notPair notReturn notFeed notNull inductionHypothesis =>
      have later := inductionHypothesis fun last => apart (ends [char] last)
      rw [List.cons_append, unifyBreaks, unifyBreaks, later, List.cons_append]
      · exact notPair
      · exact notReturn
      · exact notFeed
      · exact notNull
      · exact fun _ same => absurd same notReturn
      · exact notReturn
      · exact notFeed
      · exact notNull

/-- A text that normalising keeps has unified line breaks. -/
theorem unified_of_normalize
    {text : List Char}
    (kept : normalize text = text) :
    Unified text := by
  rw [← kept]
  exact unified_unifyBreaks _

/-- Between texts that are normalised, only the body of a comment changes. -/
theorem normalize_between
    {before behind : List Char}
    (beforeKept : normalize before = before)
    (behindKept : normalize behind = behind)
    (body : List Char) :
    normalize (before ++ '/' :: '*' :: (body ++ '*' :: '/' :: behind)) =
      before ++ '/' :: '*' :: (unifyBreaks body ++ '*' :: '/' :: behind) := by
  have beforeTrimmed : Trimmed before := beforeKept ▸ trimmed_normalize before
  have behindTrimmed : Trimmed behind := behindKept ▸ trimmed_normalize behind
  have trimmed : Trimmed (before ++ '/' :: '*' :: (body ++ '*' :: '/' :: behind)) := by
    have comment : Trimmed ('*' :: (body ++ ['*'])) := by
      refine ⟨fun char first => ?_, fun char last => ?_⟩
      · rw [← Option.some.inj first]
        decide
      · rw [← List.cons_append, List.getLast?_concat] at last
        rw [← Option.some.inj last]
        decide
    have slash : isWhiteSpace '/' = false := by
      decide
    simpa using beforeTrimmed.between (comment.between behindTrimmed slash) slash
  rw [normalize, trim_eq_self_iff.mpr trimmed,
    unifyBreaks_append before (by simp), unifyBreaks_of_unified (unified_of_normalize beforeKept)]
  have opening : unifyBreaks ('/' :: '*' :: (body ++ '*' :: '/' :: behind)) =
      '/' :: '*' :: unifyBreaks (body ++ '*' :: '/' :: behind) := by
    simp [unifyBreaks]
  have closing : unifyBreaks ('*' :: '/' :: behind) = '*' :: '/' :: behind := by
    simp [unifyBreaks, unifyBreaks_of_unified (unified_of_normalize behindKept)]
  rw [opening, unifyBreaks_append body (by simp), closing]

end Texts

end Lexer

open Lexer

/-- A comment between two texts keeps their tokens apart and adds none. -/
theorem tokenize_comment_between
    {before behind body : String}
    {left right : List Token}
    (beforeKept : normalize before.toList = before.toList)
    (behindKept : normalize behind.toList = behind.toList)
    (beforeRead : tokenize before = .ok left)
    (behindRead : tokenize behind = .ok right)
    (noEnd : ¬ ['*', '/'] <:+: body.toList)
    (noBackslash : '\\' ∉ body.toList) :
    tokenize (before ++ "/*" ++ body ++ "*/" ++ behind) = .ok (left ++ right) := by
  rw [tokenize_eq_ok_iff, beforeKept] at beforeRead
  rw [tokenize_eq_ok_iff, behindKept] at behindRead
  have comment : CommentText (unifyBreaks body.toList ++ ['*', '/']) := by
    refine commentText_of_body ?_ (noPair_unifyBreaks (by decide) noEnd)
    intro member
    rcases mem_unifyBreaks _ _ member with inBody | feed | replaced
    · exact noBackslash inBody
    · exact absurd feed (by decide)
    · exact absurd replaced (by decide)
  have whole : (before ++ "/*" ++ body ++ "*/" ++ behind).toList =
      before.toList ++ '/' :: '*' :: (body.toList ++ '*' :: '/' :: behind.toList) := by
    simp
  have between := run_comment comment behind.toList
  simp only [List.append_assoc, List.cons_append, List.nil_append] at between
  rw [tokenize_eq_ok_iff, whole, normalize_between beforeKept behindKept,
    run_stop (by decide) (fun blank => absurd blank (by decide)) (by rw [beforeRead]), between,
    beforeRead, behindRead]

/-- A `#` that would have the number behind it for its name, and the start of a comment in one. -/
theorem tokenize_comment_between_name :
    normalize "a#".toList = "a#".toList ∧
      normalize "-1 b/".toList = "-1 b/".toList ∧
      tokenize "a#" = .ok [.ident "a", .delim '#'] ∧
      tokenize "-1 b/" = .ok [.number ⟨"-1"⟩, .whitespace, .ident "b", .delim '/'] ∧
      (¬ ['*', '/'] <:+: "/*\r".toList) ∧
      '\\' ∉ "/*\r".toList ∧
      tokenize ("a#" ++ "/*" ++ "/*\r" ++ "*/" ++ "-1 b/") =
        .ok ([.ident "a", .delim '#'] ++
          [.number ⟨"-1"⟩, .whitespace, .ident "b", .delim '/']) := by
  have beforeKept : normalize "a#".toList = "a#".toList := by
    cbv
  have behindKept : normalize "-1 b/".toList = "-1 b/".toList := by
    cbv
  have beforeRead : tokenize "a#" = .ok [.ident "a", .delim '#'] := by
    cbv
  have behindRead : tokenize "-1 b/" =
      .ok [.number ⟨"-1"⟩, .whitespace, .ident "b", .delim '/'] := by
    cbv
  have noEnd : ¬ ['*', '/'] <:+: "/*\r".toList := by
    decide
  have noBackslash : '\\' ∉ "/*\r".toList := by
    decide
  exact ⟨beforeKept, behindKept, beforeRead, behindRead, noEnd, noBackslash,
    tokenize_comment_between beforeKept behindKept beforeRead behindRead noEnd noBackslash⟩

end TreeSelectors
