import Mathlib
import TreeSelectors.Proofs.Token.Modes
import TreeSelectors.Proofs.Token.Separation

namespace TreeSelectors

/-!
# What trimming a text changes

Before a text is cut into tokens, Unicode white space at its ends is dropped.
The scans take only three of its characters for blanks: the others are part of
names, or tokens of their own. And a backslash at the end has lost the space
that it escapes. Trimming keeps the tokens of a text, apart from blanks at the
ends, exactly if neither is the case: `trimKeeps_iff`.
-/

open TreeSelectors.Text

namespace Lexer

section Texts

variable {text : List Char}

/-- Where nothing but white space is trimmed, it is trimmed at the front. -/
theorem trailingSpace_eq_nil
    (nothing : trim text = []) :
    trailingSpace text = [] := by
  have allWhite : ∀ char ∈ text.dropWhile isWhiteSpace, isWhiteSpace char = true := by
    have dropped := List.reverse_eq_nil_iff.mp nothing
    exact fun char member => List.dropWhile_eq_nil_iff.mp dropped char (List.mem_reverse.mpr member)
  have front : text.dropWhile isWhiteSpace = [] := by
    rw [← List.dropWhile_idempotent isWhiteSpace text]
    exact List.dropWhile_eq_nil_iff.mpr allWhite
  rw [trailingSpace, front]
  rfl

/-- White space stays white space when line breaks are unified. -/
theorem isWhiteSpace_of_unifyBreaks
    (allWhite : ∀ char ∈ text, isWhiteSpace char = true) :
    ∀ char ∈ unifyBreaks text, isWhiteSpace char = true := by
  revert allWhite
  refine unifyBreaks_induction (motive := fun text unified =>
    (∀ char ∈ text, isWhiteSpace char = true) →
      ∀ char ∈ unified, isWhiteSpace char = true)
    ?_ ?_ ?_ text
  · exact fun _ => List.forall_mem_nil _
  · intro first rest later allWhite
    obtain ⟨head, tail⟩ := List.forall_mem_cons.mp allWhite
    exact List.forall_mem_cons.mpr ⟨head, later tail⟩
  · intro entry isEntry rest later allWhite
    have known : ∀ entry ∈ replacements, entry.1.all isWhiteSpace = true →
        isWhiteSpace entry.2 = true := by
      decide
    obtain ⟨front, behind⟩ := List.forall_mem_append.mp allWhite
    exact List.forall_mem_cons.mpr
      ⟨known entry isEntry (List.all_eq_true.mpr front), later behind⟩

/-- A text whose line breaks are unified but which is not trimmed. -/
theorem unifyBreaks_eq
    (text : List Char) :
    unifyBreaks text =
      unifyBreaks (leadingSpace text) ++ (normalize text ++ unifyBreaks (trailingSpace text)) := by
  obtain ⟨first, last⟩ := trim_edges text
  have inner : unifyBreaks (trim text ++ trailingSpace text) =
      normalize text ++ unifyBreaks (trailingSpace text) := by
    refine unifyBreaks_append _ fun isReturn => ?_
    exact absurd (last _ isReturn) (by decide)
  have outer : unifyBreaks (leadingSpace text ++ (trim text ++ trailingSpace text)) =
      unifyBreaks (leadingSpace text) ++ unifyBreaks (trim text ++ trailingSpace text) := by
    refine unifyBreaks_append _ fun _ isFeed => ?_
    cases shape : trim text with
    | nil =>
        rw [shape, trailingSpace_eq_nil shape] at isFeed
        cases isFeed
    | cons char rest =>
        rw [shape] at isFeed first
        exact absurd (first char rfl) (by rw [Option.some.inj isFeed]; decide)
  rw [← inner, ← outer, ← List.append_assoc, leadingSpace_append]

end Texts

section Blanks

variable {blanks text : List Char}

/-- Blanks in front of a text are one token, if there are any. -/
theorem run_blanks_append
    (areBlanks : ∀ char ∈ blanks, isBlank char = true)
    (firm : ∀ char ∈ text.head?, isBlank char = false) :
    run (blanks ++ text) =
      ⟨(if blanks = [] then [] else [.whitespace]) ++ (run text).tokens, (run text).error?,
        (run text).rest⟩ := by
  cases blanks with
  | nil => rfl
  | cons blank blanks =>
      obtain ⟨head, tail⟩ := List.forall_mem_cons.mp areBlanks
      have stops : text.dropWhile isBlank = text := by
        cases text with
        | nil => rfl
        | cons char text => exact List.dropWhile_cons_of_neg (by simp [firm char rfl])
      have read : step blank (blanks ++ text) = ⟨.ok (some .whitespace), text⟩ := by
        rw [step_of_ne_slash (ne_of_holds head (by decide)), scanToken, if_pos head,
          List.dropWhile_append_of_pos tail, stops]
        rfl
      rw [List.cons_append, run_cons, read]
      rfl

/-- Blanks behind a text are one token, if there are any. -/
theorem run_append_blanks
    (areBlanks : ∀ char ∈ blanks, isBlank char = true)
    (firm : ∀ char ∈ text.getLast?, isBlank char = false)
    (noError : (run text).error? = none) :
    run (text ++ blanks) =
      ⟨(run text).tokens ++ (if blanks = [] then [] else [.whitespace]), none, []⟩ := by
  cases blanks with
  | nil =>
      rw [List.append_nil, if_pos rfl, List.append_nil, ← noError,
        ← rest_run_of_noError noError]
  | cons blank blanks =>
      have head := (List.forall_mem_cons.mp areBlanks).1
      have stops : endsTokens blank = true := by
        simp [endsTokens, head]
      have alone : run (blank :: blanks ++ []) = ⟨[.whitespace] ++ [], none, []⟩ := by
        rw [run_blanks_append areBlanks fun _ isFirst => absurd isFirst (by simp), run_nil]
        rfl
      rw [List.append_nil, List.append_nil] at alone
      rw [run_stop stops (fun _ => firm) noError, alone]
      rfl

end Blanks

section Modes

/-- White space leaves open what is open. -/
def Mode.isStuck : Mode → Bool
  | .outside | .slash | .escape => false
  | .string quote => quote == doubleQuote || quote == apostrophe
  | .stringEscape quote => quote == doubleQuote || quote == apostrophe
  | .comment | .star | .commentEscape | .failed => true

variable {mode : Mode} {char : Char} {text : List Char}

/-- White space enters nothing. -/
theorem enter_of_isWhiteSpace
    (white : isWhiteSpace char = true) :
    Mode.enter char = .outside :=
  enter_eq_outside_iff.mpr ⟨ne_of_holds white (by decide), ne_of_holds white (by decide),
    ne_of_holds white (by decide), ne_of_holds white (by decide)⟩

/-- White space passes as it stands. -/
theorem passes_white
    (allWhite : ∀ char ∈ text, isWhiteSpace char = true) :
    Passes text text .outside :=
  Passes.plain fun char member => enter_of_isWhiteSpace (allWhite char member)

/-- What white space cannot close stays so behind one more of it. -/
theorem isStuck_next
    (stuck : mode.isStuck = true)
    (white : isWhiteSpace char = true) :
    (mode.next char).isStuck = true := by
  have noStar : char ≠ '*' := ne_of_holds white (by decide)
  have noSlash : char ≠ '/' := ne_of_holds white (by decide)
  have noBackslash : char ≠ '\\' := ne_of_holds white (by decide)
  cases mode with
  | string quote =>
      have isQuote : quote = doubleQuote ∨ quote = apostrophe := by
        simpa [Mode.isStuck] using stuck
      have noQuote : char ≠ quote := by
        rcases isQuote with same | same <;> rw [same] <;> exact ne_of_holds white (by decide)
      simp only [Mode.next, beq_false_of_ne noQuote, beq_false_of_ne noBackslash,
        Bool.false_eq_true, if_false]
      split
      · rfl
      · exact stuck
  | stringEscape quote => exact stuck
  | comment => simp [Mode.next, noStar, noBackslash, Mode.isStuck]
  | star => simp [Mode.next, noStar, noSlash, noBackslash, Mode.isStuck]
  | commentEscape => rfl
  | failed => rfl
  | _ => cases stuck

/-- What white space cannot close stays so behind any number of them. -/
theorem isStuck_after
    (stuck : mode.isStuck = true)
    (allWhite : ∀ char ∈ text, isWhiteSpace char = true) :
    (mode.after text).isStuck = true := by
  induction text generalizing mode with
  | nil => exact stuck
  | cons char text inductionHypothesis =>
      obtain ⟨head, tail⟩ := List.forall_mem_cons.mp allWhite
      exact inductionHypothesis (isStuck_next stuck head) tail

/-- Nothing is open, or an escape is, or something that white space leaves open. -/
def Mode.IsSound (mode : Mode) : Prop :=
  mode.isCalm = true ∨ mode = .escape ∨ mode.isStuck = true

/-- What a character enters is sound: strings are opened by quotes only. -/
theorem isSound_enter
    (char : Char) :
    (Mode.enter char).IsSound := by
  unfold Mode.enter
  split
  · exact Or.inl rfl
  · split
    · exact Or.inr (Or.inl rfl)
    · split
      · next quote => exact Or.inr (Or.inr quote)
      · exact Or.inl rfl

/-- One more character keeps the mode sound. -/
theorem isSound_next
    (sound : mode.IsSound)
    (char : Char) :
    (mode.next char).IsSound := by
  cases mode with
  | outside => exact isSound_enter char
  | slash =>
      rw [Mode.next]
      split
      · exact Or.inr (Or.inr rfl)
      · exact isSound_enter char
  | escape =>
      rw [Mode.next]
      split
      · exact Or.inr (Or.inr rfl)
      · exact Or.inl rfl
  | string quote =>
      rcases sound with calm | escape | stuck
      · cases calm
      · cases escape
      · simp only [Mode.next]
        split
        · exact Or.inl rfl
        · split
          · exact Or.inr (Or.inr rfl)
          · split
            · exact Or.inr (Or.inr stuck)
            · exact Or.inr (Or.inr stuck)
  | stringEscape quote =>
      rcases sound with calm | escape | stuck
      · cases calm
      · cases escape
      · exact Or.inr (Or.inr stuck)
  | comment =>
      rw [Mode.next]
      split
      · exact Or.inr (Or.inr rfl)
      · split <;> exact Or.inr (Or.inr rfl)
  | star =>
      rw [Mode.next]
      split
      · exact Or.inl rfl
      · split
        · exact Or.inr (Or.inr rfl)
        · split <;> exact Or.inr (Or.inr rfl)
  | commentEscape => exact Or.inr (Or.inr rfl)
  | failed => exact Or.inr (Or.inr rfl)

/-- A whole text keeps the mode sound. -/
theorem isSound_after
    (sound : mode.IsSound)
    (text : List Char) :
    (mode.after text).IsSound := by
  induction text generalizing mode with
  | nil => exact sound
  | cons char text inductionHypothesis => exact inductionHypothesis (isSound_next sound char)

/-- Only a backslash enters an escape. -/
theorem enter_eq_escape_iff :
    Mode.enter char = .escape ↔ char = '\\' := by
  unfold Mode.enter
  split
  · next slash => simp [beq_iff_eq.mp slash]
  · split
    · next backslash => simp [beq_iff_eq.mp backslash]
    · next backslash =>
        have noBackslash : char ≠ '\\' := by
          simpa using backslash
        split
        · simp [noBackslash]
        · simp [noBackslash]

/-- An escape is entered by a backslash where nothing is open. -/
theorem next_eq_escape_iff :
    mode.next char = .escape ↔ mode.isCalm = true ∧ char = '\\' := by
  cases mode with
  | outside =>
      show Mode.enter char = .escape ↔ _
      simp [enter_eq_escape_iff, Mode.isCalm]
  | slash =>
      rw [Mode.next]
      split
      · next star => simp [beq_iff_eq.mp star]
      · simp [enter_eq_escape_iff, Mode.isCalm]
  | stringEscape quote => simp [Mode.next, Mode.isCalm]
  | commentEscape => simp [Mode.next, Mode.isCalm]
  | failed => simp [Mode.next, Mode.isCalm]
  | _ =>
      simp only [Mode.next, Mode.isCalm, Bool.false_eq_true, false_and, iff_false]
      repeat' split
      all_goals simp

/-- An escape is left open exactly by a backslash behind a text that leaves nothing open. -/
theorem after_eq_escape_iff :
    Mode.outside.after text = .escape ↔
      ∃ body, text = body ++ ['\\'] ∧ (run body).error? = none := by
  induction text using List.reverseRecOn with
  | nil =>
      constructor
      · intro escape
        cases escape
      · rintro ⟨body, shape, _⟩
        exact absurd shape (by simp)
  | append_singleton body char _ =>
      rw [Mode.after_append, Mode.after_cons, Mode.after_nil, next_eq_escape_iff,
        ← run_error?_eq_none_iff]
      constructor
      · rintro ⟨noError, backslash⟩
        exact ⟨body, by rw [backslash], noError⟩
      · rintro ⟨other, same, noError⟩
        obtain ⟨sameBody, sameChar⟩ := List.append_inj' same rfl
        exact ⟨sameBody ▸ noError, List.head_eq_of_cons_eq sameChar⟩

/-- In front of white space a mode with nothing open is as good as the start of a text. -/
theorem left_of_isCalm
    (calm : mode.isCalm = true)
    (allWhite : ∀ char ∈ text, isWhiteSpace char = true) :
    mode = .outside ∨ mode = .slash ∧ text.head? ≠ some '*' := by
  cases mode with
  | outside => exact Or.inl rfl
  | slash =>
      refine Or.inr ⟨rfl, fun star => ?_⟩
      have white := allWhite '*' (List.mem_of_head? star)
      exact absurd white (by decide)
  | _ => cases calm

/-- White space completes nothing but an escape. -/
theorem isCalm_after_iff
    (sound : mode.IsSound)
    (allWhite : ∀ char ∈ text, isWhiteSpace char = true) :
    (mode.after text).isCalm = true ↔
      mode.isCalm = true ∨ mode = .escape ∧ ∃ char ∈ text.head?, char ≠ '\n' := by
  rcases sound with calm | escape | stuck
  · have left := left_of_isCalm calm allWhite
    rw [(after_eq_of_left left).1, (passes_white allWhite).ends]
    exact ⟨fun _ => Or.inl calm, fun _ => rfl⟩
  · subst escape
    cases text with
    | nil => simp [Mode.isCalm]
    | cons char text =>
        have tail := (List.forall_mem_cons.mp allWhite).2
        by_cases isBreak : char = '\n'
        · rw [isBreak, Mode.after_cons]
          show (Mode.failed.after text).isCalm = true ↔ _
          rw [Mode.after_failed]
          simp [Mode.isCalm]
        · have completes : Mode.escape.next char = .outside := by
            simp [Mode.next, isBreak]
          rw [Mode.after_cons, completes, (passes_white tail).ends]
          simp [Mode.isCalm, isBreak]
  · have stillStuck := isStuck_after stuck allWhite
    constructor
    · intro calm
      generalize mode.after text = final at stillStuck calm
      cases final with
      | outside => cases stillStuck
      | slash => cases stillStuck
      | _ => cases calm
    · rintro (calm | ⟨escape, _⟩)
      · cases mode with
        | outside => cases stuck
        | slash => cases stuck
        | _ => cases calm
      · rw [escape] at stuck
        cases stuck

end Modes

section Ends

/-- Tokens without the blanks at their ends. -/
def withoutOuterBlanks (tokens : List Token) : List Token :=
  (tokens.dropWhile Token.isWhitespace).rdropWhile Token.isWhitespace

variable {tokens : List Token}

theorem withoutOuterBlanks_cons
    (tokens : List Token) :
    withoutOuterBlanks (.whitespace :: tokens) = withoutOuterBlanks tokens :=
  rfl

theorem withoutOuterBlanks_append
    (tokens : List Token) :
    withoutOuterBlanks (tokens ++ [.whitespace]) = withoutOuterBlanks tokens := by
  unfold withoutOuterBlanks
  rw [List.dropWhile_append]
  split
  · next nothing =>
      rw [List.isEmpty_iff.mp nothing]
      rfl
  · exact List.rdropWhile_concat_pos _ _ _ rfl

/-- The contents of two rows of tokens stand one behind the other. -/
theorem contents_append
    (left right : List Token) :
    contents (left ++ right) = contents left ++ contents right :=
  List.flatMap_append

/-- Blanks keep nothing of a text. -/
theorem contents_of_isWhitespace
    (blanks : ∀ token ∈ tokens, token.isWhitespace = true) :
    contents tokens = [] := by
  refine List.flatMap_eq_nil_iff.mpr fun token member => ?_
  have blank := blanks token member
  cases token with
  | whitespace => rfl
  | _ => cases blank

/-- Blanks at the ends add nothing to the contents. -/
theorem contents_withoutOuterBlanks
    (tokens : List Token) :
    contents (withoutOuterBlanks tokens) = contents tokens := by
  have front : contents (tokens.dropWhile Token.isWhitespace) = contents tokens := by
    have whole := congrArg contents (List.takeWhile_append_dropWhile
      (p := Token.isWhitespace) (l := tokens))
    rw [contents_append, contents_of_isWhitespace, List.nil_append] at whole
    · exact whole
    · exact fun token member => List.all_eq_true.mp List.all_takeWhile token member
  have back := congrArg contents (List.rdropWhile_append_rtakeWhile
    (p := Token.isWhitespace) (l := tokens.dropWhile Token.isWhitespace))
  rw [contents_append, contents_of_isWhitespace fun token => List.mem_rtakeWhile_imp,
    List.append_nil] at back
  exact back.trans front

end Ends

section Untrimmed

variable {leading core trailing : List Char}
  (leadingWhite : ∀ char ∈ leading, isWhiteSpace char = true)
  (trailingWhite : ∀ char ∈ trailing, isWhiteSpace char = true)

include leadingWhite trailingWhite

/-- White space around a text only completes the escape that the text leaves open. -/
theorem run_untrimmed_error?_eq_none_iff :
    (run (leading ++ (core ++ trailing))).error? = none ↔
      (run core).error? = none ∨
        Mode.outside.after core = .escape ∧ ∃ char ∈ trailing.head?, char ≠ '\n' := by
  rw [run_error?_eq_none_iff, run_error?_eq_none_iff, Mode.after_append,
    (passes_white leadingWhite).ends, Mode.after_append]
  exact isCalm_after_iff (isSound_after (Or.inl rfl) core) trailingWhite

/-- Odd white space around a text is kept. -/
theorem filter_contents_untrimmed
    (noError : (run core).error? = none) :
    (contents (run (leading ++ (core ++ trailing))).tokens).filter isOddSpace =
      leading.filter isOddSpace ++ ((contents (run core).tokens).filter isOddSpace ++
        trailing.filter isOddSpace) := by
  have wholeNoError := (run_untrimmed_error?_eq_none_iff leadingWhite trailingWhite).mpr
    (Or.inl noError)
  have left := left_of_isCalm (run_error?_eq_none_iff.mp noError) trailingWhite
  rw [filter_contents_run wholeNoError, filter_contents_run noError, Mode.exposed_append,
    (passes_white leadingWhite).ends, Mode.exposed_append, (after_eq_of_left left).2,
    List.filter_append, List.filter_append, (passes_white leadingWhite).keeps,
    (passes_white trailingWhite).keeps]

/-- A text that keeps what a trimmed one does has only blanks around it. -/
theorem isBlank_of_contents_untrimmed
    (noError : (run core).error? = none)
    (same : contents (run (leading ++ (core ++ trailing))).tokens = contents (run core).tokens) :
    ∀ char ∈ leading ++ trailing, isBlank char = true := by
  have sum := filter_contents_untrimmed leadingWhite trailingWhite noError
  rw [same] at sum
  have noOdd : (leading ++ trailing).filter isOddSpace = [] := by
    have lengths := congrArg List.length sum
    rw [List.length_append, List.length_append] at lengths
    rw [List.filter_append, ← List.length_eq_zero_iff, List.length_append]
    omega
  intro char member
  have notOdd := List.filter_eq_nil_iff.mp noOdd char member
  have white := List.forall_mem_append.mpr ⟨leadingWhite, trailingWhite⟩ char member
  simpa [isOddSpace, white] using notOdd

omit leadingWhite trailingWhite in
/-- Blanks around a text are blanks around its tokens. -/
theorem tokens_untrimmed
    (trimmed : Trimmed core)
    (nothing : core = [] → trailing = [])
    (leadingBlank : ∀ char ∈ leading, isBlank char = true)
    (trailingBlank : ∀ char ∈ trailing, isBlank char = true)
    (noError : (run core).error? = none) :
    withoutOuterBlanks (run (leading ++ (core ++ trailing))).tokens =
      withoutOuterBlanks (run core).tokens := by
  have firm : ∀ {char : Char}, isWhiteSpace char = false → isBlank char = false := by
    intro char notWhite
    rw [Bool.eq_false_iff]
    intro blank
    rw [isWhiteSpace_of_isBlank blank] at notWhite
    cases notWhite
  have first : ∀ char ∈ (core ++ trailing).head?, isBlank char = false := by
    intro char isFirst
    cases core with
    | nil =>
        rw [nothing rfl] at isFirst
        cases isFirst
    | cons head core => exact firm (trimmed.first char isFirst)
  rw [run_blanks_append leadingBlank first,
    run_append_blanks trailingBlank (fun char isLast => firm (trimmed.last char isLast)) noError]
  have front : ∀ tokens,
      withoutOuterBlanks ((if leading = [] then [] else [.whitespace]) ++ tokens) =
        withoutOuterBlanks tokens := by
    intro tokens
    split
    · rfl
    · exact withoutOuterBlanks_cons tokens
  have back : ∀ tokens,
      withoutOuterBlanks (tokens ++ (if trailing = [] then [] else [.whitespace])) =
        withoutOuterBlanks tokens := by
    intro tokens
    split
    · rw [List.append_nil]
    · exact withoutOuterBlanks_append tokens
  rw [front, back]

end Untrimmed

section Trimming

/--
Trimming changes neither whether a text can be cut into tokens nor, but for blanks at the ends,
which tokens these are. It is compared with the text whose line breaks are unified and that is not
trimmed.
-/
structure TrimKeeps (text : String) : Prop where
  succeeds :
    (run (unifyBreaks text.toList)).error? = none ↔ ∃ tokens, tokenize text = .ok tokens
  tokens :
    ∀ tokens, tokenize text = .ok tokens →
      withoutOuterBlanks (run (unifyBreaks text.toList)).tokens = withoutOuterBlanks tokens

/-- What is trimmed at the front of a text, with its line breaks unified. -/
def trimmedFront (text : String) : List Char :=
  unifyBreaks (leadingSpace text.toList)

/-- What is trimmed at the end of a text, with its line breaks unified. -/
def trimmedEnd (text : String) : List Char :=
  unifyBreaks (trailingSpace text.toList)

/-- A text is cut into tokens exactly if its run meets no error. -/
theorem exists_tokenize_iff
    {text : String} :
    (∃ tokens, tokenize text = .ok tokens) ↔ (run (normalize text.toList)).error? = none := by
  constructor
  · rintro ⟨tokens, read⟩
    rw [tokenize_eq_ok_iff.mp read]
  · intro noError
    refine ⟨(run (normalize text.toList)).tokens, tokenize_eq_ok_iff.mpr ?_⟩
    rw [← noError, ← rest_run_of_noError noError]

/-- What is trimmed at the front is white space, with its line breaks unified too. -/
theorem isWhiteSpace_of_trimmedFront
    (text : String) :
    ∀ char ∈ trimmedFront text, isWhiteSpace char = true :=
  isWhiteSpace_of_unifyBreaks isWhiteSpace_of_leadingSpace

/-- What is trimmed at the end is white space, with its line breaks unified too. -/
theorem isWhiteSpace_of_trimmedEnd
    (text : String) :
    ∀ char ∈ trimmedEnd text, isWhiteSpace char = true :=
  isWhiteSpace_of_unifyBreaks isWhiteSpace_of_trailingSpace

/-- A text with unified line breaks is what is trimmed and what is cut into tokens. -/
theorem unifyBreaks_toList
    (text : String) :
    unifyBreaks text.toList = trimmedFront text ++ (normalize text.toList ++ trimmedEnd text) :=
  unifyBreaks_eq text.toList

/-- A text that is not trimmed is cut up if the trimmed one is, or if it completes an escape. -/
theorem run_unifyBreaks_error?_eq_none_iff
    (text : String) :
    (run (unifyBreaks text.toList)).error? = none ↔
      (run (normalize text.toList)).error? = none ∨
        Mode.outside.after (normalize text.toList) = .escape ∧
          ∃ char ∈ (trimmedEnd text).head?, char ≠ '\n' := by
  rw [unifyBreaks_toList]
  exact run_untrimmed_error?_eq_none_iff (isWhiteSpace_of_trimmedFront text)
    (isWhiteSpace_of_trimmedEnd text)

/-- Trimming that keeps the tokens has trimmed blanks. -/
theorem TrimKeeps.isBlank
    {text : String}
    {tokens : List Token}
    (keeps : TrimKeeps text)
    (read : tokenize text = .ok tokens) :
    ∀ char ∈ trimmedFront text ++ trimmedEnd text, isBlank char = true := by
  have noError := exists_tokenize_iff.mp ⟨tokens, read⟩
  have same := congrArg contents (keeps.tokens tokens read)
  have cut : (run (normalize text.toList)).tokens = tokens := by
    rw [tokenize_eq_ok_iff.mp read]
  rw [contents_withoutOuterBlanks, contents_withoutOuterBlanks, unifyBreaks_toList, ← cut] at same
  exact isBlank_of_contents_untrimmed (isWhiteSpace_of_trimmedFront text)
    (isWhiteSpace_of_trimmedEnd text) noError same

/-- Trimming that keeps whether a text can be cut up has taken nothing that is escaped. -/
theorem TrimKeeps.eq_lineFeed
    {text : String}
    {body : List Char}
    {char : Char}
    (keeps : TrimKeeps text)
    (shape : normalize text.toList = body ++ ['\\'])
    (bodyNoError : (run body).error? = none)
    (isFirst : char ∈ (trimmedEnd text).head?) :
    char = '\n' := by
  have escape := after_eq_escape_iff.mpr ⟨body, shape, bodyNoError⟩
  refine Decidable.byContradiction fun notBreak => ?_
  have untrimmed := (run_unifyBreaks_error?_eq_none_iff text).mpr
    (Or.inr ⟨escape, char, isFirst, notBreak⟩)
  have noError := exists_tokenize_iff.mp (keeps.succeeds.mp untrimmed)
  rw [run_error?_eq_none_iff, escape] at noError
  cases noError

/-- Where only blanks are trimmed, the tokens are kept. -/
theorem tokens_unifyBreaks
    {text : String}
    {tokens : List Token}
    (onlyBlanks : ∀ char ∈ trimmedFront text ++ trimmedEnd text, isBlank char = true)
    (read : tokenize text = .ok tokens) :
    withoutOuterBlanks (run (unifyBreaks text.toList)).tokens = withoutOuterBlanks tokens := by
  obtain ⟨frontBlank, endBlank⟩ := List.forall_mem_append.mp onlyBlanks
  have nothing : normalize text.toList = [] → trimmedEnd text = [] := by
    intro empty
    rw [trimmedEnd, trailingSpace_eq_nil (eq_nil_of_unifyBreaks empty)]
    rfl
  have kept := tokens_untrimmed (trimmed_normalize text.toList) nothing
    frontBlank endBlank (exists_tokenize_iff.mp ⟨tokens, read⟩)
  rw [unifyBreaks_toList, kept, tokenize_eq_ok_iff.mp read]

/--
Trimming keeps the tokens of a text exactly if it takes nothing but blanks from a text that can be
cut up, and takes from no backslash what it escapes.
-/
theorem trimKeeps_iff
    (text : String) :
    TrimKeeps text ↔
      ((∃ tokens, tokenize text = .ok tokens) →
        ∀ char ∈ trimmedFront text ++ trimmedEnd text, isBlank char = true) ∧
      ∀ body, normalize text.toList = body ++ ['\\'] → (run body).error? = none →
        ∀ char ∈ (trimmedEnd text).head?, char = '\n' := by
  constructor
  · intro keeps
    constructor
    · rintro ⟨tokens, read⟩
      exact keeps.isBlank read
    · exact fun body shape bodyNoError char isFirst => keeps.eq_lineFeed shape bodyNoError isFirst
  · rintro ⟨onlyBlanks, noEscape⟩
    constructor
    · rw [run_unifyBreaks_error?_eq_none_iff, exists_tokenize_iff]
      refine ⟨fun read => ?_, Or.inl⟩
      rcases read with noError | ⟨escape, char, isFirst, notBreak⟩
      · exact noError
      · obtain ⟨body, shape, bodyNoError⟩ := after_eq_escape_iff.mp escape
        exact absurd (noEscape body shape bodyNoError char isFirst) notBreak
    · exact fun tokens read => tokens_unifyBreaks (onlyBlanks ⟨tokens, read⟩) read

/-- A space behind a backslash is part of a name, and is trimmed. -/
theorem not_trimKeeps_escape :
    (run (unifyBreaks "a\\ ".toList)).error? = none ∧
      tokenize "a\\ " = .error .unterminatedEscape ∧
      ¬ TrimKeeps "a\\ " := by
  have untrimmed : (run (unifyBreaks "a\\ ".toList)).error? = none := by
    decide +kernel
  have cut : tokenize "a\\ " = .error .unterminatedEscape := by
    decide +kernel
  refine ⟨untrimmed, cut, fun keeps => ?_⟩
  obtain ⟨tokens, read⟩ := keeps.succeeds.mp untrimmed
  rw [cut] at read
  cases read

end Trimming

end Lexer

end TreeSelectors
