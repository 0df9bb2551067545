import TreeSelectors.Proofs.Token.Echoes
import TreeSelectors.Proofs.Token.Normalizing

namespace TreeSelectors

/-!
# Tokens are read back from what is written for them

The tokens of a text without comments are read back from what is written for
them, unless white space outside ASCII stands in the text, which can belong to
a name and be dropped at the ends of what is written. Only the kind behind a `#`
may be another.
-/

open TreeSelectors.Text

namespace Lexer

/-- A text that a comment starts nowhere in is spelt by its tokens alone. -/
theorem spelt_of_noComment
    {text : List Char}
    (noComment : ¬ ['/', '*'] <:+: text)
    (noError : (run text).error? = none) :
    Spelt text (run text).tokens := by
  induction text using run.induct with
  | case1 =>
      rw [run_nil]
      exact Spelt.done
  | case2 char rest token? read inductionHypothesis =>
      rw [run_cons, read] at noError ⊢
      cases token? with
      | none =>
          obtain ⟨front, shape, _⟩ := commentText_of_step read
          rw [shape] at noComment
          exact absurd ⟨[], front ++ (step char rest).rest, rfl⟩ noComment
      | some token =>
          have suffix := (step_rest_suffix char rest).trans (List.suffix_cons char rest)
          have later := inductionHypothesis
            (fun comment => noComment (comment.trans suffix.isInfix)) noError
          exact Spelt.token (token?_eq_some_iff.mpr ⟨read, rfl⟩) later
  | case3 char rest error read =>
      rw [run_cons, read] at noError
      exact absurd noError (by simp)

end Lexer

namespace Token

open TreeSelectors.Lexer

section Ends

theorem getLast?_escapeNameChars
    (name : List Char) :
    (escapeNameChars name).getLast? = name.getLast? := by
  have one : ∀ char, (escapeNameChar char).getLast? = some char := by
    intro char
    unfold escapeNameChar
    split <;> rfl
  induction name with
  | nil => rfl
  | cons char name inductionHypothesis =>
      rw [escapeNameChars_cons, List.getLast?_append, inductionHypothesis, one,
        List.getLast?_cons, Option.or_some]

theorem getLast?_escapeIdentChars
    (name : List Char) :
    (escapeIdentChars name).getLast? = name.getLast? := by
  cases name with
  | nil => rfl
  | cons first others =>
      rw [escapeIdentChars, List.getLast?_append, getLast?_escapeNameChars, List.getLast?_cons]
      split <;> exact Option.or_some

/-- The last character of a name ends what spells it. -/
theorem getLast?_of_nameText
    {text name : List Char}
    (nameText : NameText text name) :
    text.getLast? = name.getLast? := by
  induction nameText with
  | done => rfl
  | plain _ _ inductionHypothesis =>
      rw [List.getLast?_cons, List.getLast?_cons, inductionHypothesis]
  | escaped _ _ inductionHypothesis =>
      rw [List.getLast?_cons, List.getLast?_cons, List.getLast?_cons, inductionHypothesis]
      rfl

theorem getLast?_unitChars
    (unit : List Char) :
    (unitChars unit).getLast? = unit.getLast? := by
  unfold unitChars
  split
  · next exponent =>
      obtain ⟨first, others, shape⟩ : ∃ first others, unit = first :: others := by
        cases unit with
        | nil => exact absurd exponent (by decide)
        | cons first others => exact ⟨first, others, rfl⟩
      rw [List.getLast?_cons, getLast?_escapeIdentChars, shape, List.getLast?_cons]
      rfl
  · exact getLast?_escapeIdentChars unit

/-- White space in ASCII belongs to no name. -/
theorem isNameChar_of_plain
    {char : Char}
    (white : isWhiteSpace char = true)
    (plain : char.toNat < 0x80) :
    isNameChar char = false := by
  have spaces : ∀ code < 0x80, isWhiteSpace (Char.ofNat code) = true →
      isNameChar (Char.ofNat code) = false := by
    decide
  have known := spaces char.toNat plain
  rw [Char.ofNat_toNat] at known
  exact known white

/-- What is written for an identifier starts with a character of names or a backslash. -/
theorem head?_escapeIdentChars
    {name : List Char}
    {char : Char}
    (first : char ∈ (escapeIdentChars name).head?) :
    (char ∈ name.head? ∧ isNameChar char = true) ∨ char = '\\' := by
  cases name with
  | nil => cases first
  | cons letter others =>
      rw [escapeIdentChars] at first
      split at first
      · next unescaped =>
          cases first
          exact Or.inl ⟨rfl, isNameChar_of_startsUnescaped unescaped⟩
      · cases first
        exact Or.inr rfl

variable {token : Token} {front source : List Char} {char : Char}

/-- White space that ends a written token ends what the token has been read from. -/
theorem white_of_getLast?_chars
    (spelling : Spelling source front token)
    (nonempty : front ≠ [])
    (last : char ∈ token.chars.getLast?)
    (white : isWhiteSpace char = true) :
    ∃ char ∈ front.getLast?, isWhiteSpace char = true := by
  have ofSame : token.chars.getLast? = front.getLast? →
      ∃ char ∈ front.getLast?, isWhiteSpace char = true :=
    fun same => ⟨char, same ▸ last, white⟩
  cases spelling with
  | whitespace blanks _ =>
      exact ⟨front.getLast nonempty, List.getLast?_eq_some_getLast nonempty,
        isWhiteSpace_of_isBlank (blanks _ (List.getLast_mem nonempty))⟩
  | ident spells _ _ =>
      apply ofSame
      rw [chars, String.toList_ofList, getLast?_escapeIdentChars,
        getLast?_of_nameText spells.nameText]
  | function _ _ =>
      apply ofSame
      rw [chars, List.getLast?_concat, List.getLast?_concat]
  | atKeyword spells =>
      apply ofSame
      rw [chars, String.toList_ofList, List.getLast?_cons, List.getLast?_cons,
        getLast?_escapeIdentChars, getLast?_of_nameText spells.nameText]
  | hash _ spells =>
      apply ofSame
      rw [chars, String.toList_ofList, List.getLast?_cons, List.getLast?_cons,
        getLast?_escapeNameChars, getLast?_of_nameText spells.nameText]
  | string _ _ =>
      -- The quote that is written may be another than the one that was read, but is not white.
      rw [chars, quoteChars, List.getLast?_concat] at last
      cases last
      exact absurd white (by decide)
  | number _ =>
      apply ofSame
      rw [chars, String.toList_ofList]
  | dimension _ spells =>
      apply ofSame
      rw [chars, String.toList_ofList, String.toList_ofList, List.getLast?_append,
        List.getLast?_append, getLast?_unitChars, getLast?_of_nameText spells.nameText]
  | punctuation punctuation =>
      apply ofSame
      unfold punctuation? at punctuation
      split at punctuation <;> cases punctuation <;> rfl
  | delim _ => exact ofSame rfl

/-- White space that starts a written token starts what the token has been read from. -/
theorem white_of_head?_chars
    (spelling : Spelling source front token)
    (nonempty : front ≠ [])
    (first : char ∈ token.chars.head?)
    (white : isWhiteSpace char = true)
    (plain : char.toNat < 0x80) :
    ∃ char ∈ front.head?, isWhiteSpace char = true := by
  have notName := isNameChar_of_plain white plain
  have ofSame : token.chars.head? = front.head? →
      ∃ char ∈ front.head?, isWhiteSpace char = true :=
    fun same => ⟨char, same ▸ first, white⟩
  have noIdent : ∀ {name : List Char}, char ∉ (escapeIdentChars name).head? := by
    intro name inName
    rcases head?_escapeIdentChars inName with ⟨_, nameChar⟩ | backslash
    · rw [notName] at nameChar
      exact absurd nameChar (by simp)
    · rw [backslash] at white
      exact absurd white (by decide)
  have noMark : ∀ {mark : Char}, isWhiteSpace mark = false → ∀ {others : List Char},
      char ∉ (mark :: others).head? := by
    intro mark visible others same
    cases same
    rw [white] at visible
    exact absurd visible (by simp)
  cases spelling with
  | whitespace blanks _ =>
      exact ⟨front.head nonempty, List.head?_eq_some_head nonempty,
        isWhiteSpace_of_isBlank (blanks _ (List.head_mem nonempty))⟩
  | ident _ _ _ => exact absurd first noIdent
  | function spells _ =>
      rw [chars, List.head?_append, Option.mem_def, Option.or_eq_some_iff] at first
      rcases first with inName | ⟨_, parenthesis⟩
      · exact absurd inName noIdent
      · exact absurd parenthesis (noMark (by decide))
  | atKeyword _ => exact absurd first (noMark (by decide))
  | hash _ _ => exact absurd first (noMark (by decide))
  | string _ _ => exact absurd first (noMark (by decide))
  | number _ =>
      apply ofSame
      rw [chars, String.toList_ofList]
  | dimension isNumber _ =>
      apply ofSame
      obtain ⟨digit, others, shape⟩ := List.exists_cons_of_ne_nil (ne_nil_of_isNumber isNumber)
      rw [chars, String.toList_ofList, shape]
      rfl
  | punctuation punctuation =>
      apply ofSame
      unfold punctuation? at punctuation
      split at punctuation <;> cases punctuation <;> rfl
  | delim _ => exact ofSame rfl

end Ends

section Rereading

variable {source : List Char} {tokens : List Token}

theorem chars_ne_nil
    {token : Token}
    (wellFormed : token.WellFormed) :
    token.chars ≠ [] := by
  by_cases blank : token = .whitespace
  · rw [blank]
    exact List.cons_ne_nil _ _
  · obtain ⟨first, others, shape, _⟩ := chars_eq_cons wellFormed blank
    rw [shape]
    exact List.cons_ne_nil _ _

/-- White space that starts a written text starts the text that has been read. -/
theorem white_of_head?_listChars
    (spelt : Spelt source tokens)
    (wellFormed : AllWellFormed tokens)
    {char : Char}
    (first : char ∈ (listChars tokens).head?)
    (white : isWhiteSpace char = true)
    (plain : char.toNat < 0x80) :
    ∃ char ∈ source.head?, isWhiteSpace char = true := by
  cases spelt with
  | done => cases first
  | @token text behind token tokens read _ =>
      obtain ⟨front, shape, nonempty, spelling⟩ := spells_of_token? read
      have written := chars_ne_nil (wellFormed token List.mem_cons_self)
      rw [listChars_cons, List.head?_append, Option.mem_def, Option.or_eq_some_iff] at first
      rw [shape, List.head?_append]
      rcases first with inToken | ⟨nothing, _⟩
      · obtain ⟨found, isFirst, foundWhite⟩ :=
          white_of_head?_chars spelling nonempty inToken white plain
        exact ⟨found, by rw [isFirst]; rfl, foundWhite⟩
      · exact absurd (List.head?_eq_none_iff.mp nothing) written

/-- White space that ends a written text ends the text that has been read. -/
theorem white_of_getLast?_listChars
    (spelt : Spelt source tokens)
    (wellFormed : AllWellFormed tokens)
    {char : Char}
    (last : char ∈ (listChars tokens).getLast?)
    (white : isWhiteSpace char = true) :
    ∃ char ∈ source.getLast?, isWhiteSpace char = true := by
  induction spelt with
  | done => cases last
  | @token text behind token tokens read later inductionHypothesis =>
      obtain ⟨head, tail⟩ := List.forall_mem_cons.mp wellFormed
      obtain ⟨front, shape, nonempty, spelling⟩ := spells_of_token? read
      rw [listChars_cons, List.getLast?_append, Option.mem_def, Option.or_eq_some_iff] at last
      rw [shape, List.getLast?_append]
      rcases last with inLater | ⟨nothing, inToken⟩
      · obtain ⟨found, isLast, foundWhite⟩ := inductionHypothesis tail inLater
        exact ⟨found, by rw [isLast]; rfl, foundWhite⟩
      · have found := white_of_getLast?_chars spelling nonempty inToken white
        cases later with
        | done => exact found
        | @token behind _ next others _ _ =>
            have written := chars_ne_nil (tail next List.mem_cons_self)
            rw [List.getLast?_eq_none_iff, listChars_cons, List.append_eq_nil_iff] at nothing
            exact absurd nothing.1 written

theorem trim_listChars_of_spelt
    (spelt : Spelt source tokens)
    (wellFormed : AllWellFormed tokens)
    (trimmed : Trimmed source)
    (plainSpaced : PlainSpaced (listChars tokens)) :
    trim (listChars tokens) = listChars tokens := by
  apply trim_of_edges
  · intro char first
    rw [Bool.eq_false_iff]
    intro white
    obtain ⟨found, isFirst, foundWhite⟩ := white_of_head?_listChars spelt wellFormed first white
      (plainSpaced char (List.mem_of_mem_head? first) white)
    rw [trimmed.first found isFirst] at foundWhite
    exact absurd foundWhite (by simp)
  · intro char last
    rw [Bool.eq_false_iff]
    intro white
    obtain ⟨found, isLast, foundWhite⟩ :=
      white_of_getLast?_listChars spelt wellFormed last white
    rw [trimmed.last found isLast] at foundWhite
    exact absurd foundWhite (by simp)

/-- White space that is written stands in the text that has been read, or is a plain space. -/
theorem plainSpaced_listChars
    (kept : (contents tokens).Sublist source)
    (plainSpaced : PlainSpaced source) :
    PlainSpaced (listChars tokens) := by
  intro char written white
  by_cases space : char = ' '
  · rw [space]
    decide
  · have counted := count_listChars (notMem_marks white) space tokens
    have inWritten := List.count_pos_iff.mpr written
    have inContents := List.count_pos_iff.mp (counted ▸ inWritten)
    exact plainSpaced char (kept.subset inContents) white

end Rereading

/-- What is left of a token without the kind behind a `#`. -/
def unkinded : Token → Token
  | .hash name _ => .hash name .unrestricted
  | token => token

theorem unkinded_rekinded
    (token : Token) :
    token.rekinded.unkinded = token.unkinded := by
  cases token <;> rfl

/--
What is written for the tokens of a text is cut into the same tokens, where no
comment and no white space outside ASCII stands in the text.
-/
theorem tokenize_listText_of_noComment
    {text : String}
    {tokens : List Token}
    (noComment : ¬ ['/', '*'] <:+: text.toList)
    (plainSpaced : PlainSpaced text.toList)
    (read : tokenize text = .ok tokens) :
    ∃ again, tokenize (listText tokens) = .ok again ∧
      again.map unkinded = tokens.map unkinded := by
  have whole := tokenize_eq_ok_iff.mp read
  have noError : (run (Lexer.normalize text.toList)).error? = none := by
    rw [whole]
  have scanned := Scanned.ofRun noError
  have spelt := spelt_of_noComment (noComment_normalize noComment) noError
  rw [whole] at scanned spelt
  have wellFormed := scanned.wellFormed (unified_unifyBreaks _)
  have isLegible := (legible_of_spelt spelt wellFormed).1
  have wellKinded : AllWellFormed (tokens.map rekinded) := by
    intro token member
    obtain ⟨source, isToken, same⟩ := List.mem_map.mp member
    exact same ▸ (wellFormed source isToken).rekinded
  have spaced := plainSpaced_listChars scanned.sublist (plainSpaced_normalize plainSpaced)
  have untrimmed := trim_listChars_of_spelt spelt wellFormed (trimmed_normalize _) spaced
  have normal : Lexer.normalize (listText tokens).toList = listChars (tokens.map rekinded) := by
    rw [listText, String.toList_ofList, Lexer.normalize, untrimmed,
      unifyBreaks_of_settled (settled_listChars wellFormed), listChars_map_rekinded]
  refine ⟨tokens.map rekinded, ?_, ?_⟩
  · rw [tokenize_eq_ok_iff, normal]
    exact run_listChars_of_legible wellKinded isLegible
  · rw [List.map_map]
    exact List.map_congr_left fun token _ => unkinded_rekinded token

/-- The escape of a digit is dropped, so that the name behind the `#` is no identifier any more. -/
theorem tokenize_listText_of_noComment_hash :
    ∃ again,
      tokenize (listText [.hash "31" .identifier, .whitespace, .dimension ⟨"-1"⟩ "e1"]) =
        .ok again ∧
      again.map unkinded =
        [.hash "31" .unrestricted, .whitespace, .dimension ⟨"-1"⟩ "e1"] :=
  have noComment : ¬ ['/', '*'] <:+: "#\\31 -1\\e1".toList := by
    decide +kernel
  have plainSpaced : PlainSpaced "#\\31 -1\\e1".toList := by
    unfold PlainSpaced
    decide
  tokenize_listText_of_noComment noComment plainSpaced (by cbv)

end Token

end TreeSelectors
