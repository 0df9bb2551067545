import TreeSelectors.Proofs.Token.Pieces

namespace TreeSelectors

/-!
# What is written behind a token starts as what stood there

Where tokens have been read from a text without comments, no scan that looks
ahead takes the text that is written for them for more than it took the text
they come from: `Echoes`. So a token stands apart from what is written behind it
because it stood apart from what was read there.
-/

open TreeSelectors.Text

namespace Lexer

/-- What does not start at the front of a text does not start at the front of a written one. -/
structure Echoes (source written : List Char) : Prop where
  name :
    startsNameChar source = false → endsName written = true
  ident :
    startsIdent source = false → startsIdent written = false
  hyphen :
    startsIdent ('-' :: source) = false → startsIdent ('-' :: written) = false
  digit :
    startsDigit source = false → startsDigit written = false
  number :
    startsUnsignedNumber source = false → startsUnsignedNumber written = false
  parenthesis :
    source.head? ≠ some '(' → written.head? ≠ some '('
  star :
    source.head? ≠ some '*' → written.head? ≠ some '*'
  blank :
    source.head?.any isBlank = false → written.head?.any isBlank = false

section Starts

/-- What starts with an identifier does so with more behind it. -/
theorem startsIdent_append
    {text : List Char}
    (starts : startsIdent text = true)
    (rest : List Char) :
    startsIdent (text ++ rest) = true := by
  have escape : ∀ {text : List Char}, startsEscape text = true →
      startsEscape (text ++ rest) = true := by
    intro text starts
    unfold startsEscape at starts
    split at starts
    · exact starts
    · exact absurd starts (by simp)
  match text with
  | [] => exact absurd starts (by decide)
  | char :: others =>
      by_cases hyphen : char = '-'
      · subst hyphen
        simp only [startsIdent, beq_self_eq_true, if_true, Bool.or_eq_true] at starts
        simp only [List.cons_append, startsIdent, beq_self_eq_true, if_true, Bool.or_eq_true]
        rcases starts with escaped | second
        · exact Or.inl (escape escaped)
        · cases others with
          | nil => exact absurd second (by simp)
          | cons second others => exact Or.inr (by simpa using second)
      · simp only [startsIdent, beq_iff_eq, hyphen, if_false, Bool.or_eq_true] at starts
        simp only [List.cons_append, startsIdent, beq_iff_eq, hyphen, if_false, Bool.or_eq_true]
        exact starts.imp_right escape

/-- The characters that an identifier starts with. -/
theorem startsIdent_cases
    {text : List Char}
    (starts : startsIdent text = true) :
    ∃ first others, text = first :: others ∧
      (isNameStart first = true ∨ first = '-' ∨ first = '\\' ∧ startsEscape text = true) := by
  cases text with
  | nil => exact absurd starts (by decide)
  | cons first others =>
      refine ⟨first, others, rfl, ?_⟩
      by_cases hyphen : first = '-'
      · exact Or.inr (Or.inl hyphen)
      · simp only [startsIdent, beq_iff_eq, hyphen, if_false, Bool.or_eq_true] at starts
        refine starts.imp_right fun escape => Or.inr ⟨?_, escape⟩
        unfold startsEscape at escape
        split at escape
        · next shape => exact (List.cons.inj shape).1
        · exact absurd escape (by simp)

/-- An identifier behind a hyphen is an identifier. -/
theorem startsIdent_hyphen_of_startsIdent
    {text : List Char}
    (starts : startsIdent text = true) :
    startsIdent ('-' :: text) = true := by
  obtain ⟨first, others, shape, start | hyphen | ⟨_, escape⟩⟩ := startsIdent_cases starts
  · subst shape
    simp [startsIdent, start]
  · subst shape
    simp [startsIdent, hyphen]
  · simp [startsIdent, escape]

/-- The characters that a number without a sign starts with. -/
theorem startsUnsignedNumber_cases
    {text : List Char}
    (number : startsUnsignedNumber text = true) :
    ∃ first others, text = first :: others ∧ (first = '.' ∨ first.isDigit = true) := by
  cases text with
  | nil => exact absurd number (by decide)
  | cons first others =>
      refine ⟨first, others, rfl, ?_⟩
      by_cases point : first = '.'
      · exact Or.inl point
      · rw [startsUnsignedNumber_cons point] at number
        exact Or.inr number

/-- A number does not start as an identifier does. -/
theorem isNameStart_of_point_or_digit
    {char : Char}
    (numeric : char = '.' ∨ char.isDigit = true) :
    isNameStart char = false ∧ char ≠ '-' ∧ char ≠ '\\' := by
  rcases numeric with point | digit
  · subst point
    decide
  · refine ⟨?_, ne_of_holds digit (by decide), ne_of_holds digit (by decide)⟩
    rw [Bool.eq_false_iff]
    intro starts
    rw [not_isDigit_of_isNameStart starts] at digit
    exact absurd digit (by simp)

/-- What starts a number starts no identifier. -/
theorem startsIdent_of_startsNumber
    {text : List Char}
    (number : startsNumber text = true) :
    startsIdent text = false := by
  have unsigned : ∀ {text : List Char}, startsUnsignedNumber text = true →
      startsIdent text = false ∧ startsIdent ('-' :: text) = false := by
    intro text number
    obtain ⟨first, others, shape, numeric⟩ := startsUnsignedNumber_cases number
    obtain ⟨notStart, notHyphen, notBackslash⟩ := isNameStart_of_point_or_digit numeric
    have noEscape := startsEscape_of_ne_backslash notBackslash others
    subst shape
    simp [startsIdent, notStart, notHyphen, noEscape]
  unfold startsNumber at number
  split at number
  · rfl
  · exact (unsigned number).2
  · exact (unsigned number).1

end Starts

namespace Echoes

variable {source written : List Char}

/--
Texts that start with the same character differ only where more than one
character is looked at.
-/
theorem ofHead
    {first : Char}
    (notBackslash : first ≠ '\\')
    (ident : startsIdent (first :: source) = false → startsIdent (first :: written) = false)
    (number : startsUnsignedNumber (first :: source) = false →
      startsUnsignedNumber (first :: written) = false) :
    Echoes (first :: source) (first :: written) := by
  have noEscape := startsEscape_of_ne_backslash notBackslash
  refine ⟨fun noName => ?_, ident, fun noIdent => ?_, fun noDigit => noDigit, number,
    fun apart => apart, fun apart => apart, fun apart => apart⟩
  · simp only [startsNameChar, noEscape, Bool.or_false] at noName
    simp [endsName, noName, notBackslash]
  · simp only [startsIdent, beq_self_eq_true, if_true, noEscape, Bool.false_or] at noIdent ⊢
    exact noIdent

/-- A text that starts with a character that belongs to no name and no number is like any other. -/
theorem ofMark
    {mark : Char}
    (isMark : mark ∈ ['@', '#', doubleQuote, ')', ',', ':', ';', '[', ']', '\x7b', '\x7d']) :
    Echoes source (mark :: written) := by
  have inert : ∀ mark ∈ ['@', '#', doubleQuote, ')', ',', ':', ';', '[', ']', '\x7b', '\x7d'],
      isNameChar mark = false ∧ mark ≠ '\\' ∧ mark ≠ '-' ∧
        mark.isDigit = false ∧ mark ≠ '.' ∧
        mark ≠ '(' ∧ mark ≠ '*' ∧ isBlank mark = false := by
    decide
  obtain ⟨notName, notBackslash, notHyphen, notDigit, notPoint, notParenthesis, notStar,
    notBlank⟩ := inert mark isMark
  have noEscape := startsEscape_of_ne_backslash notBackslash written
  have notStart : isNameStart mark = false := by
    rw [Bool.eq_false_iff]
    intro starts
    rw [isNameChar_of_isNameStart starts] at notName
    exact absurd notName (by simp)
  constructor
  · intro _
    simp [endsName, notName, notBackslash]
  · intro _
    simp [startsIdent, notHyphen, notStart, noEscape]
  · intro _
    simp [startsIdent, notHyphen, notStart, noEscape]
  · intro _
    exact notDigit
  · intro _
    rw [startsUnsignedNumber_cons notPoint]
    exact notDigit
  · intro _
    simpa using notParenthesis
  · intro _
    simpa using notStar
  · intro _
    exact notBlank

/-- An identifier echoes an identifier. -/
theorem ofIdent
    (starts : startsIdent source = true)
    (writtenStarts : startsIdent written = true) :
    Echoes source written := by
  obtain ⟨first, others, shape, start⟩ := startsIdent_cases writtenStarts
  have head : first.isDigit = false ∧ first ≠ '.' ∧ first ≠ '(' ∧ first ≠ '*' ∧
      isBlank first = false := by
    rcases start with start | hyphen | ⟨backslash, _⟩
    · refine ⟨not_isDigit_of_isNameStart start, ne_of_holds start (by decide),
        ne_of_holds start (by decide), ne_of_holds start (by decide), ?_⟩
      rw [Bool.eq_false_iff]
      intro blank
      have notName := isNameChar_eq_false_of_isBlank blank
      rw [isNameChar_of_isNameStart start] at notName
      exact absurd notName (by simp)
    · subst hyphen
      decide
    · subst backslash
      decide
  obtain ⟨notDigit, notPoint, notParenthesis, notStar, notBlank⟩ := head
  refine ⟨fun noName => ?_, fun noIdent => ?_, fun noIdent => ?_, fun _ => ?_, fun _ => ?_,
    fun _ => ?_, fun _ => ?_, fun _ => ?_⟩
  · rw [startsNameChar_of_startsIdent starts] at noName
    exact absurd noName (by simp)
  · rw [starts] at noIdent
    exact absurd noIdent (by simp)
  · rw [startsIdent_hyphen_of_startsIdent starts] at noIdent
    exact absurd noIdent (by simp)
  · rw [shape]
    exact notDigit
  · rw [shape, startsUnsignedNumber_cons notPoint]
    exact notDigit
  · rw [shape]
    simpa using notParenthesis
  · rw [shape]
    simpa using notStar
  · rw [shape]
    exact notBlank

/-- A number echoes itself, whatever stands behind it. -/
theorem ofNumber
    {digits : List Char}
    (isNumber : IsNumber digits)
    (source written : List Char) :
    Echoes (digits ++ source) (digits ++ written) := by
  have starts := startsNumber_of_isNumber isNumber
  have known := mem_of_isNumber isNumber
  obtain ⟨first, others, shape⟩ := List.exists_cons_of_ne_nil (ne_nil_of_isNumber isNumber)
  subst shape
  have notBackslash : first ≠ '\\' := by
    intro same
    have member := known first List.mem_cons_self
    rw [same] at member
    exact absurd member (by decide)
  refine ofHead notBackslash (fun _ => startsIdent_of_startsNumber (starts written)) ?_
  intro noNumber
  by_cases point : first = '.'
  · -- A number that starts with a point starts without a sign, so that it starts one here too.
    subst point
    have number : startsUnsignedNumber ('.' :: (others ++ source)) = true := starts source
    exact absurd (noNumber.symm.trans number) (by simp)
  · rw [startsUnsignedNumber_cons point] at noNumber ⊢
    exact noNumber

/-- A delimiter that stands apart echoes itself. -/
theorem ofDelim
    {char : Char}
    (delim : isDelim char = true)
    (apart : Token.delimStandsApart char written = true) :
    Echoes (char :: source) (char :: written) := by
  have notBackslash := (isDelim_cases delim).2.1
  simp only [Token.delimStandsApart, Bool.and_eq_true, Bool.not_eq_true'] at apart
  obtain ⟨⟨noNumber, noIdent⟩, _⟩ := apart
  refine ofHead notBackslash (fun _ => noIdent) fun _ => ?_
  by_cases point : char = '.'
  · subst point
    exact noNumber
  · rw [startsUnsignedNumber_cons point]
    rw [Bool.eq_false_iff]
    intro digit
    rw [startsNumber_of_isDigit digit] at noNumber
    exact absurd noNumber (by simp)

/-- Blanks echo blanks. -/
theorem ofBlank
    {first : Char}
    (blank : isBlank first = true)
    (source written : List Char) :
    Echoes (first :: source) (' ' :: written) := by
  refine ⟨fun _ => rfl, fun _ => rfl, fun _ => rfl, fun _ => rfl, fun _ => rfl, fun _ => by simp,
    fun _ => by simp, fun notBlank => ?_⟩
  have solid : isBlank first = false := notBlank
  rw [blank] at solid
  exact absurd solid (by simp)

theorem ofPunctuation
    {char : Char}
    {token : Token}
    (punctuation : punctuation? char = some token) :
    Echoes (char :: source) (token.chars ++ written) := by
  unfold punctuation? at punctuation
  split at punctuation <;> cases punctuation <;>
    exact ofHead (by decide) (fun _ => rfl) (fun _ => rfl)

end Echoes

end Lexer

namespace Token

open TreeSelectors.Lexer

/-- A token with the kind that is read back behind a `#`. -/
def rekinded : Token → Token
  | .hash name _ => .hash name (hashKind name)
  | token => token

/-- The kind of a hash is not written. -/
theorem chars_rekinded
    (token : Token) :
    token.rekinded.chars = token.chars := by
  cases token <;> rfl

theorem listChars_map_rekinded
    (tokens : List Token) :
    listChars (tokens.map rekinded) = listChars tokens := by
  induction tokens with
  | nil => rfl
  | cons token tokens inductionHypothesis =>
      rw [List.map_cons, listChars_cons, listChars_cons, chars_rekinded, inductionHypothesis]

/-- A token stays well-formed with the kind that its name has. -/
theorem WellFormed.rekinded
    {token : Token}
    (wellFormed : token.WellFormed) :
    token.rekinded.WellFormed := by
  cases token <;> exact wellFormed

variable {token : Token} {front source written : List Char}

/-- A token that stands apart echoes what it has been read from. -/
theorem echoes_of_spelling
    (spelling : Spelling source front token)
    (nonempty : front ≠ [])
    (wellFormed : token.WellFormed)
    (apart : token.rekinded.standsApart written = true) :
    Echoes (front ++ source) (token.chars ++ written) := by
  cases spelling with
  | whitespace blanks _ =>
      obtain ⟨first, others, shape⟩ := List.exists_cons_of_ne_nil nonempty
      subst shape
      exact Echoes.ofBlank (blanks first List.mem_cons_self) _ _
  | ident _ starts _ =>
      exact Echoes.ofIdent (startsIdent_append starts _)
        (startsIdent_escapeIdentChars wellFormed.1 wellFormed.2.noBreak _)
  | function _ starts =>
      rw [chars, List.append_assoc, List.append_assoc]
      exact Echoes.ofIdent (startsIdent_append starts _)
        (startsIdent_escapeIdentChars wellFormed.1 wellFormed.2.noBreak _)
  | atKeyword _ => exact Echoes.ofMark (by decide)
  | hash _ _ => exact Echoes.ofMark (by decide)
  | string _ _ => exact Echoes.ofMark (by decide)
  | number isNumber =>
      rw [chars, String.toList_ofList]
      exact Echoes.ofNumber isNumber _ _
  | dimension isNumber _ =>
      rw [chars, String.toList_ofList, List.append_assoc, List.append_assoc]
      exact Echoes.ofNumber isNumber _ _
  | punctuation punctuation => exact Echoes.ofPunctuation punctuation
  | delim delim => exact Echoes.ofDelim delim apart

/-- Where a name ends, none starts. -/
theorem startsNameChar_of_endsName
    {text : List Char}
    (ends : endsName text = true) :
    startsNameChar text = false := by
  cases text with
  | nil => rfl
  | cons char rest =>
      simp only [endsName, Bool.and_eq_true, Bool.not_eq_true', bne_iff_ne, ne_eq] at ends
      simp [startsNameChar, ends.1, startsEscape_of_ne_backslash ends.2]

/-- What decides whether a character and the text behind it start a number. -/
theorem startsNumber_cons
    (char : Char)
    (rest : List Char) :
    startsNumber (char :: rest) =
      if char = '+' ∨ char = '-' then startsUnsignedNumber rest
      else if char = '.' then startsDigit rest
      else char.isDigit := by
  by_cases plus : char = '+'
  · subst plus
    rfl
  by_cases minus : char = '-'
  · subst minus
    rfl
  have unsigned : startsNumber (char :: rest) = startsUnsignedNumber (char :: rest) := by
    unfold startsNumber
    split
    · next shape => exact absurd (List.cons.inj shape).1 plus
    · next shape => exact absurd (List.cons.inj shape).1 minus
    · rfl
  rw [unsigned, if_neg (by simp [plus, minus])]
  by_cases point : char = '.'
  · subst point
    rfl
  · rw [if_neg point, startsUnsignedNumber_cons point]

/-- A delimiter stands apart from a text that echoes one that it stands apart from. -/
theorem delimStandsApart_echo
    (echoes : Echoes source written)
    {char : Char}
    (delim : isDelim char = true)
    (apart : delimStandsApart char source = true) :
    delimStandsApart char written = true := by
  have notBackslash := (isDelim_cases delim).2.1
  simp only [delimStandsApart, Bool.and_eq_true, Bool.not_eq_true'] at apart ⊢
  obtain ⟨⟨noNumber, noIdent⟩, special⟩ := apart
  refine ⟨⟨?_, ?_⟩, ?_⟩
  · rw [startsNumber_cons] at noNumber ⊢
    split
    · next sign =>
        rw [if_pos sign] at noNumber
        exact echoes.number noNumber
    · next noSign =>
        rw [if_neg noSign] at noNumber
        split
        · next point =>
            rw [if_pos point] at noNumber
            exact echoes.digit noNumber
        · next noPoint =>
            rw [if_neg noPoint] at noNumber
            exact noNumber
  · by_cases hyphen : char = '-'
    · subst hyphen
      exact echoes.hyphen noIdent
    · simpa [startsIdent, hyphen, startsEscape_of_ne_backslash notBackslash] using noIdent
  · split at special
    · simpa using startsNameChar_of_endsName (echoes.name (by simpa using special))
    · simpa using echoes.ident (by simpa using special)
    · simpa using echoes.star (by simpa using special)
    · rfl

/-- A number stands apart from a text that echoes the one behind it. -/
theorem splitNumber_echo
    (echoes : Echoes source written)
    {digits : List Char}
    (isNumber : IsNumber digits)
    (noIdent : startsIdent source = false)
    (split : splitNumber (digits ++ source) = (digits, source)) :
    splitNumber (digits ++ written) = (digits, written) := by
  obtain ⟨sign, whole, fraction, exponent, parts, shape⟩ := isNumber
  subst shape
  have ends := endsParts_of_splitNumber parts noIdent split
  exact splitNumber_of_parts parts ⟨echoes.digit ends.noDigit,
    noMark_of_startsIdent (echoes.ident noIdent),
    fun noFraction noExponent => echoes.number (ends.noFraction noFraction noExponent)⟩

/-- A token that has been read stands apart from a text that echoes the one behind it. -/
theorem standsApart_of_echoes
    (wellFormed : token.WellFormed)
    {text : List Char}
    (read : token? text = some (token, source))
    (echoes : Echoes source written) :
    token.rekinded.standsApart written = true := by
  obtain ⟨front, shape, _, spelling⟩ := spells_of_token? read
  cases spelling with
  | whitespace _ notBlank => simp [rekinded, standsApart, echoes.blank notBlank]
  | ident spells _ noParenthesis =>
      simp [rekinded, standsApart, echoes.name spells.ended, echoes.parenthesis noParenthesis]
  | function _ _ => rfl
  | atKeyword spells => exact echoes.name spells.ended
  | hash _ spells => simp [rekinded, standsApart, echoes.name spells.ended]
  | string _ _ => rfl
  | number isNumber =>
      have known : token? ((String.ofList front).toList ++ source) =
          some (.number ⟨String.ofList front⟩, source) := by
        rwa [String.toList_ofList, ← shape]
      obtain ⟨⟨split, noIdent⟩, _⟩ := (token?_number_iff wellFormed).mp known
      rw [String.toList_ofList] at split
      simp [rekinded, standsApart, splitNumber_echo echoes isNumber noIdent split,
        echoes.ident noIdent]
  | dimension _ spells => exact echoes.name spells.ended
  | punctuation punctuation =>
      unfold punctuation? at punctuation
      split at punctuation <;> cases punctuation <;> rfl
  | delim delim =>
      rw [shape] at read
      exact delimStandsApart_echo echoes delim ((token?_delim_iff delim).mp read).1

/-- What is written for the tokens of a text without comments is legible and echoes the text. -/
theorem legible_of_spelt
    {tokens : List Token}
    (spelt : Spelt source tokens)
    (wellFormed : AllWellFormed tokens) :
    legible (tokens.map rekinded) = true ∧ Echoes source (listChars tokens) := by
  induction spelt with
  | done =>
      exact ⟨rfl, fun _ => rfl, fun _ => rfl, fun holds => holds, fun _ => rfl, fun _ => rfl,
        fun holds => holds, fun holds => holds, fun _ => rfl⟩
  | @token text behind token tokens read _ inductionHypothesis =>
      obtain ⟨head, tail⟩ := List.forall_mem_cons.mp wellFormed
      obtain ⟨isLegible, echoes⟩ := inductionHypothesis tail
      have apart := standsApart_of_echoes head read echoes
      obtain ⟨front, shape, nonempty, spelling⟩ := spells_of_token? read
      refine ⟨?_, ?_⟩
      · rw [List.map_cons, legible_cons, listChars_map_rekinded, apart, isLegible]
        rfl
      · rw [shape, listChars_cons]
        exact echoes_of_spelling spelling nonempty head apart

end Token

end TreeSelectors
