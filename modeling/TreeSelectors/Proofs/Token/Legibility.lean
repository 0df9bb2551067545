import TreeSelectors.Proofs.Token.Kinds

namespace TreeSelectors

/-!
# Legible tokens

Tokens are written without anything between them, so that the text behind a
token decides whether it is read back. `Token.standsApart` is that condition,
kind by kind, and it is exact: `token?_chars_iff`.
-/

open TreeSelectors.Text
open TreeSelectors.Lexer

namespace Token

/-- A token as it can be read from a text. -/
def WellFormed : Token → Prop
  | .ident name => name.toList ≠ [] ∧ Settled name.toList
  | .function name => name.toList ≠ [] ∧ Settled name.toList
  | .atKeyword name => name.toList ≠ [] ∧ Settled name.toList
  | .hash name _ => name.toList ≠ [] ∧ Settled name.toList
  | .string value => Settled value.toList
  | .number numeral => IsNumber numeral.text.toList
  | .dimension numeral unit =>
      IsNumber numeral.text.toList ∧ unit.toList ≠ [] ∧ Settled unit.toList
  | .delim char => isDelim char = true ∧ Settled [char]
  | _ => True

/-- Tokens as they can be read. -/
def AllWellFormed (tokens : List Token) : Prop :=
  ∀ token ∈ tokens, token.WellFormed

/-- The characters that a token keeps of the text it has been read from. -/
def content : Token → List Char
  | .ident name => name.toList
  | .function name => name.toList
  | .atKeyword name => name.toList
  | .hash name _ => name.toList
  | .string value => value.toList
  | .number numeral => numeral.text.toList
  | .dimension numeral unit => numeral.text.toList ++ unit.toList
  | .delim char => [char]
  | _ => []

/-- The characters that writing adds to those of a token that is not blank. -/
def marks : List Char :=
  ['\\', doubleQuote, '@', '#', '(', ')', ':', ';', ',', '[', ']', '\x7b', '\x7d']

/-- Whether a written token is read back with the given text behind it. -/
def standsApart (token : Token) (text : List Char) : Bool :=
  match token with
  | .ident _ => endsName text && text.head? != some '('
  | .atKeyword _ => endsName text
  | .hash name kind => endsName text && kind == hashKind name
  | .number numeral =>
      splitNumber (numeral.text.toList ++ text) == (numeral.text.toList, text) &&
        !startsIdent text
  | .dimension _ _ => endsName text
  | .delim char => delimStandsApart char text
  | .whitespace => !text.head?.any isBlank
  | .function _ | .string _ | .colon | .semicolon | .comma | .leftBracket | .rightBracket |
    .leftParen | .rightParen | .leftBrace | .rightBrace => true

variable {token : Token} {rest behind : List Char}

/-- A written token is read back exactly if it stands apart from the text behind it. -/
theorem token?_chars_iff
    (wellFormed : token.WellFormed)
    (notBlank : token ≠ .whitespace)
    (unbroken : ¬ StartsBroken rest) :
    token? (token.chars ++ rest) = some (token, behind) ↔
      token.standsApart rest = true ∧ behind = rest := by
  cases token with
  | ident name =>
      rw [chars, token?_ident_iff wellFormed.1 wellFormed.2.noBreak unbroken]
      simp [standsApart]
  | function name =>
      rw [chars, List.append_assoc, List.singleton_append,
        token?_function wellFormed.1 wellFormed.2.noBreak]
      simp [standsApart, eq_comm]
  | atKeyword name =>
      rw [chars, List.cons_append, token?_atKeyword_iff wellFormed.1 wellFormed.2.noBreak unbroken]
      simp [standsApart]
  | hash name kind =>
      rw [chars, List.cons_append, token?_hash_iff wellFormed.1 wellFormed.2.noBreak unbroken]
      simp [standsApart]
  | string value =>
      rw [chars, token?_string (Settled.noBreak wellFormed)]
      simp [standsApart, eq_comm]
  | number numeral =>
      rw [chars, token?_number_iff wellFormed]
      simp [standsApart]
  | dimension numeral unit =>
      rw [chars, token?_dimension_iff wellFormed.1 wellFormed.2.1 wellFormed.2.2.noBreak unbroken]
      simp [standsApart]
  | delim char =>
      exact token?_delim_iff wellFormed.1
  | whitespace =>
      exact absurd rfl notBlank
  | _ =>
      rw [chars, List.singleton_append, token?_punctuation (by rfl)]
      simp [standsApart, eq_comm]

/-- A blank stands apart from what follows unless that is a blank too. -/
theorem standsApart_whitespace_iff :
    (Token.whitespace).standsApart rest = true ↔ rest.dropWhile isBlank = rest := by
  cases rest with
  | nil => simp [standsApart]
  | cons char others =>
      by_cases blank : isBlank char = true
      · simp only [standsApart, List.head?_cons, Option.any_some, blank, Bool.not_true,
          Bool.false_eq_true, List.dropWhile_cons_of_pos, false_iff]
        intro same
        have shorter := (List.dropWhile_suffix isBlank (l := others)).length_le
        rw [same, List.length_cons] at shorter
        omega
      · simp [standsApart, blank]

/-- A token that stands apart is read back, and reading goes on behind it. -/
theorem token?_of_standsApart
    (wellFormed : token.WellFormed)
    (unbroken : ¬ StartsBroken rest)
    (apart : token.standsApart rest = true) :
    token? (token.chars ++ rest) = some (token, rest) := by
  by_cases blank : token = .whitespace
  · subst blank
    exact token?_whitespace_iff.mpr (standsApart_whitespace_iff.mp apart).symm
  · exact (token?_chars_iff wellFormed blank unbroken).mpr ⟨apart, rfl⟩

/-- An escaped identifier does not start with a blank. -/
theorem escapeIdentChars_eq_cons
    {name : List Char}
    (nonempty : name ≠ [])
    (noBreak : NoBreak name) :
    ∃ first others, escapeIdentChars name = first :: others ∧ isBlank first = false := by
  have starts := startsNameChar_of_startsIdent (startsIdent_escapeIdentChars nonempty noBreak [])
  rw [List.append_nil] at starts
  cases written : escapeIdentChars name with
  | nil =>
      rw [written] at starts
      exact absurd starts (by decide)
  | cons first others =>
      refine ⟨first, others, rfl, ?_⟩
      rw [written] at starts
      rw [Bool.eq_false_iff]
      intro blank
      have notName := isNameChar_eq_false_of_isBlank blank
      have notBackslash : first ≠ '\\' := ne_of_holds blank (by decide)
      simp only [startsNameChar, notName, Bool.false_or] at starts
      unfold startsEscape at starts
      split at starts
      · next shape => exact notBackslash (List.cons.inj shape).1
      · exact absurd starts (by simp)

/-- A number does not start with a blank. -/
theorem isNumber_eq_cons
    {text : List Char}
    (isNumber : IsNumber text) :
    ∃ first others, text = first :: others ∧ isBlank first = false := by
  obtain ⟨first, others, shape⟩ := List.exists_cons_of_ne_nil (ne_nil_of_isNumber isNumber)
  refine ⟨first, others, shape, ?_⟩
  have known := mem_of_isNumber isNumber first (by rw [shape]; exact List.mem_cons_self)
  rw [Bool.eq_false_iff]
  intro blank
  simp only [isBlank, Bool.or_eq_true, beq_iff_eq] at blank
  rcases blank with (same | same) | same <;>
  · rw [same] at known
    exact absurd known (by decide)

/-- What is written for a token that is not blank starts with something that is not blank. -/
theorem chars_eq_cons
    (wellFormed : token.WellFormed)
    (notBlank : token ≠ .whitespace) :
    ∃ first others, token.chars = first :: others ∧ isBlank first = false := by
  cases token with
  | ident name => exact escapeIdentChars_eq_cons wellFormed.1 wellFormed.2.noBreak
  | function name =>
      obtain ⟨first, others, shape, solid⟩ :=
        escapeIdentChars_eq_cons wellFormed.1 wellFormed.2.noBreak
      exact ⟨first, others ++ ['('], by rw [chars, shape, List.cons_append], solid⟩
  | number numeral => exact isNumber_eq_cons wellFormed
  | dimension numeral unit =>
      obtain ⟨first, others, shape, solid⟩ := isNumber_eq_cons wellFormed.1
      exact ⟨first, others ++ unitChars unit.toList,
        by rw [chars, shape, List.cons_append], solid⟩
  | delim char => exact ⟨char, [], rfl, (isDelim_cases wellFormed.1).1.1⟩
  | whitespace => exact absurd rfl notBlank
  | _ => exact ⟨_, _, rfl, by decide⟩

/-- What is written behind blanks does not go on with them. -/
theorem dropWhile_isBlank_listChars
    {tokens : List Token}
    (wellFormed : AllWellFormed tokens)
    (notBlank : tokens.head? ≠ some .whitespace) :
    (listChars tokens).head?.any isBlank = false ∧
      (listChars tokens).dropWhile isBlank = listChars tokens := by
  cases tokens with
  | nil => exact ⟨rfl, rfl⟩
  | cons token tokens =>
      obtain ⟨first, others, shape, solid⟩ :=
        chars_eq_cons (wellFormed token List.mem_cons_self) (by simpa using notBlank)
      rw [listChars_cons, shape, List.cons_append]
      exact ⟨solid, List.dropWhile_cons_of_neg (by simp [solid])⟩

/-! What is written for a token as it can be read holds no line breaks. -/

section Members

variable {char : Char}

/-- Escaping a name adds no character but backslashes. -/
theorem mem_escapeNameChars
    {name : List Char}
    (member : char ∈ escapeNameChars name) :
    char ∈ name ∨ char = '\\' := by
  obtain ⟨source, inName, written⟩ := List.mem_flatMap.mp member
  unfold escapeNameChar at written
  split at written
  · exact Or.inl (List.mem_singleton.mp written ▸ inName)
  · rcases List.mem_cons.mp written with backslash | same
    · exact Or.inr backslash
    · exact Or.inl (List.mem_singleton.mp same ▸ inName)

/-- Escaping an identifier adds no character but backslashes. -/
theorem mem_escapeIdentChars
    {name : List Char}
    (member : char ∈ escapeIdentChars name) :
    char ∈ name ∨ char = '\\' := by
  cases name with
  | nil => exact absurd member (by simp [escapeIdentChars])
  | cons first others =>
      rcases List.mem_append.mp member with front | back
      · split at front
        · exact Or.inl (List.mem_singleton.mp front ▸ List.mem_cons_self)
        · rcases List.mem_cons.mp front with backslash | same
          · exact Or.inr backslash
          · exact Or.inl (List.mem_singleton.mp same ▸ List.mem_cons_self)
      · exact (mem_escapeNameChars back).imp_left (List.mem_cons_of_mem first)

/-- Quoting a string adds no character but backslashes and quotes. -/
theorem mem_quoteChars
    {value : List Char}
    (member : char ∈ quoteChars value) :
    char ∈ value ∨ char = '\\' ∨ char = doubleQuote := by
  rcases List.mem_append.mp member with front | last
  · rcases List.mem_cons.mp front with quote | inside
    · exact Or.inr (Or.inr quote)
    · obtain ⟨source, inValue, written⟩ := List.mem_flatMap.mp inside
      unfold quoteChar at written
      split at written
      · rcases List.mem_cons.mp written with backslash | same
        · exact Or.inr (Or.inl backslash)
        · exact Or.inl (List.mem_singleton.mp same ▸ inValue)
      · exact Or.inl (List.mem_singleton.mp written ▸ inValue)
  · exact Or.inr (Or.inr (List.mem_singleton.mp last))

/-- Escaping a unit adds no character but backslashes. -/
theorem mem_unitChars
    {unit : List Char}
    (member : char ∈ unitChars unit) :
    char ∈ unit ∨ char = '\\' := by
  unfold unitChars at member
  split at member
  · rcases List.mem_cons.mp member with backslash | written
    · exact Or.inr backslash
    · exact mem_escapeIdentChars written
  · exact mem_escapeIdentChars member

/-- Writing adds nothing but its marks to a token that is not blank. -/
theorem mem_chars
    (notBlank : token ≠ .whitespace)
    (member : char ∈ token.chars) :
    char ∈ token.content ∨ char ∈ marks := by
  have ofMark : ∀ {mark : Char}, mark ∈ marks → char = mark → char ∈ marks :=
    fun isMark same => same ▸ isMark
  cases token with
  | ident name => exact (mem_escapeIdentChars member).imp_right (ofMark (by decide))
  | function name =>
      rcases List.mem_append.mp member with inName | parenthesis
      · exact (mem_escapeIdentChars inName).imp_right (ofMark (by decide))
      · exact Or.inr (ofMark (by decide) (List.mem_singleton.mp parenthesis))
  | atKeyword name =>
      rcases List.mem_cons.mp member with atSign | inName
      · exact Or.inr (ofMark (by decide) atSign)
      · exact (mem_escapeIdentChars inName).imp_right (ofMark (by decide))
  | hash name kind =>
      rcases List.mem_cons.mp member with hash | inName
      · exact Or.inr (ofMark (by decide) hash)
      · exact (mem_escapeNameChars inName).imp_right (ofMark (by decide))
  | string value =>
      rcases mem_quoteChars member with inValue | backslash | quote
      · exact Or.inl inValue
      · exact Or.inr (ofMark (by decide) backslash)
      · exact Or.inr (ofMark (by decide) quote)
  | number numeral => exact Or.inl member
  | dimension numeral unit =>
      rcases List.mem_append.mp member with inNumeral | inUnit
      · exact Or.inl (List.mem_append_left _ inNumeral)
      · exact (mem_unitChars inUnit).imp (List.mem_append_right _) (ofMark (by decide))
  | delim char => exact Or.inl member
  | whitespace => exact absurd rfl notBlank
  | _ => exact Or.inr (ofMark (by decide) (List.mem_singleton.mp member))

end Members

/-- Normalising changes no character of a number. -/
theorem settled_of_isNumber
    {text : List Char}
    (isNumber : IsNumber text) :
    Settled text := by
  intro char member
  have known := mem_of_isNumber isNumber char member
  refine ⟨?_, ?_, ?_, ?_⟩ <;>
  · intro same
    rw [same] at known
    exact absurd known (by decide)

/-- Normalising changes no character that a token holds. -/
theorem settled_content
    (wellFormed : token.WellFormed) :
    Settled token.content := by
  cases token with
  | ident name => exact wellFormed.2
  | function name => exact wellFormed.2
  | atKeyword name => exact wellFormed.2
  | hash name kind => exact wellFormed.2
  | string value => exact wellFormed
  | number numeral => exact settled_of_isNumber wellFormed
  | dimension numeral unit =>
      exact List.forall_mem_append.mpr ⟨settled_of_isNumber wellFormed.1, wellFormed.2.2⟩
  | delim char => exact wellFormed.2
  | _ => exact List.forall_mem_nil _

/-- Normalising changes no character that a token is written with. -/
theorem settled_chars
    (wellFormed : token.WellFormed) :
    Settled token.chars := by
  have settledMarks : Settled marks := by
    decide
  intro char member
  by_cases blank : token = .whitespace
  · subst blank
    rw [List.mem_singleton.mp member]
    decide
  · rcases mem_chars blank member with kept | isMark
    · exact settled_content wellFormed char kept
    · exact settledMarks char isMark

/-- Normalising changes no character of written tokens. -/
theorem settled_listChars
    {tokens : List Token}
    (wellFormed : AllWellFormed tokens) :
    Settled (listChars tokens) := by
  intro char member
  obtain ⟨token, inTokens, written⟩ := List.mem_flatMap.mp member
  exact settled_chars (wellFormed token inTokens) char written

/-- Whatever is written for such tokens, no backslash stands in front of a line feed. -/
theorem not_startsBroken_listChars
    {tokens : List Token}
    (wellFormed : AllWellFormed tokens) :
    ¬ StartsBroken (listChars tokens) := by
  rintro ⟨later, shape⟩
  have settled := settled_listChars wellFormed '\n' (by rw [shape]; simp)
  exact settled.1 rfl

end Token

end TreeSelectors
