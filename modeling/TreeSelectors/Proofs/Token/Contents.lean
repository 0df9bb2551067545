import TreeSelectors.Proofs.Token.Spellings

namespace TreeSelectors

/-!
# What scanning takes from a text

The characters of a token that is read stand in the text in the same order, and
every backslash that is read has the character that it escapes behind it:
`Taken`. A comment takes up two stars that are part of no token, which is how a
text with comments is told from one without.
-/

open TreeSelectors.Text

namespace Lexer

/-- Whether every backslash, read from the left, has a character to escape. -/
def escapesClosed : List Char → Bool
  | [] => true
  | '\\' :: [] => false
  | '\\' :: _ :: rest => escapesClosed rest
  | _ :: rest => escapesClosed rest

/-- Behind an escape the rest decides whether all escapes are closed. -/
theorem escapesClosed_escaped
    (escaped : Char)
    (rest : List Char) :
    escapesClosed ('\\' :: escaped :: rest) = escapesClosed rest := by
  rw [escapesClosed]

/-- Behind a character that is no backslash the rest decides whether all escapes are closed. -/
theorem escapesClosed_plain
    {char : Char}
    (plain : char ≠ '\\')
    (rest : List Char) :
    escapesClosed (char :: rest) = escapesClosed rest := by
  rw [escapesClosed]
  · intro same
    exact absurd same plain
  · intro _ _ same
    exact absurd same plain

/-- A content that has been read from the front of a text, and what is left behind it. -/
structure Taken (text content behind : List Char) : Prop where
  sublist :
    (content ++ behind).Sublist text
  closed :
    escapesClosed text = escapesClosed behind

namespace Taken

variable {char : Char} {text middle rest content further behind : List Char}

/-- Taking nothing leaves the whole text. -/
theorem nothing
    (text : List Char) :
    Taken text [] text :=
  ⟨List.Sublist.refl text, rfl⟩

/-- A character can be passed over. -/
theorem skip
    (plain : char ≠ '\\')
    (taken : Taken rest content behind) :
    Taken (char :: rest) content behind :=
  ⟨taken.sublist.cons char, (escapesClosed_plain plain rest).trans taken.closed⟩

/-- A character can be taken into the content. -/
theorem keep
    (plain : char ≠ '\\')
    (taken : Taken rest content behind) :
    Taken (char :: rest) (char :: content) behind :=
  ⟨taken.sublist.cons_cons char, (escapesClosed_plain plain rest).trans taken.closed⟩

/-- An escape is passed over as a whole. -/
theorem skipEscape
    (taken : Taken rest content behind) :
    Taken ('\\' :: char :: rest) content behind :=
  ⟨(taken.sublist.cons char).cons _, (escapesClosed_escaped char rest).trans taken.closed⟩

/-- Of an escape the character is taken that it escapes. -/
theorem keepEscape
    (taken : Taken rest content behind) :
    Taken ('\\' :: char :: rest) (char :: content) behind :=
  ⟨(taken.sublist.cons_cons char).cons _, (escapesClosed_escaped char rest).trans taken.closed⟩

/-- What is taken twice, one behind the other, is taken together. -/
theorem andThen
    (first : Taken text content middle)
    (second : Taken middle further behind) :
    Taken text (content ++ further) behind := by
  refine ⟨?_, first.closed.trans second.closed⟩
  rw [List.append_assoc]
  exact (second.sublist.append_left content).trans first.sublist

/-- Characters of which none is a backslash are taken as they stand. -/
theorem plain
    (none : ∀ char ∈ content, char ≠ '\\')
    (behind : List Char) :
    Taken (content ++ behind) content behind := by
  induction content with
  | nil => exact nothing behind
  | cons char content inductionHypothesis =>
      obtain ⟨head, tail⟩ := List.forall_mem_cons.mp none
      exact keep head (inductionHypothesis tail)

end Taken

section Spellings

variable {text name value rest : List Char}

/-- The text of a name has the name as its content. -/
theorem taken_nameText
    (nameText : NameText text name)
    (rest : List Char) :
    Taken (text ++ rest) name rest := by
  induction nameText with
  | done => exact Taken.nothing rest
  | plain nameChar _ inductionHypothesis =>
      exact Taken.keep (ne_of_holds nameChar (by decide)) inductionHypothesis
  | escaped _ _ inductionHypothesis => exact Taken.keepEscape inductionHypothesis

/-- A name that is read holds no line break. -/
theorem noBreak_of_nameText
    (nameText : NameText text name) :
    NoBreak name := by
  induction nameText with
  | done => exact List.forall_mem_nil _
  | plain nameChar _ inductionHypothesis =>
      exact List.forall_mem_cons.mpr ⟨ne_of_holds nameChar (by decide), inductionHypothesis⟩
  | escaped notBreak _ inductionHypothesis =>
      exact List.forall_mem_cons.mpr ⟨notBreak, inductionHypothesis⟩

/-- The text of a string up to its quote has the value as its content. -/
theorem taken_stringText
    {quote : Char}
    (stringText : StringText quote text value)
    (rest : List Char) :
    Taken (text ++ rest) value rest := by
  induction stringText with
  | done => exact Taken.nothing rest
  | plain _ notBackslash _ _ inductionHypothesis =>
      exact Taken.keep notBackslash inductionHypothesis
  | joined _ inductionHypothesis => exact Taken.skipEscape inductionHypothesis
  | escaped _ _ inductionHypothesis => exact Taken.keepEscape inductionHypothesis

/-- The value of a string that is read holds no line break. -/
theorem noBreak_of_stringText
    {quote : Char}
    (stringText : StringText quote text value) :
    NoBreak value := by
  induction stringText with
  | done => exact List.forall_mem_nil _
  | plain _ _ notBreak _ inductionHypothesis =>
      exact List.forall_mem_cons.mpr ⟨notBreak, inductionHypothesis⟩
  | joined _ inductionHypothesis => exact inductionHypothesis
  | escaped notBreak _ inductionHypothesis =>
      exact List.forall_mem_cons.mpr ⟨notBreak, inductionHypothesis⟩

/-- The star that ends a comment. -/
theorem taken_commentText
    (commentText : CommentText text)
    (rest : List Char) :
    Taken (text ++ rest) ['*'] rest := by
  induction commentText with
  | closed => exact Taken.keep (by decide) (Taken.skip (by decide) (Taken.nothing rest))
  | hidden _ _ inductionHypothesis => exact Taken.skipEscape inductionHypothesis
  | plain notBackslash _ _ inductionHypothesis => exact Taken.skip notBackslash inductionHypothesis

/-- Blanks are passed over. -/
theorem taken_blanks
    (blanks : ∀ char ∈ text, isBlank char = true)
    (rest : List Char) :
    Taken (text ++ rest) [] rest := by
  induction text with
  | nil => exact Taken.nothing rest
  | cons char text inductionHypothesis =>
      obtain ⟨head, tail⟩ := List.forall_mem_cons.mp blanks
      exact Taken.skip (ne_of_holds head (by decide)) (inductionHypothesis tail)

/-- The text of a number is its own content. -/
theorem taken_isNumber
    (isNumber : IsNumber text)
    (rest : List Char) :
    Taken (text ++ rest) text rest := by
  refine Taken.plain (fun char member same => ?_) rest
  rw [same] at member
  exact absurd (mem_of_isNumber isNumber _ member) (by decide)

/-- A punctuation mark is a well-formed token without content. -/
theorem wellFormed_of_punctuation?
    {char : Char}
    {token : Token}
    (punctuation : punctuation? char = some token) :
    char ≠ '\\' ∧ token.content = [] ∧ token.WellFormed := by
  unfold punctuation? at punctuation
  split at punctuation <;> cases punctuation <;> exact ⟨by decide, rfl, trivial⟩

/-- What spells a token holds what the token keeps of it. -/
theorem taken_of_spelling
    {token : Token}
    (spelling : Spelling rest text token) :
    Taken (text ++ rest) token.content rest := by
  cases spelling with
  | whitespace blanks _ => exact taken_blanks blanks rest
  | ident spells _ _ =>
      rw [Token.content, String.toList_ofList]
      exact taken_nameText spells.nameText rest
  | function spells _ =>
      have parenthesis : Taken ('(' :: rest) [] rest :=
        Taken.skip (by decide) (Taken.nothing rest)
      rw [Token.content, String.toList_ofList, List.append_assoc]
      simpa using (taken_nameText spells.nameText _).andThen parenthesis
  | atKeyword spells =>
      rw [Token.content, String.toList_ofList]
      exact Taken.skip (by decide) (taken_nameText spells.nameText rest)
  | hash _ spells =>
      rw [Token.content, String.toList_ofList]
      exact Taken.skip (by decide) (taken_nameText spells.nameText rest)
  | @string quote text value isQuote stringText =>
      have notBackslash : quote ≠ '\\' := by
        rcases isQuote with same | same <;> subst same <;> decide
      have closing : Taken (quote :: rest) [] rest :=
        Taken.skip notBackslash (Taken.nothing rest)
      rw [Token.content, String.toList_ofList, List.cons_append, List.append_assoc]
      simpa using Taken.skip notBackslash ((taken_stringText stringText _).andThen closing)
  | number isNumber =>
      rw [Token.content, String.toList_ofList]
      exact taken_isNumber isNumber rest
  | dimension isNumber spells =>
      rw [Token.content, String.toList_ofList, String.toList_ofList, List.append_assoc]
      exact (taken_isNumber isNumber _).andThen (taken_nameText spells.nameText rest)
  | punctuation punctuation =>
      obtain ⟨notBackslash, noContent, _⟩ := wellFormed_of_punctuation? punctuation
      rw [noContent]
      exact Taken.skip notBackslash (Taken.nothing rest)
  | delim delim => exact Taken.keep (isDelim_cases delim).2.1 (Taken.nothing rest)

/-- The characters of a text whose line breaks have been unified. -/
def Unified (text : List Char) : Prop :=
  ∀ char ∈ text, char ≠ '\r' ∧ char ≠ '\x0C' ∧ char ≠ '\x00'

/-- A token has been cut off the front of a text. -/
structure Cut (text : List Char) (token : Token) (behind : List Char) : Prop where
  taken :
    Taken text token.content behind
  wellFormed :
    Unified text → token.WellFormed

/-- Content without line breaks that is taken of a unified text is settled. -/
theorem settled_of_taken
    {text content behind : List Char}
    (unified : Unified text)
    (taken : Taken text content behind)
    (noBreak : NoBreak content) :
    Settled content := by
  intro char member
  have inText := taken.sublist.subset (List.mem_append_left behind member)
  exact ⟨noBreak char member, unified char inText⟩

/-- What is left of a unified text is unified. -/
theorem unified_of_taken
    {text content behind : List Char}
    (unified : Unified text)
    (taken : Taken text content behind) :
    Unified behind :=
  fun char member => unified char (taken.sublist.subset (List.mem_append_right content member))

/-- No name that is spelt is empty. -/
theorem ne_nil_of_spellsName
    (spells : SpellsName text name rest) :
    name ≠ [] := by
  intro none
  subst none
  cases spells.nameText with
  | done => exact spells.nonempty rfl

/-- What a unified text spells is a token as it can be read. -/
theorem wellFormed_of_spelling
    {token : Token}
    (spelling : Spelling rest text token)
    (unified : Unified (text ++ rest)) :
    token.WellFormed := by
  have settled : NoBreak token.content → Settled token.content :=
    settled_of_taken unified (taken_of_spelling spelling)
  have ofName : ∀ {text name rest : List Char}, SpellsName text name rest →
      (String.ofList name).toList ≠ [] ∧ NoBreak (String.ofList name).toList := by
    intro text name rest spells
    rw [String.toList_ofList]
    exact ⟨ne_nil_of_spellsName spells, noBreak_of_nameText spells.nameText⟩
  cases spelling with
  | whitespace _ _ => trivial
  | ident spells _ _ => exact ⟨(ofName spells).1, settled (ofName spells).2⟩
  | function spells _ => exact ⟨(ofName spells).1, settled (ofName spells).2⟩
  | atKeyword spells => exact ⟨(ofName spells).1, settled (ofName spells).2⟩
  | hash _ spells => exact ⟨(ofName spells).1, settled (ofName spells).2⟩
  | string _ stringText =>
      refine settled ?_
      rw [Token.content, String.toList_ofList]
      exact noBreak_of_stringText stringText
  | number isNumber =>
      rw [Token.WellFormed, String.toList_ofList]
      exact isNumber
  | @dimension digits _ _ isNumber spells =>
      have numeral : IsNumber (String.ofList digits).toList := by
        rw [String.toList_ofList]
        exact isNumber
      have noBreak := List.forall_mem_append.mpr
        ⟨(Token.settled_of_isNumber numeral).noBreak, (ofName spells).2⟩
      exact ⟨numeral, (ofName spells).1, (List.forall_mem_append.mp (settled noBreak)).2⟩
  | punctuation punctuation => exact (wellFormed_of_punctuation? punctuation).2.2
  | delim delim =>
      refine ⟨delim, settled (List.forall_mem_singleton.mpr fun isBreak => ?_)⟩
      have notBlank := (isDelim_cases delim).1.1
      rw [isBreak] at notBlank
      exact absurd notBlank (by decide)

end Spellings

section Steps

variable {char : Char} {rest : List Char}

/-- A token that a step reads is cut off the front of the text. -/
theorem cut_step
    {token : Token}
    (read : (step char rest).outcome = .ok (some token)) :
    Cut (char :: rest) token (step char rest).rest := by
  obtain ⟨front, shape, _, spelling⟩ := spells_step read
  rw [shape]
  exact ⟨taken_of_spelling spelling, wellFormed_of_spelling spelling⟩

/-- A comment takes up two stars. -/
theorem taken_step_comment
    (read : (step char rest).outcome = .ok none) :
    Taken (char :: rest) ['*', '*'] (step char rest).rest := by
  obtain ⟨front, shape, commentText⟩ := commentText_of_step read
  rw [shape]
  exact Taken.skip (by decide) (Taken.keep (by decide) (taken_commentText commentText _))

end Steps

end Lexer

end TreeSelectors
