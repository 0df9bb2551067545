import TreeSelectors.Token.ScanProgress

namespace TreeSelectors.Lexer

/-!
# Names, written and read

A name that has been written is read back from whatever text it stands in, and
reading goes on where the name ended if the text behind it does not go on with
it: `scanName_escapeNameChars`, `scanName_escapeIdentChars`.

A line feed cannot be part of a name, for a backslash does not escape it.
-/

open TreeSelectors.Text

-- Decided on the characters of the text, not on all that there are.
instance decidableForallMem
    (text : List Char)
    (property : Char → Prop)
    [DecidablePred property] :
    Decidable (∀ char ∈ text, property char) :=
  List.decidableBAll property text

/-- A character with a property is none of those without it. -/
theorem ne_of_holds
    {property : Char → Bool}
    {char other : Char}
    (holds : property char = true)
    (fails : property other = false) :
    char ≠ other := by
  intro same
  rw [same, fails] at holds
  exact absurd holds (by simp)

/-- The text behind a name does not go on with it. -/
def endsName : List Char → Bool
  | [] => true
  | char :: _ => !isNameChar char && char != '\\'

/-- No line feed among the characters of a name. -/
def NoBreak (name : List Char) : Prop :=
  ∀ char ∈ name, char ≠ '\n'

namespace NoBreak

theorem head
    {char : Char}
    {rest : List Char}
    (noBreak : NoBreak (char :: rest)) :
    char ≠ '\n' :=
  noBreak char List.mem_cons_self

theorem tail
    {char : Char}
    {rest : List Char}
    (noBreak : NoBreak (char :: rest)) :
    NoBreak rest :=
  fun other member => noBreak other (List.mem_cons_of_mem char member)

end NoBreak

/-- One step of reading a name, whatever stands behind the first character. -/
theorem scanName_cons
    (char : Char)
    (rest : List Char) :
    scanName (char :: rest) =
      if isNameChar char then
        (scanName rest).map (char :: ·)
      else if char == '\\' then
        match rest with
        | [] => ⟨.error .unterminatedEscape, []⟩
        | escaped :: others =>
            if escaped == '\n' then ⟨.ok [], char :: rest⟩
            else (scanName others).map (escaped :: ·)
      else
        ⟨.ok [], char :: rest⟩ :=
  (scanName.eq_def (char :: rest)).trans rfl

/-- Where a name ends, nothing more is read of it. -/
theorem scanName_of_endsName
    {text : List Char}
    (ends : endsName text = true) :
    scanName text = ⟨.ok [], text⟩ := by
  cases text with
  | nil => rfl
  | cons char rest =>
      simp only [endsName, Bool.and_eq_true, Bool.not_eq_true', bne_iff_ne, ne_eq] at ends
      simp [scanName_cons, ends.1, ends.2]

/-- A changed scan succeeds exactly if the scan does, with the changed value. -/
theorem Scan.outcome_map_eq_ok
    {α β : Type}
    {transform : α → β}
    {scan : Scan α}
    {result : β} :
    (scan.map transform).outcome = .ok result ↔
      ∃ value, scan.outcome = .ok value ∧ transform value = result := by
  obtain ⟨outcome, rest⟩ := scan
  cases outcome <;> simp [Scan.map, Except.map]

theorem map_nil_append
    (scan : Scan (List Char)) :
    scan.map (fun name => [] ++ name) = scan := by
  obtain ⟨outcome, rest⟩ := scan
  cases outcome <;> rfl

/-- A character in front of a part of a name is a longer part of it. -/
theorem map_cons_append
    (char : Char)
    (name : List Char)
    (scan : Scan (List Char)) :
    (scan.map (name ++ ·)).map (char :: ·) = scan.map ((char :: name) ++ ·) := by
  obtain ⟨outcome, rest⟩ := scan
  cases outcome <;> rfl

/-- An escaped character belongs to the name. -/
theorem scanName_escaped
    {char : Char}
    (notBreak : char ≠ '\n')
    (rest : List Char) :
    scanName ('\\' :: char :: rest) = (scanName rest).map (char :: ·) := by
  simp [scanName_cons, isNameChar_backslash, notBreak]

/-- A character of a name is read as it stands. -/
theorem scanName_nameChar
    {char : Char}
    (nameChar : isNameChar char = true)
    (rest : List Char) :
    scanName (char :: rest) = (scanName rest).map (char :: ·) := by
  simp [scanName_cons, nameChar]

/-- What has been written for a name is read, and reading goes on behind it. -/
theorem scanName_escapeNameChars
    {name : List Char}
    (noBreak : NoBreak name)
    (rest : List Char) :
    scanName (escapeNameChars name ++ rest) = (scanName rest).map (name ++ ·) := by
  induction name with
  | nil =>
      exact (map_nil_append _).symm
  | cons char name inductionHypothesis =>
      have later := inductionHypothesis noBreak.tail
      rw [escapeNameChars_cons, escapeNameChar, List.append_assoc]
      split
      · next nameChar =>
          rw [List.singleton_append, scanName_nameChar nameChar, later, map_cons_append]
      · rw [List.cons_append, List.singleton_append, scanName_escaped noBreak.head, later,
          map_cons_append]

/-- Where a first character stands unescaped it belongs to names. -/
theorem isNameChar_of_startsUnescaped
    {first : Char}
    {others : List Char}
    (unescaped : startsUnescaped first others = true) :
    isNameChar first = true := by
  simp only [startsUnescaped, Bool.or_eq_true, Bool.and_eq_true, beq_iff_eq] at unescaped
  rcases unescaped with starts | ⟨hyphen, _⟩
  · exact isNameChar_of_isNameStart starts
  · subst hyphen
    decide

/-- An escaped identifier is read back as the start of the name that goes on behind it. -/
theorem scanName_escapeIdentChars
    {name : List Char}
    (noBreak : NoBreak name)
    (rest : List Char) :
    scanName (escapeIdentChars name ++ rest) = (scanName rest).map (name ++ ·) := by
  cases name with
  | nil =>
      exact (map_nil_append _).symm
  | cons first others =>
      have later := scanName_escapeNameChars noBreak.tail rest
      rw [escapeIdentChars, List.append_assoc]
      split
      · next unescaped =>
          rw [List.singleton_append, scanName_nameChar (isNameChar_of_startsUnescaped unescaped),
            later, map_cons_append]
      · rw [List.cons_append, List.singleton_append, scanName_escaped noBreak.head, later,
          map_cons_append]

/-- Nothing more is read of a name only where the text does not go on with it. -/
theorem of_scanName_nil
    {text : List Char}
    (read : (scanName text).outcome = .ok []) :
    (scanName text).rest = text ∧
      (endsName text = true ∨ ∃ later, text = '\\' :: '\n' :: later) := by
  cases text with
  | nil =>
      exact ⟨rfl, Or.inl rfl⟩
  | cons char others =>
      by_cases nameChar : isNameChar char = true
      · rw [scanName_nameChar nameChar] at read
        cases later : (scanName others).outcome <;> simp [Scan.map, later, Except.map] at read
      · by_cases backslash : char = '\\'
        · subst backslash
          cases others with
          | nil => simp [scanName_cons, isNameChar_backslash] at read
          | cons escaped others =>
              by_cases isBreak : escaped = '\n'
              · subst isBreak
                exact ⟨by simp [scanName_cons, isNameChar_backslash], Or.inr ⟨others, rfl⟩⟩
              · rw [scanName_escaped isBreak] at read
                cases later : (scanName others).outcome <;>
                  simp [Scan.map, later, Except.map] at read
        · have ends : endsName (char :: others) = true := by
            simp [endsName, nameChar, backslash]
          exact ⟨by rw [scanName_of_endsName ends], Or.inl ends⟩

/-! What a written identifier starts with, and what it therefore is not taken for. -/

/-- Letters by their numbers. -/
theorem isAlpha_iff
    {char : Char} :
    char.isAlpha = true ↔
      (65 ≤ char.toNat ∧ char.toNat ≤ 90) ∨ (97 ≤ char.toNat ∧ char.toNat ≤ 122) := by
  change (decide ('A'.val ≤ char.val ∧ char.val ≤ 'Z'.val) ||
    (decide ('a'.val ≤ char.val) && decide (char.val ≤ 'z'.val))) = true ↔ _
  simp only [Bool.or_eq_true, Bool.and_eq_true, decide_eq_true_eq, UInt32.le_iff_toNat_le]
  exact Iff.rfl

/-- No digit starts a name. -/
theorem not_isDigit_of_isNameStart
    {char : Char}
    (starts : isNameStart char = true) :
    char.isDigit = false := by
  rw [Bool.eq_false_iff]
  intro digit
  simp only [Char.isDigit, Bool.and_eq_true, decide_eq_true_eq, ge_iff_le,
    UInt32.le_iff_toNat_le] at digit
  simp only [isNameStart, isAlpha_iff, Bool.or_eq_true, decide_eq_true_eq, beq_iff_eq]
    at starts
  rcases starts with (letter | underscore) | high
  · simp at digit
    omega
  · subst underscore
    exact absurd digit (by decide)
  · simp at digit
    omega

/-- A written name starts with a character of names or with an escape. -/
theorem startsNameChar_escapeNameChars
    {name : List Char}
    (nonempty : name ≠ [])
    (noBreak : NoBreak name)
    (rest : List Char) :
    startsNameChar (escapeNameChars name ++ rest) = true := by
  obtain ⟨first, others, shape⟩ := List.exists_cons_of_ne_nil nonempty
  subst shape
  rw [escapeNameChars_cons, escapeNameChar, List.append_assoc]
  split
  · next nameChar =>
      simp [startsNameChar, nameChar]
  · simp [startsNameChar, startsEscape, noBreak.head]

/-- A hyphen stands unescaped where something other than a digit follows it. -/
theorem startsUnescaped_cases
    {first : Char}
    {others : List Char}
    (unescaped : startsUnescaped first others = true) :
    isNameStart first = true ∨
      first = '-' ∧ ∃ second more, others = second :: more ∧ second.isDigit = false := by
  simp only [startsUnescaped, Bool.or_eq_true, Bool.and_eq_true, beq_iff_eq] at unescaped
  rcases unescaped with starts | ⟨hyphen, apart⟩
  · exact Or.inl starts
  · cases others with
    | nil => simp at apart
    | cons second more => exact Or.inr ⟨hyphen, second, more, rfl, by simpa using apart⟩

/-- A character that starts names starts an identifier. -/
theorem startsIdent_of_isNameStart
    {char : Char}
    (starts : isNameStart char = true)
    (rest : List Char) :
    startsIdent (char :: rest) = true := by
  have notHyphen : char ≠ '-' := ne_of_holds starts (by decide)
  simp [startsIdent, notHyphen, starts]

/-- A written identifier starts one, whatever stands behind it. -/
theorem startsIdent_escapeIdentChars
    {name : List Char}
    (nonempty : name ≠ [])
    (noBreak : NoBreak name)
    (rest : List Char) :
    startsIdent (escapeIdentChars name ++ rest) = true := by
  obtain ⟨first, others, shape⟩ := List.exists_cons_of_ne_nil nonempty
  subst shape
  rw [escapeIdentChars, List.append_assoc]
  split
  · next unescaped =>
      rcases startsUnescaped_cases unescaped with
        starts | ⟨hyphen, second, more, shape, notDigit⟩
      · have notHyphen : first ≠ '-' := ne_of_holds starts (by decide)
        simp [startsIdent, notHyphen, starts]
      · subst hyphen
        subst shape
        rw [escapeNameChars_cons, escapeNameChar]
        split
        · next nameChar =>
            simp only [isNameChar, notDigit, Bool.or_false, Bool.or_eq_true, beq_iff_eq] at nameChar
            rcases nameChar with starts | hyphen
            · simp [startsIdent, starts]
            · simp [startsIdent, hyphen]
        · simp [startsIdent, startsEscape, noBreak.tail.head]
  · simp [startsIdent, startsEscape, noBreak.head]

/-- Unless a point comes first, a number starts with a digit. -/
theorem startsUnsignedNumber_cons
    {char : Char}
    (notPoint : char ≠ '.')
    (rest : List Char) :
    startsUnsignedNumber (char :: rest) = char.isDigit := by
  unfold startsUnsignedNumber
  split
  · next shape => exact absurd (List.cons.inj shape).1 notPoint
  · rfl

/-- A character that starts names starts no number. -/
theorem startsNumber_of_isNameStart
    {char : Char}
    (starts : isNameStart char = true)
    (rest : List Char) :
    startsNumber (char :: rest) = false := by
  unfold startsNumber
  split
  · next shape =>
      rw [(List.cons.inj shape).1] at starts
      exact absurd starts (by decide)
  · next shape =>
      rw [(List.cons.inj shape).1] at starts
      exact absurd starts (by decide)
  · have notPoint : char ≠ '.' := ne_of_holds starts (by decide)
    rw [startsUnsignedNumber_cons notPoint, not_isDigit_of_isNameStart starts]

/-- A written identifier is not taken for a number. -/
theorem startsNumber_escapeIdentChars
    {name : List Char}
    (nonempty : name ≠ [])
    (rest : List Char) :
    startsNumber (escapeIdentChars name ++ rest) = false := by
  obtain ⟨first, others, shape⟩ := List.exists_cons_of_ne_nil nonempty
  subst shape
  rw [escapeIdentChars, List.append_assoc]
  split
  · next unescaped =>
      rcases startsUnescaped_cases unescaped with
        starts | ⟨hyphen, second, more, shape, notDigit⟩
      · exact startsNumber_of_isNameStart starts _
      · subst hyphen
        subst shape
        rw [escapeNameChars_cons, escapeNameChar]
        split
        · next nameChar =>
            have notPoint : second ≠ '.' := ne_of_holds nameChar (by decide)
            simp [startsNumber, startsUnsignedNumber_cons notPoint, notDigit]
        · simp [startsNumber, startsUnsignedNumber, startsDigit]
  · rfl

/-! How the character in front decides what is scanned. -/

/-- The characters that decide on their own what is scanned. -/
def decisive : List Char :=
  [' ', '\t', '\n', doubleQuote, apostrophe, '#', '@', '\\', '/']

/-- Only a slash can start a comment. -/
theorem step_of_ne_slash
    {char : Char}
    (notSlash : char ≠ '/')
    (rest : List Char) :
    step char rest = (scanToken char rest).map some := by
  unfold step
  split
  · exact absurd rfl notSlash
  · rfl

/-- Behind any other character numbers come before names, and names before single characters. -/
theorem scanToken_of_notMem
    {char : Char}
    (ordinary : char ∉ decisive)
    (rest : List Char) :
    scanToken char rest =
      if startsNumber (char :: rest) then scanNumeric (char :: rest)
      else if startsIdent (char :: rest) then scanIdentLike (char :: rest)
      else ⟨.ok ((punctuation? char).getD (.delim char)), rest⟩ := by
  simp only [decisive, List.mem_cons, List.not_mem_nil, or_false, not_or] at ordinary
  obtain ⟨space, tab, feed, quote, single, hash, atSign, backslash, _⟩ := ordinary
  simp only [scanToken, isBlank, beq_false_of_ne space, beq_false_of_ne tab, beq_false_of_ne feed,
    beq_false_of_ne quote, beq_false_of_ne single, beq_false_of_ne hash, beq_false_of_ne atSign,
    beq_false_of_ne backslash, Bool.or_false, Bool.false_eq_true, if_false]
  cases punctuation? char <;> rfl

/-- A character that decides nothing starts a token. -/
theorem step_of_notMem
    {char : Char}
    (ordinary : char ∉ decisive)
    (rest : List Char) :
    step char rest = (scanToken char rest).map some := by
  refine step_of_ne_slash ?_ rest
  intro same
  subst same
  exact ordinary (by decide)

/-- A property that no decisive character has is one of other characters. -/
theorem notMem_decisive
    {property : Char → Bool}
    (none : ∀ special ∈ decisive, property special = false)
    {char : Char}
    (holds : property char = true) :
    char ∉ decisive := by
  intro member
  rw [none char member] at holds
  exact absurd holds (by simp)

/-- A text that starts with an identifier and not with a number is scanned as one. -/
theorem step_of_startsIdent
    {char : Char}
    {rest : List Char}
    (ident : startsIdent (char :: rest) = true)
    (notNumber : startsNumber (char :: rest) = false) :
    step char rest = (scanIdentLike (char :: rest)).map some := by
  have ordinaryCase : char ∉ decisive →
      step char rest = (scanIdentLike (char :: rest)).map some := by
    intro ordinary
    rw [step_of_notMem ordinary, scanToken_of_notMem ordinary, notNumber, ident]
    rfl
  by_cases hyphen : char = '-'
  · exact ordinaryCase (by rw [hyphen]; decide)
  · by_cases starts : isNameStart char = true
    · exact ordinaryCase (notMem_decisive (by decide) starts)
    · have escape : startsEscape (char :: rest) = true := by
        simpa [startsIdent, hyphen, starts] using ident
      have backslash : char = '\\' := by
        unfold startsEscape at escape
        split at escape
        · next shape => exact (List.cons.inj shape).1
        · exact absurd escape (by simp)
      subst backslash
      rw [step_of_ne_slash (by decide), scanToken, if_neg (by decide), if_neg (by decide),
        if_neg (by decide), if_neg (by decide), if_pos (by decide), if_pos escape]

end TreeSelectors.Lexer
