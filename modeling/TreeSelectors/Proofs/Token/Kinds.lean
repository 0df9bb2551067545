import TreeSelectors.Proofs.Token.Numbers
import TreeSelectors.Token.Printer

namespace TreeSelectors

/-!
# Tokens of every kind, written and read

What is written for a token is the start of a text. Kind by kind, this is when
that text starts with the token again, and what is left behind it.
-/

open TreeSelectors.Text
open TreeSelectors.Lexer

namespace Lexer

/-- The token at the start of a text and what stands behind it, if no comment or failure comes. -/
def token? : List Char → Option (Token × List Char)
  | [] => none
  | char :: rest =>
      match step char rest with
      | ⟨.ok (some token), behind⟩ => some (token, behind)
      | _ => none

/-- The characters that a text keeps when its line breaks are unified. -/
def Settled (text : List Char) : Prop :=
  ∀ char ∈ text, char ≠ '\n' ∧ char ≠ '\r' ∧ char ≠ '\x0C' ∧ char ≠ '\x00'

instance (text : List Char) : Decidable (Settled text) :=
  inferInstanceAs (Decidable (∀ char ∈ text,
    char ≠ '\n' ∧ char ≠ '\r' ∧ char ≠ '\x0C' ∧ char ≠ '\x00'))

/-- A settled text holds no line feed. -/
theorem Settled.noBreak
    {text : List Char}
    (settled : Settled text) :
    NoBreak text :=
  fun char member => (settled char member).1

/-- The characters that can be tokens of no other kind. -/
def isDelim (char : Char) : Bool :=
  !(isBlank char || char == doubleQuote || char == apostrophe || char == '\\' ||
    isNameStart char || char.isDigit || (punctuation? char).isSome)

end Lexer

namespace Token

/-- The kind that a written `#` name is read back with. -/
def hashKind (name : String) : HashKind :=
  if startsIdent (escapeNameChars name.toList) then .identifier else .unrestricted

/-- Whether a delimiter and the text behind it make up nothing else. -/
def delimStandsApart (char : Char) (text : List Char) : Bool :=
  !startsNumber (char :: text) && !startsIdent (char :: text) &&
    match char with
    | '#' => !startsNameChar text
    | '@' => !startsIdent text
    | '/' => text.head? != some '*'
    | _ => true

end Token

namespace Lexer

/-- A line feed behind a backslash, which is no escape. -/
def StartsBroken (text : List Char) : Prop :=
  ∃ later, text = '\\' :: '\n' :: later

/-- A step that makes a token of what a scan gives. -/
theorem token?_of_step
    {α : Type}
    {char : Char}
    {rest behind : List Char}
    {scan : Scan α}
    {make : α → Token}
    (stepped : step char rest = (scan.map make).map some)
    {token : Token} :
    token? (char :: rest) = some (token, behind) ↔
      ∃ value, scan = ⟨.ok value, behind⟩ ∧ make value = token := by
  rw [token?, stepped]
  obtain ⟨outcome, left⟩ := scan
  cases outcome with
  | error error => simp [Scan.map, Except.map]
  | ok value =>
      simp only [Scan.map, Except.map, Option.some.injEq, Prod.mk.injEq, Scan.mk.injEq,
        Except.ok.injEq]
      constructor
      · rintro ⟨same, kept⟩
        exact ⟨value, ⟨rfl, kept⟩, same⟩
      · rintro ⟨_, ⟨rfl, kept⟩, same⟩
        exact ⟨same, kept⟩

theorem ofList_eq_iff
    {chars : List Char}
    {text : String} :
    String.ofList chars = text ↔ chars = text.toList := by
  constructor
  · intro same
    rw [← same, String.toList_ofList]
  · intro same
    rw [same, String.ofList_toList]

section Names

variable {name : List Char} {text rest behind : List Char}

/-- A name is read as such exactly if no parenthesis stands behind it. -/
theorem scanIdentLike_eq_ident_iff
    {word : String} :
    scanIdentLike text = ⟨.ok (.ident word), behind⟩ ↔
      scanName text = ⟨.ok word.toList, behind⟩ ∧ behind.head? ≠ some '(' := by
  unfold scanIdentLike
  obtain ⟨outcome, left⟩ := scanName text
  cases outcome with
  | error error => simp
  | ok found =>
      by_cases parenthesis : ∃ others, left = '(' :: others
      · obtain ⟨others, shape⟩ := parenthesis
        subst shape
        simp only [Scan.mk.injEq, Except.ok.injEq, reduceCtorEq, false_and, false_iff, not_and]
        rintro ⟨_, same⟩
        simp [← same]
      · have noParenthesis : left.head? ≠ some '(' := by
          intro first
          obtain ⟨others, shape⟩ := List.head?_eq_some_iff.mp first
          exact parenthesis ⟨others, shape⟩
        split
        · next shape => cases shape
        · next shape => exact absurd ⟨_, (Scan.mk.inj shape).2⟩ parenthesis
        · next shape =>
            obtain ⟨same, kept⟩ := Scan.mk.inj shape
            cases same
            subst kept
            simp only [Scan.mk.injEq, Except.ok.injEq, Token.ident.injEq]
            constructor
            · rintro ⟨same, kept⟩
              rw [← same, ← kept]
              exact ⟨⟨by simp, rfl⟩, noParenthesis⟩
            · rintro ⟨⟨same, kept⟩, _⟩
              exact ⟨by rw [same]; simp, kept⟩

/-- A name is read as a function exactly if a parenthesis stands behind it. -/
theorem scanIdentLike_eq_function_iff
    {word : String} :
    scanIdentLike text = ⟨.ok (.function word), behind⟩ ↔
      scanName text = ⟨.ok word.toList, '(' :: behind⟩ := by
  unfold scanIdentLike
  obtain ⟨outcome, left⟩ := scanName text
  cases outcome with
  | error error => simp
  | ok found =>
      split
      · next shape => cases shape
      · next shape =>
          obtain ⟨same, kept⟩ := Scan.mk.inj shape
          cases same
          subst kept
          simp only [Scan.mk.injEq, Except.ok.injEq, Token.function.injEq, List.cons.injEq,
            true_and]
          refine and_congr_left' ⟨fun same => by rw [← same]; simp,
            fun same => by rw [same]; simp⟩
      · next notParenthesis shape =>
          obtain ⟨same, kept⟩ := Scan.mk.inj shape
          cases same
          subst kept
          simp only [Scan.mk.injEq, Except.ok.injEq, reduceCtorEq, false_and, false_iff, not_and]
          intro _ same
          exact notParenthesis _ same

/-- A written identifier goes through the scan of names, whatever stands behind it. -/
theorem token?_escapeIdentChars
    (nonempty : name ≠ [])
    (noBreak : NoBreak name)
    {token : Token} :
    token? (escapeIdentChars name ++ rest) = some (token, behind) ↔
      scanIdentLike (escapeIdentChars name ++ rest) = ⟨.ok token, behind⟩ := by
  have ident := startsIdent_escapeIdentChars nonempty noBreak rest
  have notNumber := startsNumber_escapeIdentChars nonempty rest
  generalize escapeIdentChars name ++ rest = text at ident notNumber
  cases text with
  | nil => exact absurd ident (by simp [startsIdent])
  | cons char others =>
      rw [token?, step_of_startsIdent ident notNumber]
      obtain ⟨outcome, left⟩ := scanIdentLike (char :: others)
      cases outcome with
      | error error => simp [Scan.map, Except.map]
      | ok found => simp [Scan.map, Except.map]

/-- A name is read back alone exactly if the text behind does not go on with it. -/
theorem map_scanName_iff
    (unbroken : ¬ StartsBroken rest) :
    (scanName rest).map (name ++ ·) = ⟨.ok name, behind⟩ ↔
      endsName rest = true ∧ behind = rest := by
  constructor
  · intro read
    have outcome : ((scanName rest).map (name ++ ·)).outcome = .ok name := by
      rw [read]
    obtain ⟨more, readMore, shape⟩ := Scan.outcome_map_eq_ok.mp outcome
    have none : more = [] := by
      simpa using shape
    subst none
    obtain ⟨kept, ends⟩ := of_scanName_nil readMore
    have left : (scanName rest).rest = behind := congrArg Scan.rest read
    exact ⟨ends.resolve_right unbroken, left.symm.trans kept⟩
  · rintro ⟨ends, same⟩
    rw [scanName_of_endsName ends, same]
    simp [Scan.map, Except.map]

end Names

section Kinds

variable {rest behind : List Char}

/-- A written name is read back exactly if what follows ends it and is no parenthesis. -/
theorem token?_ident_iff
    {name : String}
    (nonempty : name.toList ≠ [])
    (noBreak : NoBreak name.toList)
    (unbroken : ¬ StartsBroken rest) :
    token? (escapeIdentChars name.toList ++ rest) = some (.ident name, behind) ↔
      (endsName rest = true ∧ rest.head? ≠ some '(') ∧ behind = rest := by
  rw [token?_escapeIdentChars nonempty noBreak, scanIdentLike_eq_ident_iff,
    scanName_escapeIdentChars noBreak, map_scanName_iff unbroken]
  constructor
  · rintro ⟨⟨ends, same⟩, noParenthesis⟩
    exact ⟨⟨ends, same ▸ noParenthesis⟩, same⟩
  · rintro ⟨⟨ends, noParenthesis⟩, same⟩
    exact ⟨⟨ends, same⟩, same ▸ noParenthesis⟩

/-- A written function is read back before any text. -/
theorem token?_function
    {name : String}
    (nonempty : name.toList ≠ [])
    (noBreak : NoBreak name.toList) :
    token? (escapeIdentChars name.toList ++ '(' :: rest) = some (.function name, rest) := by
  rw [token?_escapeIdentChars nonempty noBreak, scanIdentLike_eq_function_iff,
    scanName_escapeIdentChars noBreak, scanName_of_endsName (by rfl)]
  simp [Scan.map, Except.map]

/-- A written at-keyword is read back exactly if what follows ends its name. -/
theorem token?_atKeyword_iff
    {name : String}
    (nonempty : name.toList ≠ [])
    (noBreak : NoBreak name.toList)
    (unbroken : ¬ StartsBroken rest) :
    token? ('@' :: (escapeIdentChars name.toList ++ rest)) = some (.atKeyword name, behind) ↔
      endsName rest = true ∧ behind = rest := by
  have ident := startsIdent_escapeIdentChars nonempty noBreak rest
  have stepped : step '@' (escapeIdentChars name.toList ++ rest) =
      ((scanName (escapeIdentChars name.toList ++ rest)).map
        fun name => Token.atKeyword (String.ofList name)).map some := by
    rw [step_of_ne_slash (by decide), scanToken, if_neg (by decide), if_neg (by decide),
      if_neg (by decide), if_pos (by decide), scanAtKeyword, if_pos ident]
  rw [token?_of_step stepped, scanName_escapeIdentChars noBreak]
  simp only [Token.atKeyword.injEq, ofList_eq_iff, exists_eq_right]
  exact map_scanName_iff unbroken

/-- The kind behind a `#` depends on nothing behind the name. -/
theorem startsIdent_escapeNameChars_append
    {name : List Char}
    (nonempty : name ≠ [])
    (ends : endsName rest = true) :
    startsIdent (escapeNameChars name ++ rest) = startsIdent (escapeNameChars name) := by
  have plain : ∀ {char : Char}, isNameChar char = true → ∀ text,
      startsEscape (char :: text) = false := by
    intro char nameChar text
    unfold startsEscape
    split
    · next shape =>
        rw [(List.cons.inj shape).1] at nameChar
        exact absurd nameChar (by decide)
    · rfl
  obtain ⟨first, others, shape⟩ := List.exists_cons_of_ne_nil nonempty
  subst shape
  rw [escapeNameChars_cons, escapeNameChar]
  by_cases nameChar : isNameChar first = true
  · simp only [if_pos nameChar, List.cons_append, startsIdent, plain nameChar]
    cases others with
    | nil =>
        cases rest with
        | nil => rfl
        | cons char later =>
            simp only [endsName, Bool.and_eq_true, Bool.not_eq_true', bne_iff_ne, ne_eq] at ends
            have noEscape : startsEscape (char :: later) = false := by
              unfold startsEscape
              split
              · next shape => exact absurd (List.cons.inj shape).1 ends.2
              · rfl
            have parts := ends.1
            simp only [isNameChar, Bool.or_eq_false_iff] at parts
            simp only [escapeNameChars_nil, List.nil_append, noEscape, parts.1.1, parts.2]
            rfl
    | cons second more =>
        rw [escapeNameChars_cons, escapeNameChar]
        by_cases secondName : isNameChar second = true
        · simp [secondName, plain secondName]
        · simp [secondName, startsEscape]
  · rw [if_neg nameChar]
    simp [startsIdent, startsEscape]

/-- A written hash is read back exactly if what follows ends its name and its kind is the name's. -/
theorem token?_hash_iff
    {name : String}
    {kind : HashKind}
    (nonempty : name.toList ≠ [])
    (noBreak : NoBreak name.toList)
    (unbroken : ¬ StartsBroken rest) :
    token? ('#' :: (escapeNameChars name.toList ++ rest)) = some (.hash name kind, behind) ↔
      (endsName rest = true ∧ kind = Token.hashKind name) ∧ behind = rest := by
  have starts := startsNameChar_escapeNameChars nonempty noBreak rest
  have stepped : step '#' (escapeNameChars name.toList ++ rest) =
      ((scanName (escapeNameChars name.toList ++ rest)).map
        fun found => Token.hash (String.ofList found)
          (if startsIdent (escapeNameChars name.toList ++ rest) then .identifier
            else .unrestricted)).map some := by
    rw [step_of_ne_slash (by decide), scanToken, if_neg (by decide), if_neg (by decide),
      if_pos (by decide), scanHash, if_pos starts]
  rw [token?_of_step stepped, scanName_escapeNameChars noBreak]
  constructor
  · rintro ⟨value, read, same⟩
    simp only [Token.hash.injEq, ofList_eq_iff] at same
    obtain ⟨whole, kindSame⟩ := same
    rw [whole, map_scanName_iff unbroken] at read
    rw [startsIdent_escapeNameChars_append nonempty read.1] at kindSame
    exact ⟨⟨read.1, kindSame.symm⟩, read.2⟩
  · rintro ⟨⟨ends, kindSame⟩, same⟩
    refine ⟨name.toList, (map_scanName_iff unbroken).mpr ⟨ends, same⟩, ?_⟩
    rw [startsIdent_escapeNameChars_append nonempty ends, kindSame]
    simp [Token.hashKind]

/-- What has been quoted is read up to the closing quote. -/
theorem scanString_quoteChars
    {value : List Char}
    (noBreak : NoBreak value)
    (read : List Char) :
    scanString doubleQuote read (value.flatMap quoteChar ++ doubleQuote :: rest) =
      ⟨.ok (read.reverse ++ value), rest⟩ := by
  induction value generalizing read with
  | nil => simp [scanString.eq_def]
  | cons char value inductionHypothesis =>
      have later := inductionHypothesis noBreak.tail (char :: read)
      have notBreak := noBreak.head
      rw [List.flatMap_cons, quoteChar, List.append_assoc]
      split
      · rw [List.cons_append, List.singleton_append, scanString.eq_def]
        simp only [show ('\\' == doubleQuote) = false by decide,
          show ('\\' == '\n') = false by decide,
          beq_false_of_ne notBreak, Bool.false_eq_true, if_false, beq_self_eq_true, if_true, later]
        simp
      · next plain =>
          simp only [Bool.or_eq_true, beq_iff_eq, not_or] at plain
          rw [List.singleton_append, scanString.eq_def]
          simp [plain.1, plain.2, notBreak, later]

/-- A written string is read back before any text. -/
theorem token?_string
    {value : String}
    (noBreak : NoBreak value.toList) :
    token? (quoteChars value.toList ++ rest) = some (.string value, rest) := by
  have stepped : step doubleQuote (value.toList.flatMap quoteChar ++ doubleQuote :: rest) =
      ((scanString doubleQuote [] (value.toList.flatMap quoteChar ++ doubleQuote :: rest)).map
        fun found => Token.string (String.ofList found)).map some := by
    rw [step_of_ne_slash (by decide), scanToken, if_neg (by decide), if_pos (by decide)]
  have shape : quoteChars value.toList ++ rest =
      doubleQuote :: (value.toList.flatMap quoteChar ++ doubleQuote :: rest) := by
    simp [quoteChars]
  rw [shape, token?_of_step stepped, scanString_quoteChars noBreak]
  simp

/-- A written number is read back exactly if what follows neither goes on with it nor is a unit. -/
theorem token?_number_iff
    {numeral : Numeral}
    (isNumber : IsNumber numeral.text.toList) :
    token? (numeral.text.toList ++ rest) = some (.number numeral, behind) ↔
      (splitNumber (numeral.text.toList ++ rest) = (numeral.text.toList, rest) ∧
        startsIdent rest = false) ∧ behind = rest := by
  have starts := startsNumber_of_isNumber isNumber rest
  have whole := splitNumber_append (numeral.text.toList ++ rest)
  obtain ⟨first, others, shape⟩ := List.exists_cons_of_ne_nil (ne_nil_of_isNumber isNumber)
  rw [shape, List.cons_append] at starts whole ⊢
  rw [token?, step_of_startsNumber starts, scanNumeric]
  cases split : splitNumber (first :: (others ++ rest)) with
  | mk digits left =>
      rw [split] at whole
      by_cases ident : startsIdent left = true
      · -- A unit stands there, so that a dimension is read and no number.
        have noNumber :
            ¬((digits, left) = (first :: others, rest) ∧ startsIdent rest = false) := by
          rintro ⟨same, noIdent⟩
          rw [(Prod.mk.inj same).2, noIdent] at ident
          exact absurd ident (by simp)
        simp only [if_pos ident, noNumber, false_and, iff_false]
        cases read : (scanName left).outcome <;> simp [Scan.map, Except.map, read]
      · simp only [if_neg ident, Scan.map, Except.map, Option.some.injEq, Prod.mk.injEq,
          Token.number.injEq]
        constructor
        · rintro ⟨same, kept⟩
          have digitsSame : digits = first :: others := by
            rw [← shape, ← same]
            simp
          have restSame : left = rest := by
            rw [digitsSame, List.cons_append, List.cons.injEq] at whole
            exact List.append_cancel_left whole.2
          rw [← restSame] at *
          exact ⟨⟨⟨digitsSame, rfl⟩, by simpa using ident⟩, kept.symm⟩
        · rintro ⟨⟨⟨digitsSame, restSame⟩, _⟩, kept⟩
          refine ⟨?_, by rw [restSame, kept]⟩
          rw [digitsSame, ← shape]
          simp

/-- A unit that would be taken for an exponent is written with a backslash. -/
theorem unitChars_of_startsExponent
    {first : Char}
    {others : List Char}
    (exponent : Token.startsExponent (first :: others) = true) :
    Token.unitChars (first :: others) = '\\' :: first :: escapeNameChars others := by
  have starts : isNameStart first = true := by
    simp only [Token.startsExponent, Bool.or_eq_true, beq_iff_eq] at exponent
    rcases exponent with small | capital
    · rw [small]
      decide
    · rw [capital]
      decide
  rw [Token.unitChars, if_pos exponent]
  simp [escapeIdentChars, startsUnescaped, starts]

/-- A written unit does not go on with the number in front of it. -/
theorem unitChars_append
    {unit : List Char}
    (nonempty : unit ≠ [])
    (noBreak : NoBreak unit)
    (rest : List Char) :
    endsNumber (Token.unitChars unit ++ rest) = true ∧
      startsIdent (Token.unitChars unit ++ rest) = true ∧
      scanName (Token.unitChars unit ++ rest) = (scanName rest).map (unit ++ ·) := by
  obtain ⟨first, others, shape⟩ := List.exists_cons_of_ne_nil nonempty
  subst shape
  by_cases exponent : Token.startsExponent (first :: others) = true
  · rw [unitChars_of_startsExponent exponent]
    refine ⟨rfl, by simp [startsIdent, startsEscape, noBreak.head], ?_⟩
    rw [List.cons_append, List.cons_append, scanName_escaped noBreak.head,
      scanName_escapeNameChars noBreak.tail, map_cons_append]
  · rw [Token.unitChars, if_neg exponent]
    refine ⟨?_, startsIdent_escapeIdentChars nonempty noBreak rest,
      scanName_escapeIdentChars noBreak rest⟩
    simp only [Token.startsExponent, Bool.or_eq_true, beq_iff_eq, not_or] at exponent
    rw [escapeIdentChars, List.append_assoc]
    split
    · next unescaped =>
        rcases startsUnescaped_cases unescaped with starts | ⟨hyphen, _⟩
        · have notPoint : first ≠ '.' := ne_of_holds starts (by decide)
          simp [endsNumber, not_isDigit_of_isNameStart starts, notPoint, exponent]
        · subst hyphen
          rfl
    · rfl

/-- A written dimension is read back exactly if what follows ends its unit. -/
theorem token?_dimension_iff
    {numeral : Numeral}
    {unit : String}
    (isNumber : IsNumber numeral.text.toList)
    (nonempty : unit.toList ≠ [])
    (noBreak : NoBreak unit.toList)
    (unbroken : ¬ StartsBroken rest) :
    token? (numeral.text.toList ++ Token.unitChars unit.toList ++ rest) =
        some (.dimension numeral unit, behind) ↔
      endsName rest = true ∧ behind = rest := by
  obtain ⟨ends, ident, read⟩ := unitChars_append nonempty noBreak rest
  rw [List.append_assoc]
  generalize Token.unitChars unit.toList ++ rest = text at ends ident read
  have starts := startsNumber_of_isNumber isNumber text
  have split := splitNumber_of_isNumber isNumber ends
  obtain ⟨first, others, shape⟩ := List.exists_cons_of_ne_nil (ne_nil_of_isNumber isNumber)
  have stepped : step first (others ++ text) =
      ((scanName text).map fun unit => Token.dimension numeral (String.ofList unit)).map some := by
    rw [shape, List.cons_append] at starts split
    rw [step_of_startsNumber starts, scanNumeric, split]
    simp only [if_pos ident, ← shape, String.ofList_toList]
  rw [shape, List.cons_append, token?_of_step stepped, read]
  simp only [Token.dimension.injEq, true_and, ofList_eq_iff, exists_eq_right]
  exact map_scanName_iff unbroken

/-- A written blank is read back with all the blanks behind it. -/
theorem token?_whitespace_iff :
    token? (' ' :: rest) = some (.whitespace, behind) ↔ behind = rest.dropWhile isBlank := by
  rw [token?, step_of_ne_slash (by decide), scanToken, if_pos (by decide)]
  simp only [Scan.map, Except.map, Option.some.injEq, Prod.mk.injEq, true_and]
  exact eq_comm

/-- A punctuation mark is read back before any text. -/
theorem token?_punctuation
    {char : Char}
    {token : Token}
    (punctuation : punctuation? char = some token) :
    token? (char :: rest) = some (token, rest) := by
  have noneDecisive : ∀ special ∈ decisive, (punctuation? special).isSome = false := by
    decide
  have ordinary : char ∉ decisive := by
    intro member
    have none := noneDecisive char member
    rw [punctuation] at none
    exact absurd none (by simp)
  have notNumber : startsNumber (char :: rest) = false := by
    unfold punctuation? at punctuation
    split at punctuation <;> first | rfl | cases punctuation
  have notIdent : startsIdent (char :: rest) = false := by
    unfold punctuation? at punctuation
    split at punctuation <;> first | rfl | cases punctuation
  rw [token?, step_of_notMem ordinary, scanToken_of_notMem ordinary, notNumber, notIdent,
    punctuation]
  rfl

/-- A delimiter starts neither a name nor a string, nor is it blank. -/
theorem isDelim_cases
    {char : Char}
    (delim : isDelim char = true) :
    (isBlank char = false ∧ char ≠ doubleQuote ∧ char ≠ apostrophe) ∧ char ≠ '\\' ∧
      punctuation? char = none := by
  simp only [isDelim, Bool.not_eq_true', Bool.or_eq_false_iff, beq_eq_false_iff_ne,
    Option.isSome_eq_false_iff, Option.isNone_iff_eq_none] at delim
  obtain ⟨⟨⟨⟨⟨⟨blank, quote⟩, single⟩, backslash⟩, _⟩, _⟩, punctuation⟩ := delim
  exact ⟨⟨blank, quote, single⟩, backslash, punctuation⟩

/-- What a delimiter and the text behind it are scanned as. -/
theorem scanToken_of_isDelim
    {char : Char}
    (delim : isDelim char = true)
    (rest : List Char) :
    scanToken char rest =
      if char = '#' then scanHash rest
      else if char = '@' then scanAtKeyword rest
      else if startsNumber (char :: rest) then scanNumeric (char :: rest)
      else if startsIdent (char :: rest) then scanIdentLike (char :: rest)
      else ⟨.ok (.delim char), rest⟩ := by
  obtain ⟨⟨blank, quote, single⟩, backslash, punctuation⟩ := isDelim_cases delim
  simp only [scanToken, blank, beq_false_of_ne quote, beq_false_of_ne single,
    beq_false_of_ne backslash, punctuation, Bool.or_false, Bool.false_eq_true, if_false,
    beq_iff_eq]

/-- Numbers and names are no delimiters. -/
theorem scanNumeric_ne_delim
    {text : List Char}
    {char : Char} :
    scanNumeric text ≠ ⟨.ok (.delim char), behind⟩ := by
  unfold scanNumeric
  obtain ⟨digits, left⟩ := splitNumber text
  by_cases ident : startsIdent left = true
  · simp only [if_pos ident]
    cases read : (scanName left).outcome <;> simp [Scan.map, Except.map, read]
  · simp [if_neg ident]

/-- What starts like a name is never read as a delimiter. -/
theorem scanIdentLike_ne_delim
    {text : List Char}
    {char : Char} :
    scanIdentLike text ≠ ⟨.ok (.delim char), behind⟩ := by
  unfold scanIdentLike
  split <;> simp

/-- A number sign is a delimiter exactly if no name stands behind it. -/
theorem scanHash_eq_delim_iff
    {char : Char} :
    scanHash rest = ⟨.ok (.delim char), behind⟩ ↔
      (startsNameChar rest = false ∧ char = '#') ∧ behind = rest := by
  unfold scanHash
  by_cases starts : startsNameChar rest = true
  · simp only [starts, if_true]
    cases read : (scanName rest).outcome <;> simp [Scan.map, Except.map, read]
  · simp only [if_neg starts, Scan.mk.injEq, Except.ok.injEq, Token.delim.injEq]
    simp [starts, eq_comm]

/-- A commercial at is a delimiter exactly if no identifier stands behind it. -/
theorem scanAtKeyword_eq_delim_iff
    {char : Char} :
    scanAtKeyword rest = ⟨.ok (.delim char), behind⟩ ↔
      (startsIdent rest = false ∧ char = '@') ∧ behind = rest := by
  unfold scanAtKeyword
  by_cases starts : startsIdent rest = true
  · simp only [starts, if_true]
    cases read : (scanName rest).outcome <;> simp [Scan.map, Except.map, read]
  · simp only [if_neg starts, Scan.mk.injEq, Except.ok.injEq, Token.delim.injEq]
    simp [starts, eq_comm]

/-- A text starts with what a step makes of it, unless a comment or a failure comes. -/
theorem token?_of_scanToken
    {char : Char}
    (stepped : step char rest = (scanToken char rest).map some)
    {token : Token} :
    token? (char :: rest) = some (token, behind) ↔
      scanToken char rest = ⟨.ok token, behind⟩ := by
  have same : (scanToken char rest).map some = ((scanToken char rest).map id).map some := by
    obtain ⟨outcome, left⟩ := scanToken char rest
    cases outcome <;> rfl
  rw [token?_of_step (stepped.trans same)]
  simp

/-- A delimiter is scanned alone where it stands apart and starts no comment. -/
theorem scanToken_eq_delim_iff
    {char : Char}
    (delim : isDelim char = true)
    (noComment : ¬ (char = '/' ∧ rest.head? = some '*')) :
    scanToken char rest = ⟨.ok (.delim char), behind⟩ ↔
      Token.delimStandsApart char rest = true ∧ behind = rest := by
  rw [scanToken_of_isDelim delim]
  split
  · next hash =>
      subst hash
      rw [scanHash_eq_delim_iff]
      simp [Token.delimStandsApart, startsNumber, startsUnsignedNumber, startsDigit, startsIdent,
        startsEscape, isNameStart]
  split
  · next atSign =>
      subst atSign
      rw [scanAtKeyword_eq_delim_iff]
      simp [Token.delimStandsApart, startsNumber, startsUnsignedNumber, startsDigit,
        startsIdent.eq_def ('@' :: rest), startsEscape, isNameStart]
  split
  · next number => simp [scanNumeric_ne_delim, Token.delimStandsApart, number]
  split
  · next ident => simp [scanIdentLike_ne_delim, Token.delimStandsApart, ident]
  · next notHash notAt notNumber notIdent =>
      have apart : Token.delimStandsApart char rest = true := by
        simp only [Token.delimStandsApart, notNumber, notIdent, Bool.not_false, Bool.true_and]
        split
        · exact absurd rfl notHash
        · exact absurd rfl notAt
        · simpa using noComment
        · rfl
      simp [apart, eq_comm]

/-- A written delimiter is read back exactly if it stands apart from what follows. -/
theorem token?_delim_iff
    {char : Char}
    (delim : isDelim char = true) :
    token? (char :: rest) = some (.delim char, behind) ↔
      Token.delimStandsApart char rest = true ∧ behind = rest := by
  by_cases comment : char = '/' ∧ rest.head? = some '*'
  · obtain ⟨slash, star⟩ := comment
    obtain ⟨body, shape⟩ := List.head?_eq_some_iff.mp star
    subst slash
    subst shape
    have noToken : token? ('/' :: '*' :: body) = none := by
      simp only [token?, step, Scan.map]
      cases (scanComment body).outcome <;> rfl
    simp [noToken, Token.delimStandsApart]
  · have stepped : step char rest = (scanToken char rest).map some := by
      unfold step
      split
      · exact absurd ⟨rfl, rfl⟩ comment
      · rfl
    rw [token?_of_scanToken stepped, scanToken_eq_delim_iff delim comment]

end Kinds

end Lexer

end TreeSelectors
