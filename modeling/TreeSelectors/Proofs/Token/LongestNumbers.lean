import TreeSelectors.Proofs.Token.IntegerLiterals

namespace TreeSelectors

/-!
# The longest number at a place

What is cut off where a number starts is not only a number: every number that
the text starts with is the front of it, `prefix_splitNumber`. Its kind tells
whether a point or an exponent is in it, and its integer is the one that it
denotes, if that fits into sixty-four bits: `Lexer.startsNumber_iff_readsLongest`.
-/

open TreeSelectors.Lexer

namespace Lexer

section Longest

/--
Where an exponent stands it is cut off, after neither digits nor a fraction in
front of it.
-/
theorem prefix_splitExponent
    {exponent : List Char}
    (isExponent :
      exponent = [] ∨
        ∃ mark sign digits, (mark = 'e' ∨ mark = 'E') ∧ IsSign sign ∧ digits ≠ [] ∧
          AllDigits digits ∧ exponent = mark :: (sign ++ digits))
    (rest : List Char) :
    exponent = [] ∨
      splitDigits (exponent ++ rest) = ([], exponent ++ rest) ∧
        splitFraction (exponent ++ rest) = ([], exponent ++ rest) ∧
          exponent <+: (splitExponent (exponent ++ rest)).1 := by
  rcases startsUnsignedNumber_exponent isExponent rest with none | ⟨noDigit, noFraction⟩
  · exact Or.inl none
  have whole := splitDigits_append_of_stop (List.forall_mem_nil _) noDigit
  have fraction := splitFraction_append_of_parts (Or.inl rfl) noDigit fun _ => noFraction
  refine Or.inr ⟨whole, fraction, ?_⟩
  rcases isExponent with none | ⟨mark, sign, digits, isMark, isSign, nonempty, allDigits, shape⟩
  · exact none ▸ List.nil_prefix
  · have goesOn := startsDigit_append nonempty allDigits rest
    have signed := splitSign_append_of_isSign isSign (startsUnsignedNumber_of_startsDigit goesOn)
    have cut : (splitExponent (exponent ++ rest)).1 = exponent ++ (splitDigits rest).1 := by
      rw [shape, List.cons_append, splitExponent, List.append_assoc, signed]
      simp [isMark, goesOn, splitDigits_append_of_allDigits allDigits]
    exact cut ▸ List.prefix_append _ _

theorem splitFraction_append_of_allDigits
    {decimals : List Char}
    (nonempty : decimals ≠ [])
    (allDigits : AllDigits decimals)
    (rest : List Char) :
    splitFraction ('.' :: decimals ++ rest) =
      ('.' :: decimals ++ (splitDigits rest).1, (splitDigits rest).2) := by
  have goesOn := startsDigit_append nonempty allDigits rest
  rw [List.cons_append, splitFraction, if_pos goesOn, splitDigits_append_of_allDigits allDigits,
    List.cons_append]

/-- What stands behind the whole part of a number is cut off with it. -/
theorem prefix_splitFraction
    {sign whole fraction exponent : List Char}
    (parts : NumberParts sign whole fraction exponent)
    (rest : List Char) :
    let (digits, behindDigits) := splitDigits (fraction ++ (exponent ++ rest))
    let (point, behindPoint) := splitFraction behindDigits
    fraction ++ exponent <+: digits ++ (point ++ (splitExponent behindPoint).1) := by
  have cases := prefix_splitExponent parts.exponentShape rest
  rcases parts.fractionShape with none | ⟨decimals, nonempty, allDigits, shape⟩
  · subst none
    rcases cases with none | ⟨noDigit, noFraction, cut⟩
    · subst none
      exact List.nil_prefix
    · simpa [noDigit, noFraction] using cut
  · have noWhole : splitDigits ('.' :: decimals ++ (exponent ++ rest)) =
        ([], '.' :: decimals ++ (exponent ++ rest)) := rfl
    have point := splitFraction_append_of_allDigits nonempty allDigits (exponent ++ rest)
    simp only [shape, noWhole, point, List.nil_append, List.append_assoc]
    refine (List.prefix_append_right_inj ('.' :: decimals)).mpr ?_
    rcases cases with none | ⟨noDigit, _, cut⟩
    · subst none
      exact List.nil_prefix
    · simpa [noDigit] using cut

/-- Every number that a text starts with is the front of the one that is cut off. -/
theorem prefix_splitNumber
    {text number : List Char}
    (isNumber : IsNumber number)
    (starts : number <+: text) :
    number <+: (splitNumber text).1 := by
  obtain ⟨sign, whole, fraction, exponent, parts, shape⟩ := isNumber
  obtain ⟨rest, split⟩ := starts
  have signed := splitSign_append_of_isSign parts.signShape (parts.startsUnsignedNumber rest)
  have digits := splitDigits_append_of_allDigits parts.wholeDigits (fraction ++ (exponent ++ rest))
  have later := prefix_splitFraction parts rest
  subst shape
  subst split
  simp only [splitNumber, List.append_assoc, signed, digits]
  exact (List.prefix_append_right_inj sign).mpr ((List.prefix_append_right_inj whole).mpr later)

/-- A text starts with a number exactly if some front of it is one. -/
theorem startsNumber_iff
    {text : List Char} :
    startsNumber text = true ↔ ∃ number, IsNumber number ∧ number <+: text := by
  constructor
  · intro starts
    exact ⟨_, isNumber_splitNumber starts, _, splitNumber_append text⟩
  · rintro ⟨number, isNumber, rest, split⟩
    rw [← split]
    exact startsNumber_of_isNumber isNumber rest

end Longest

end Lexer

/-! A number without a point and an exponent is a literal. -/

theorem LiteralSign.exists_chars
    {sign : List Char}
    (isSign : IsSign sign) :
    ∃ literalSign : LiteralSign, literalSign.chars = sign := by
  rcases isSign with none | plus | minus
  · exact ⟨.absent, none.symm⟩
  · exact ⟨.plus, plus.symm⟩
  · exact ⟨.minus, minus.symm⟩

theorem exists_decimalChar
    {char : Char}
    (isDigit : char.isDigit = true) :
    ∃ digit, decimalChar digit = char := by
  have ofNat : ∀ digit : Fin 10, decimalChar digit = Char.ofNat (digit.val + 48) := by
    decide
  simp only [Char.isDigit, Bool.and_eq_true, decide_eq_true_eq, ge_iff_le,
    UInt32.le_iff_toNat_le] at isDigit
  obtain ⟨least, most⟩ : 48 ≤ char.toNat ∧ char.toNat ≤ 57 := isDigit
  have small : char.toNat - 48 < 10 := by
    omega
  have same : char.toNat - 48 + 48 = char.toNat := by
    omega
  refine ⟨⟨char.toNat - 48, small⟩, ?_⟩
  rw [ofNat]
  simp only [same, Char.ofNat_toNat]

theorem exists_map_decimalChar
    {digits : List Char}
    (allDigits : AllDigits digits) :
    ∃ values : List (Fin 10), values.map decimalChar = digits := by
  induction digits with
  | nil => exact ⟨[], rfl⟩
  | cons char digits inductionHypothesis =>
      obtain ⟨first, others⟩ := List.forall_mem_cons.mp allDigits
      obtain ⟨value, written⟩ := exists_decimalChar first
      obtain ⟨values, later⟩ := inductionHypothesis others
      exact ⟨value :: values, by rw [List.map_cons, written, later]⟩

namespace Numeral

/-- A numeral denotes an integer: it is written as a literal with that value. -/
def Denotes (numeral : Numeral) (value : Int) : Prop :=
  ∃ literal : IntegerLiteral, literal.numeral = numeral ∧ literal.value = value

/-- Neither a point nor the mark of an exponent is in a numeral. -/
def Plain (numeral : Numeral) : Prop :=
  '.' ∉ numeral.text.toList ∧ 'e' ∉ numeral.text.toList ∧ 'E' ∉ numeral.text.toList

variable {numeral : Numeral}

/-- A number with neither a point nor an exponent is a sign and digits. -/
theorem Plain.exists_literal
    (plain : numeral.Plain)
    (isNumber : IsNumber numeral.text.toList) :
    ∃ literal : IntegerLiteral, literal.numeral = numeral := by
  obtain ⟨sign, whole, fraction, exponent, parts, shape⟩ := isNumber
  obtain ⟨noPoint, noSmall, noCapital⟩ := plain
  simp only [shape, List.mem_append, not_or] at noPoint noSmall noCapital
  have noFraction : fraction = [] := by
    rcases parts.fractionShape with none | ⟨digits, _, _, point⟩
    · exact none
    · exact absurd (point ▸ List.mem_cons_self) noPoint.1.2
  have noExponent : exponent = [] := by
    rcases parts.exponentShape with none | ⟨mark, sign, digits, isMark, _, _, _, marked⟩
    · exact none
    · rcases isMark with small | capital
      · exact absurd (marked ▸ small ▸ List.mem_cons_self) noSmall.2
      · exact absurd (marked ▸ capital ▸ List.mem_cons_self) noCapital.2
  obtain ⟨literalSign, signWritten⟩ := LiteralSign.exists_chars parts.signShape
  obtain ⟨digits, digitsWritten⟩ := exists_map_decimalChar parts.wholeDigits
  have nonempty : digits ≠ [] := by
    intro none
    rw [none] at digitsWritten
    exact parts.someDigit.elim (fun some => some digitsWritten.symm) fun some => some noFraction
  refine ⟨⟨literalSign, digits, nonempty⟩, ?_⟩
  rw [IntegerLiteral.numeral, IntegerLiteral.text, IntegerLiteral.chars, signWritten, digitsWritten]
  rw [noFraction, noExponent, List.append_nil, List.append_nil] at shape
  rw [← shape, String.ofList_toList]

/-- A numeral of integer kind holds nothing but signs and digits. -/
theorem plain_of_kind
    (integer : numeral.kind = .integer) :
    numeral.Plain := by
  have digits : allDigits (numeral.text.toList.dropWhile isSign) = true := by
    rw [kind] at integer
    by_contra other
    rw [if_neg other] at integer
    exact absurd integer (by decide)
  have known : ∀ char ∈ numeral.text.toList, isSign char = true ∨ char.isDigit = true := by
    intro char member
    rw [← List.takeWhile_append_dropWhile (p := isSign) (l := numeral.text.toList),
      List.mem_append] at member
    exact member.imp (List.all_eq_true.mp List.all_takeWhile char)
      (List.all_eq_true.mp digits char)
  refine ⟨?_, ?_, ?_⟩ <;>
  · intro member
    exact absurd (known _ member) (by decide)

/-- A number is of integer kind exactly if it has neither a point nor an exponent. -/
theorem kind_eq_integer_iff
    (isNumber : IsNumber numeral.text.toList) :
    numeral.kind = .integer ↔ numeral.Plain := by
  refine ⟨plain_of_kind, fun plain => ?_⟩
  obtain ⟨literal, written⟩ := plain.exists_literal isNumber
  exact written ▸ literal.kind_numeral

/-- A numeral denotes one integer at most. -/
theorem Denotes.unique
    {value other : Int}
    (denotes : numeral.Denotes value)
    (denotesOther : numeral.Denotes other) :
    value = other := by
  obtain ⟨literal, written, literalValue⟩ := denotes
  obtain ⟨otherLiteral, otherWritten, otherValue⟩ := denotesOther
  have sameText : literal.chars = otherLiteral.chars := by
    rw [← literal.toList_text, ← otherLiteral.toList_text]
    exact congrArg (fun numeral => numeral.text.toList) (written.trans otherWritten.symm)
  have read := literal.integerOf?_chars
  rw [sameText, otherLiteral.integerOf?_chars] at read
  rw [← literalValue, ← otherValue, Option.some.inj read]

/-- A number of integer kind denotes an integer. -/
theorem exists_denotes
    (isNumber : IsNumber numeral.text.toList)
    (integer : numeral.kind = .integer) :
    ∃ value, numeral.Denotes value := by
  obtain ⟨literal, written⟩ := (plain_of_kind integer).exists_literal isNumber
  exact ⟨literal.value, literal, written, rfl⟩

/-- The integer of a number is the one that it denotes, within sixty-four bits. -/
theorem integer?_eq_some_iff
    (isNumber : IsNumber numeral.text.toList)
    {value : Int} :
    numeral.integer? = some value ↔
      numeral.kind = .integer ∧ numeral.Denotes value ∧
        -(2 ^ 63) ≤ value ∧ value < 2 ^ 63 := by
  by_cases integer : numeral.kind = .integer
  · obtain ⟨literal, written⟩ := (plain_of_kind integer).exists_literal isNumber
    subst written
    have denotes : ∀ value, literal.numeral.Denotes value ↔ value = literal.value :=
      fun value => ⟨fun denotes => denotes.unique ⟨literal, rfl, rfl⟩,
        fun same => ⟨literal, rfl, same.symm⟩⟩
    rw [literal.integer?_numeral, denotes]
    simp only [integer, true_and]
    constructor
    · intro found
      by_cases fits : literal.Fits
      · rw [if_pos fits] at found
        cases found
        exact ⟨rfl, fits.1, Int.lt_of_le_sub_one fits.2⟩
      · rw [if_neg fits] at found
        exact absurd found (by simp)
    · rintro ⟨same, least, most⟩
      subst same
      exact if_pos ⟨least, Int.le_sub_one_of_lt most⟩
  · have none : numeral.integer? = none := by
      rw [integer?]
      cases shape : numeral.kind with
      | integer => exact absurd shape integer
      | number => rfl
    simp [none, integer]

end Numeral

namespace Lexer

/--
A numeral is the longest number at the start of a text, with its kind and its
integer; `behind` is what the text goes on with.
-/
structure ReadsLongest (text : List Char) (numeral : Numeral) (behind : List Char) : Prop where
  whole :
    numeral.text.toList ++ behind = text
  isNumber :
    IsNumber numeral.text.toList
  longest :
    ∀ number, IsNumber number → number <+: text → number <+: numeral.text.toList
  kind_iff :
    numeral.kind = .integer ↔ numeral.Plain
  denotes :
    numeral.kind = .integer → ∃! value, numeral.Denotes value
  integer?_iff :
    ∀ value, numeral.integer? = some value ↔
      numeral.kind = .integer ∧ numeral.Denotes value ∧ -(2 ^ 63) ≤ value ∧ value < 2 ^ 63

theorem readsLongest_splitNumber
    {text : List Char}
    {numeral : Numeral}
    {behind : List Char}
    (starts : startsNumber text = true)
    (cut : splitNumber text = (numeral.text.toList, behind)) :
    ReadsLongest text numeral behind := by
  have isNumber := isNumber_splitNumber starts
  have whole := splitNumber_append text
  have longest : ∀ number, IsNumber number → number <+: text →
      number <+: (splitNumber text).1 :=
    fun _ => prefix_splitNumber
  rw [cut] at isNumber whole longest
  exact {
    whole := whole
    isNumber := isNumber
    longest := longest
    kind_iff := Numeral.kind_eq_integer_iff isNumber
    denotes := fun integer =>
      existsUnique_of_exists_of_unique (Numeral.exists_denotes isNumber integer)
        fun _ _ => Numeral.Denotes.unique
    integer?_iff := fun _ => Numeral.integer?_eq_some_iff isNumber
  }

/--
Where a number starts, and nowhere else, the longest one is cut off; a step
makes a token of it, with the name behind it as its unit.
-/
theorem startsNumber_iff_readsLongest
    (char : Char)
    (rest : List Char) :
    startsNumber (char :: rest) = true ↔
      ∃ numeral behind,
        splitNumber (char :: rest) = (numeral.text.toList, behind) ∧
          ReadsLongest (char :: rest) numeral behind ∧
            step char rest =
              (if startsIdent behind then
                (scanName behind).map fun unit => .dimension numeral (String.ofList unit)
              else
                ⟨.ok (.number numeral), behind⟩).map some := by
  constructor
  · intro starts
    have stepped := step_of_startsNumber starts
    cases cut : splitNumber (char :: rest) with
    | mk digits behind =>
        let numeral : Numeral := ⟨String.ofList digits⟩
        have kept : numeral.text.toList = digits := String.toList_ofList
        refine ⟨numeral, behind, by rw [kept], ?_, ?_⟩
        · exact readsLongest_splitNumber starts (by rw [kept, cut])
        · rw [stepped, scanNumeric, cut]
  · rintro ⟨numeral, behind, _, reads, _⟩
    exact startsNumber_iff.mpr ⟨_, reads.isNumber, behind, reads.whole⟩

example :
    splitNumber "+.5e-3x".toList = ("+.5e-3".toList, ['x']) ∧
      splitNumber "1.e5".toList = (['1'], ".e5".toList) ∧
        (Numeral.mk "-09223372036854775808").integer? = some (-9223372036854775808) := by
  decide +kernel

end Lexer

end TreeSelectors
