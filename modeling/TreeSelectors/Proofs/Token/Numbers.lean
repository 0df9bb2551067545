import TreeSelectors.Proofs.Token.Names

namespace TreeSelectors.Lexer

/-!
# Numbers, written and read

`IsNumber` is the grammar of numbers. What is cut off as a number is one, and
a number is cut off whole from a text that does not go on with it:
`isNumber_splitNumber`, `splitNumber_of_isNumber`.
-/

open TreeSelectors.Text

/-- A sign or nothing. -/
def IsSign (sign : List Char) : Prop :=
  sign = [] ∨ sign = ['+'] ∨ sign = ['-']

/-- Nothing but digits. -/
def AllDigits (digits : List Char) : Prop :=
  ∀ char ∈ digits, char.isDigit = true

/-- The parts of a number. -/
structure NumberParts (sign whole fraction exponent : List Char) : Prop where
  signShape :
    IsSign sign
  wholeDigits :
    AllDigits whole
  fractionShape :
    fraction = [] ∨ ∃ digits, digits ≠ [] ∧ AllDigits digits ∧ fraction = '.' :: digits
  exponentShape :
    exponent = [] ∨
      ∃ mark sign digits, (mark = 'e' ∨ mark = 'E') ∧ IsSign sign ∧ digits ≠ [] ∧
        AllDigits digits ∧ exponent = mark :: (sign ++ digits)
  someDigit :
    whole ≠ [] ∨ fraction ≠ []

/-- A text is a number. -/
def IsNumber (text : List Char) : Prop :=
  ∃ sign whole fraction exponent,
    NumberParts sign whole fraction exponent ∧ text = sign ++ whole ++ fraction ++ exponent

/-- The text behind a number does not go on with it, whatever the number is. -/
def endsNumber : List Char → Bool
  | [] => true
  | char :: _ => !char.isDigit && char != '.' && char != 'e' && char != 'E'

/-- The characters of a number. -/
theorem mem_of_isNumber
    {text : List Char}
    (isNumber : IsNumber text) :
    ∀ char ∈ text, char.isDigit = true ∨ char ∈ ['+', '-', '.', 'e', 'E'] := by
  have ofSign : ∀ {sign : List Char}, IsSign sign →
      ∀ char ∈ sign, char.isDigit = true ∨ char ∈ ['+', '-', '.', 'e', 'E'] := by
    intro sign isSign
    rcases isSign with same | same | same <;> rw [same] <;> decide
  have ofDigits : ∀ {digits : List Char}, AllDigits digits →
      ∀ char ∈ digits, char.isDigit = true ∨ char ∈ ['+', '-', '.', 'e', 'E'] :=
    fun allDigits char member => Or.inl (allDigits char member)
  obtain ⟨sign, whole, fraction, exponent, parts, shape⟩ := isNumber
  rw [shape]
  refine List.forall_mem_append.mpr ⟨List.forall_mem_append.mpr ⟨List.forall_mem_append.mpr
    ⟨ofSign parts.signShape, ofDigits parts.wholeDigits⟩, ?_⟩, ?_⟩
  · rcases parts.fractionShape with none | ⟨digits, _, allDigits, point⟩
    · rw [none]
      exact List.forall_mem_nil _
    · rw [point]
      exact List.forall_mem_cons.mpr ⟨by decide, ofDigits allDigits⟩
  · rcases parts.exponentShape with
      none | ⟨mark, sign, digits, isMark, isSign, _, allDigits, marked⟩
    · rw [none]
      exact List.forall_mem_nil _
    · rw [marked]
      refine List.forall_mem_cons.mpr
        ⟨?_, List.forall_mem_append.mpr ⟨ofSign isSign, ofDigits allDigits⟩⟩
      rcases isMark with small | capital
      · rw [small]
        decide
      · rw [capital]
        decide

section Reading

/-- What is cut off as a sign is one or nothing. -/
theorem isSign_splitSign
    (text : List Char) :
    IsSign (splitSign text).1 := by
  unfold splitSign
  split <;> simp [IsSign]

/-- What is cut off as digits is nothing else. -/
theorem allDigits_splitDigits
    (text : List Char) :
    AllDigits (splitDigits text).1 := by
  intro char member
  exact List.all_eq_true.mp List.all_takeWhile char member

/-- Behind its sign a number starts as one without. -/
theorem startsUnsignedNumber_splitSign
    {text : List Char}
    (starts : startsNumber text = true) :
    startsUnsignedNumber (splitSign text).2 = true := by
  unfold startsNumber at starts
  unfold splitSign
  split at starts
  · exact starts
  · exact starts
  · exact starts

/-- What is cut off where a number starts is a number. -/
theorem isNumber_splitNumber
    {text : List Char}
    (starts : startsNumber text = true) :
    IsNumber (splitNumber text).1 := by
  have unsignedStarts := startsUnsignedNumber_splitSign starts
  refine ⟨(splitSign text).1, (splitDigits (splitSign text).2).1,
    (splitFraction (splitDigits (splitSign text).2).2).1,
    (splitExponent (splitFraction (splitDigits (splitSign text).2).2).2).1, ?_, rfl⟩
  constructor
  · exact isSign_splitSign text
  · exact allDigits_splitDigits _
  · unfold splitFraction
    split
    · next rest _ =>
        by_cases digit : startsDigit rest = true
        · rw [if_pos digit]
          exact Or.inr ⟨_, splitDigits_ne_nil digit, allDigits_splitDigits rest, rfl⟩
        · rw [if_neg digit]
          exact Or.inl rfl
    · exact Or.inl rfl
  · unfold splitExponent
    split
    · exact Or.inl rfl
    · next mark rest _ =>
        split
        · next goesOn =>
            rw [Bool.and_eq_true, Bool.or_eq_true, beq_iff_eq, beq_iff_eq] at goesOn
            exact Or.inr ⟨mark, _, _, goesOn.1, isSign_splitSign rest,
              splitDigits_ne_nil goesOn.2, allDigits_splitDigits _, rfl⟩
        · exact Or.inl rfl
  · generalize (splitSign text).2 = unsigned at unsignedStarts
    unfold startsUnsignedNumber at unsignedStarts
    split at unsignedStarts
    · apply Or.inr
      simp [splitDigits, splitFraction, unsignedStarts]
    · exact Or.inl (splitDigits_ne_nil unsignedStarts)

end Reading

section Writing

/-- A digit starts a number. -/
theorem startsUnsignedNumber_of_startsDigit
    {text : List Char}
    (starts : startsDigit text = true) :
    startsUnsignedNumber text = true := by
  unfold startsUnsignedNumber
  split
  · exact absurd starts (by simp [startsDigit])
  · exact starts

theorem startsNumber_of_isDigit
    {char : Char}
    (digit : char.isDigit = true)
    (rest : List Char) :
    startsNumber (char :: rest) = true := by
  unfold startsNumber
  split
  · next same =>
      rw [(List.cons.inj same).1] at digit
      exact absurd digit (by decide)
  · next same =>
      rw [(List.cons.inj same).1] at digit
      exact absurd digit (by decide)
  · exact startsUnsignedNumber_of_startsDigit digit

/-- A sign in front of a number without one is cut off. -/
theorem splitSign_append_of_isSign
    {sign : List Char}
    (isSign : IsSign sign)
    {rest : List Char}
    (unsigned : startsUnsignedNumber rest = true) :
    splitSign (sign ++ rest) = (sign, rest) := by
  rcases isSign with none | plus | minus
  · subst none
    rw [List.nil_append]
    unfold splitSign
    split
    · exact absurd unsigned (by simp [startsUnsignedNumber, startsDigit])
    · exact absurd unsigned (by simp [startsUnsignedNumber, startsDigit])
    · rfl
  · subst plus
    rfl
  · subst minus
    rfl

/-- Digits are cut off with those behind them. -/
theorem splitDigits_append_of_allDigits
    {digits : List Char}
    (allDigits : AllDigits digits)
    (rest : List Char) :
    splitDigits (digits ++ rest) = (digits ++ (splitDigits rest).1, (splitDigits rest).2) := by
  rw [splitDigits, List.takeWhile_append_of_pos allDigits, List.dropWhile_append_of_pos allDigits]
  rfl

/-- Digits are cut off up to the first character that is none. -/
theorem splitDigits_append_of_stop
    {digits : List Char}
    (allDigits : AllDigits digits)
    {rest : List Char}
    (stop : startsDigit rest = false) :
    splitDigits (digits ++ rest) = (digits, rest) := by
  have none : splitDigits rest = ([], rest) := by
    cases rest with
    | nil => rfl
    | cons char rest =>
        have notDigit : char.isDigit = false := stop
        simp [splitDigits, notDigit]
  rw [splitDigits_append_of_allDigits allDigits, none, List.append_nil]

theorem startsDigit_append
    {digits : List Char}
    (nonempty : digits ≠ [])
    (allDigits : AllDigits digits)
    (rest : List Char) :
    startsDigit (digits ++ rest) = true := by
  obtain ⟨first, others, shape⟩ := List.exists_cons_of_ne_nil nonempty
  subst shape
  exact allDigits first List.mem_cons_self

/--
The text behind the parts of a number goes on with none of them; a fraction is
looked for only where neither a fraction nor an exponent stands.
-/
structure EndsParts (fraction exponent rest : List Char) : Prop where
  noDigit :
    startsDigit rest = false
  noMark :
    rest.head? ≠ some 'e' ∧ rest.head? ≠ some 'E'
  noFraction :
    fraction = [] → exponent = [] → startsUnsignedNumber rest = false

/-- An exponent is cut off where nothing behind it would go on with it. -/
theorem splitExponent_append_of_parts
    {exponent : List Char}
    (isExponent :
      exponent = [] ∨
        ∃ mark sign digits, (mark = 'e' ∨ mark = 'E') ∧ IsSign sign ∧ digits ≠ [] ∧
          AllDigits digits ∧ exponent = mark :: (sign ++ digits))
    {rest : List Char}
    (noDigit : startsDigit rest = false)
    (noMark : rest.head? ≠ some 'e' ∧ rest.head? ≠ some 'E') :
    splitExponent (exponent ++ rest) = (exponent, rest) := by
  rcases isExponent with none | ⟨mark, sign, digits, isMark, isSign, nonempty, allDigits, shape⟩
  · subst none
    cases rest with
    | nil => rfl
    | cons char rest =>
        have notMark : char ≠ 'e' ∧ char ≠ 'E' := by
          simpa using noMark
        simp [splitExponent, notMark]
  · subst shape
    have goesOn := startsDigit_append nonempty allDigits rest
    have unsigned := startsUnsignedNumber_of_startsDigit goesOn
    have split := splitSign_append_of_isSign isSign unsigned
    have stop := splitDigits_append_of_stop allDigits noDigit
    rw [List.cons_append, splitExponent, List.append_assoc, split]
    simp [isMark, goesOn, stop]

/-- A fraction is cut off where nothing behind it would go on with it. -/
theorem splitFraction_append_of_parts
    {fraction : List Char}
    (isFraction :
      fraction = [] ∨ ∃ digits, digits ≠ [] ∧ AllDigits digits ∧ fraction = '.' :: digits)
    {rest : List Char}
    (stop : startsDigit rest = false)
    (noFraction : fraction = [] → startsUnsignedNumber rest = false) :
    splitFraction (fraction ++ rest) = (fraction, rest) := by
  rcases isFraction with none | ⟨digits, nonempty, allDigits, shape⟩
  · have noNumber := noFraction none
    subst none
    rw [List.nil_append]
    unfold splitFraction
    split
    · exact if_neg (Bool.eq_false_iff.mp noNumber)
    · rfl
  · subst shape
    have goesOn := startsDigit_append nonempty allDigits rest
    rw [List.cons_append, splitFraction, if_pos goesOn, splitDigits_append_of_stop allDigits stop]

/-- An exponent starts with neither a digit nor a point. -/
theorem startsUnsignedNumber_exponent
    {exponent : List Char}
    (isExponent :
      exponent = [] ∨
        ∃ mark sign digits, (mark = 'e' ∨ mark = 'E') ∧ IsSign sign ∧ digits ≠ [] ∧
          AllDigits digits ∧ exponent = mark :: (sign ++ digits))
    (rest : List Char) :
    exponent = [] ∨ startsDigit (exponent ++ rest) = false ∧
      startsUnsignedNumber (exponent ++ rest) = false := by
  rcases isExponent with none | ⟨mark, sign, digits, isMark, _, _, _, shape⟩
  · exact Or.inl none
  · subst shape
    rcases isMark with small | capital
    · subst small
      exact Or.inr ⟨rfl, rfl⟩
    · subst capital
      exact Or.inr ⟨rfl, rfl⟩

/-- The parts of a number behind its sign start a number. -/
theorem NumberParts.startsUnsignedNumber
    {sign whole fraction exponent : List Char}
    (parts : NumberParts sign whole fraction exponent)
    (rest : List Char) :
    Lexer.startsUnsignedNumber (whole ++ (fraction ++ (exponent ++ rest))) = true := by
  by_cases noWhole : whole = []
  · rcases parts.fractionShape with none | ⟨digits, nonempty, allDigits, shape⟩
    · exact absurd none (parts.someDigit.resolve_left (by simpa using noWhole))
    · subst noWhole
      subst shape
      exact startsDigit_append nonempty allDigits _
  · exact startsUnsignedNumber_of_startsDigit (startsDigit_append noWhole parts.wholeDigits _)

/-- A number is cut off whole where the text does not go on with its parts. -/
theorem splitNumber_of_parts
    {sign whole fraction exponent rest : List Char}
    (parts : NumberParts sign whole fraction exponent)
    (ends : EndsParts fraction exponent rest) :
    splitNumber (sign ++ whole ++ fraction ++ exponent ++ rest) =
      (sign ++ whole ++ fraction ++ exponent, rest) := by
  have exponentStop : startsDigit (exponent ++ rest) = false := by
    rcases startsUnsignedNumber_exponent parts.exponentShape rest with none | apart
    · rw [none]
      exact ends.noDigit
    · exact apart.1
  have exponentPoint : fraction = [] → startsUnsignedNumber (exponent ++ rest) = false := by
    intro noFraction
    rcases startsUnsignedNumber_exponent parts.exponentShape rest with none | apart
    · rw [none]
      exact ends.noFraction noFraction none
    · exact apart.2
  have wholeStop : startsDigit (fraction ++ (exponent ++ rest)) = false := by
    rcases parts.fractionShape with none | ⟨digits, _, _, shape⟩
    · rw [none]
      exact exponentStop
    · rw [shape]
      rfl
  have signed := splitSign_append_of_isSign parts.signShape (parts.startsUnsignedNumber rest)
  have digits := splitDigits_append_of_stop parts.wholeDigits wholeStop
  have point := splitFraction_append_of_parts parts.fractionShape exponentStop exponentPoint
  have mark := splitExponent_append_of_parts parts.exponentShape ends.noDigit ends.noMark
  rw [splitNumber]
  simp only [List.append_assoc, signed, digits, point, mark]

/-- What ends numbers ends every part of them. -/
theorem endsParts_of_endsNumber
    {rest : List Char}
    (ends : endsNumber rest = true)
    (fraction exponent : List Char) :
    EndsParts fraction exponent rest := by
  cases rest with
  | nil => exact ⟨rfl, by simp, fun _ _ => rfl⟩
  | cons char rest =>
      simp only [endsNumber, Bool.and_eq_true, Bool.not_eq_true', bne_iff_ne, ne_eq] at ends
      refine ⟨ends.1.1.1, by simp [ends.1.2, ends.2], fun _ _ => ?_⟩
      rw [startsUnsignedNumber_cons ends.1.1.2]
      exact ends.1.1.1

/-- A number is cut off whole where the text goes on with no number. -/
theorem splitNumber_of_isNumber
    {text : List Char}
    (isNumber : IsNumber text)
    {rest : List Char}
    (ends : endsNumber rest = true) :
    splitNumber (text ++ rest) = (text, rest) := by
  obtain ⟨sign, whole, fraction, exponent, parts, shape⟩ := isNumber
  rw [shape]
  exact splitNumber_of_parts parts (endsParts_of_endsNumber ends fraction exponent)

/-- No digit is left behind a number that has been cut off. -/
theorem startsDigit_splitNumber
    (text : List Char) :
    startsDigit (splitNumber text).2 = false := by
  have ofDigits : ∀ text, startsDigit (splitDigits text).2 = false := by
    intro text
    have notDigit := List.head?_dropWhile_not Char.isDigit text
    rw [splitDigits]
    cases shape : text.dropWhile Char.isDigit with
    | nil => rfl
    | cons char rest => simpa [shape, startsDigit] using notDigit
  have ofFraction : ∀ text, startsDigit text = false →
      startsDigit (splitFraction text).2 = false := by
    intro text noDigit
    unfold splitFraction
    split
    · split
      · exact ofDigits _
      · exact noDigit
    · exact noDigit
  have ofExponent : ∀ text, startsDigit text = false →
      startsDigit (splitExponent text).2 = false := by
    intro text noDigit
    unfold splitExponent
    split
    · exact noDigit
    · split
      · exact ofDigits _
      · exact noDigit
  exact ofExponent _ (ofFraction _ (ofDigits _))

/-- A number that does not start with a digit has a fraction. -/
theorem splitFraction_ne_nil
    {text : List Char}
    (number : startsUnsignedNumber text = true)
    (noDigit : startsDigit text = false) :
    (splitFraction text).1 ≠ [] := by
  unfold startsUnsignedNumber at number
  split at number
  · simp [splitFraction, number]
  · rw [noDigit] at number
    exact absurd number (by simp)

/-- Where no name starts, no exponent does. -/
theorem noMark_of_startsIdent
    {rest : List Char}
    (noIdent : startsIdent rest = false) :
    rest.head? ≠ some 'e' ∧ rest.head? ≠ some 'E' := by
  have noStart : ∀ char ∈ rest.head?, isNameStart char = false := by
    intro char first
    obtain ⟨others, shape⟩ := List.head?_eq_some_iff.mp first
    rw [Bool.eq_false_iff]
    intro starts
    rw [shape, startsIdent_of_isNameStart starts] at noIdent
    exact absurd noIdent (by simp)
  refine ⟨fun small => ?_, fun capital => ?_⟩
  · exact absurd (noStart 'e' small) (by decide)
  · exact absurd (noStart 'E' capital) (by decide)

/-- Where a number has been cut off and no name follows, the text goes on with none of its parts. -/
theorem endsParts_of_splitNumber
    {sign whole fraction exponent rest : List Char}
    (parts : NumberParts sign whole fraction exponent)
    (noIdent : startsIdent rest = false)
    (split : splitNumber (sign ++ whole ++ fraction ++ exponent ++ rest) =
      (sign ++ whole ++ fraction ++ exponent, rest)) :
    EndsParts fraction exponent rest := by
  have noDigit := startsDigit_splitNumber (sign ++ whole ++ fraction ++ exponent ++ rest)
  rw [split] at noDigit
  refine ⟨noDigit, noMark_of_startsIdent noIdent, fun noFraction noExponent => ?_⟩
  rw [Bool.eq_false_iff]
  intro number
  have unsigned := parts.startsUnsignedNumber rest
  subst noFraction
  subst noExponent
  have signed := splitSign_append_of_isSign parts.signShape unsigned
  have digits := splitDigits_append_of_stop parts.wholeDigits noDigit
  have front := congrArg Prod.fst split
  simp only [List.nil_append] at signed
  simp only [splitNumber, List.append_nil, List.append_assoc, signed, digits] at front
  have nothing : (splitFraction rest).1 = [] ∧ (splitExponent (splitFraction rest).2).1 = [] := by
    simpa using front
  exact splitFraction_ne_nil number noDigit nothing.1

/-- A number starts one, whatever stands behind it. -/
theorem startsNumber_of_isNumber
    {text : List Char}
    (isNumber : IsNumber text)
    (rest : List Char) :
    startsNumber (text ++ rest) = true := by
  obtain ⟨sign, whole, fraction, exponent, parts, shape⟩ := isNumber
  have unsigned := parts.startsUnsignedNumber rest
  simp only [shape, List.append_assoc]
  rcases parts.signShape with none | plus | minus
  · rw [none, List.nil_append]
    generalize whole ++ (fraction ++ (exponent ++ rest)) = text at unsigned
    unfold startsNumber
    split
    · exact absurd unsigned (by simp [Lexer.startsUnsignedNumber, startsDigit])
    · exact absurd unsigned (by simp [Lexer.startsUnsignedNumber, startsDigit])
    · exact unsigned
  · rw [plus]
    exact unsigned
  · rw [minus]
    exact unsigned

/-- No number is the empty text. -/
theorem ne_nil_of_isNumber
    {text : List Char}
    (isNumber : IsNumber text) :
    text ≠ [] := by
  intro none
  have starts := startsNumber_of_isNumber isNumber []
  rw [none] at starts
  exact absurd starts (by decide)

/-- A text that starts with a number is scanned as one. -/
theorem step_of_startsNumber
    {char : Char}
    {rest : List Char}
    (number : startsNumber (char :: rest) = true) :
    step char rest = (scanNumeric (char :: rest)).map some := by
  have ordinary : char ∉ decisive := by
    unfold startsNumber at number
    split at number
    · next shape =>
        rw [(List.cons.inj shape).1]
        decide
    · next shape =>
        rw [(List.cons.inj shape).1]
        decide
    · by_cases point : char = '.'
      · rw [point]
        decide
      · rw [startsUnsignedNumber_cons point] at number
        exact notMem_decisive (by decide) number
  rw [step_of_notMem ordinary, scanToken_of_notMem ordinary, if_pos number]

end Writing

end TreeSelectors.Lexer
