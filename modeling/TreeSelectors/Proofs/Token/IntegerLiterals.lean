import Mathlib.Data.List.Induction
import Mathlib.Data.Nat.Digits.Defs
import TreeSelectors.Proofs.Token.Numbers

namespace TreeSelectors

/-!
# Integers as they are written

An `IntegerLiteral` is a sign, or none, and at least one decimal digit. It is a
number that a text can be scanned for, of integer kind whatever its length, and
the integer found in it is the one it denotes if that fits into sixty-four bits;
else none is found: `IntegerLiteral.integer?_numeral`.
-/

open TreeSelectors.Lexer

/-- What stands in front of the digits of an integer. -/
inductive LiteralSign where
  | absent
  | plus
  | minus
deriving Repr, DecidableEq

namespace LiteralSign

/-- The characters of a sign. -/
def chars : LiteralSign → List Char
  | .absent => []
  | .plus => ['+']
  | .minus => ['-']

/-- The integer with a sign and an absolute value. -/
def apply : LiteralSign → Nat → Int
  | .absent, size => size
  | .plus, size => size
  | .minus, size => -size

theorem isSign_chars
    (sign : LiteralSign) :
    IsSign sign.chars := by
  cases sign <;> simp [IsSign, chars]

end LiteralSign

/-- The character of a decimal digit. -/
def decimalChar (digit : Fin 10) : Char :=
  Nat.digitChar digit

theorem isDigit_decimalChar :
    ∀ digit, (decimalChar digit).isDigit = true := by
  decide

theorem allDigits_map_decimalChar
    (digits : List (Fin 10)) :
    AllDigits (digits.map decimalChar) :=
  List.forall_mem_map.mpr fun digit _ => isDigit_decimalChar digit

/-- Digits are read from the left with the value that they have from the right. -/
theorem digitsValue_map_decimalChar
    (digits : List (Fin 10)) :
    Numeral.digitsValue (digits.map decimalChar) =
      Nat.ofDigits 10 (digits.reverse.map Fin.val) := by
  have ofChar : ∀ digit, (decimalChar digit).toNat - '0'.toNat = digit.val := by
    decide
  induction digits using List.reverseRecOn with
  | nil => rfl
  | append_singleton digits last inductionHypothesis =>
      rw [Numeral.digitsValue] at inductionHypothesis ⊢
      rw [List.map_append, List.foldl_append, inductionHypothesis, List.reverse_append]
      simp only [List.map_cons, List.map_nil, List.foldl_cons, List.foldl_nil, ofChar,
        List.reverse_singleton, List.singleton_append, Nat.ofDigits_cons, Nat.add_comm]

/-- An integer as it is written: a sign or none, and at least one decimal digit. -/
structure IntegerLiteral where
  sign : LiteralSign
  digits : List (Fin 10)
  nonempty : digits ≠ []

namespace IntegerLiteral

/-- The characters of a literal. -/
def chars (literal : IntegerLiteral) : List Char :=
  literal.sign.chars ++ literal.digits.map decimalChar

/-- The text of a literal. -/
def text (literal : IntegerLiteral) : String :=
  String.ofList literal.chars

/-- The integer that a literal denotes. -/
def value (literal : IntegerLiteral) : Int :=
  literal.sign.apply (Nat.ofDigits 10 (literal.digits.reverse.map Fin.val))

/-- The numeral that is written as a literal. -/
def numeral (literal : IntegerLiteral) : Numeral :=
  ⟨literal.text⟩

/-- The integer of a literal fits into sixty-four bits with a sign. -/
def Fits (literal : IntegerLiteral) : Prop :=
  -9223372036854775808 ≤ literal.value ∧ literal.value ≤ 9223372036854775807

instance (literal : IntegerLiteral) : Decidable literal.Fits :=
  inferInstanceAs (Decidable (_ ∧ _))

variable (literal : IntegerLiteral)

@[simp] theorem toList_text :
    literal.text.toList = literal.chars := by
  simp [text]

/-- What stands behind the sign of a literal starts with no sign. -/
theorem exists_first :
    ∃ first others, literal.digits.map decimalChar = first :: others ∧
      Numeral.isSign first = false := by
  have noSign : ∀ digit, Numeral.isSign (decimalChar digit) = false := by
    decide
  obtain ⟨first, others, shape⟩ := List.exists_cons_of_ne_nil literal.nonempty
  exact ⟨decimalChar first, others.map decimalChar, by rw [shape, List.map_cons], noSign first⟩

theorem isNumber_chars :
    IsNumber literal.chars := by
  refine ⟨literal.sign.chars, literal.digits.map decimalChar, [], [], ?_, by simp [chars]⟩
  exact {
    signShape := literal.sign.isSign_chars
    wholeDigits := allDigits_map_decimalChar literal.digits
    fractionShape := Or.inl rfl
    exponentShape := Or.inl rfl
    someDigit := Or.inl (by simpa using literal.nonempty)
  }

/-- Nothing but digits follows the sign of a literal. -/
theorem kind_numeral :
    literal.numeral.kind = .integer := by
  obtain ⟨first, others, shape, noSign⟩ := literal.exists_first
  have signs : ∀ char ∈ literal.sign.chars, Numeral.isSign char = true := by
    cases literal.sign <;> decide
  have unsigned : literal.chars.dropWhile Numeral.isSign = literal.digits.map decimalChar := by
    rw [chars, List.dropWhile_append_of_pos signs, shape,
      List.dropWhile_cons_of_neg (by simp [noSign])]
  have allDigits := List.all_eq_true.mpr (allDigits_map_decimalChar literal.digits)
  rw [Numeral.kind, numeral, toList_text, unsigned, Numeral.allDigits, if_pos allDigits]

theorem splitSign_chars :
    Numeral.splitSign literal.chars =
      (literal.sign == .minus, literal.digits.map decimalChar) := by
  obtain ⟨first, others, shape, noSign⟩ := literal.exists_first
  rw [chars, shape]
  cases literal.sign with
  | absent =>
      rw [LiteralSign.chars, List.nil_append, Numeral.splitSign.eq_def]
      split
      · next same => exact absurd noSign (by rw [(List.cons.inj same).1]; decide)
      · next same => exact absurd noSign (by rw [(List.cons.inj same).1]; decide)
      · rfl
  | plus => rfl
  | minus => rfl

/-- A literal is read as the integer that it denotes. -/
theorem integerOf?_chars :
    Numeral.integerOf? literal.chars = some literal.value := by
  have allDigits := List.all_eq_true.mpr (allDigits_map_decimalChar literal.digits)
  have readable : ((literal.digits.map decimalChar).isEmpty ||
      !Numeral.allDigits (literal.digits.map decimalChar)) = false := by
    rw [Numeral.allDigits, allDigits]
    simpa using literal.nonempty
  rw [Numeral.integerOf?, splitSign_chars]
  simp only [readable, digitsValue_map_decimalChar, value]
  cases literal.sign <;> rfl

theorem fitsInt64_value_iff :
    Numeral.fitsInt64 literal.value = true ↔ literal.Fits := by
  have bound : Int.pow 2 63 = 9223372036854775808 := by
    decide
  rw [Numeral.fitsInt64, bound, Bool.and_eq_true, decide_eq_true_eq, decide_eq_true_eq, Fits]
  omega

/-- The integer of a literal is found exactly if it fits into sixty-four bits. -/
theorem integer?_numeral :
    literal.numeral.integer? = if literal.Fits then some literal.value else none := by
  rw [Numeral.integer?, kind_numeral]
  simp only [numeral, toList_text, integerOf?_chars, Option.filter_some, fitsInt64_value_iff]

end IntegerLiteral

end TreeSelectors
