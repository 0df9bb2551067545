import TreeSelectors.Decimal.Binary64

namespace TreeSelectors

/-!
# Numerals of selector text

A numeral keeps the text it was written as, so that it can be written back
unchanged; its value, its kind and its integer are functions of that text. A
text is of integer kind if nothing but digits follows its signs. A text that
is no decimal number at all has the value zero.
-/

/-- A number as it was written. -/
structure Numeral where
  text : String
deriving Repr, DecidableEq

/-- Whether a numeral is written as an integer or with a point or exponent. -/
inductive NumeralKind where
  | integer
  | number
deriving Repr, DecidableEq

namespace Numeral

/-- A text without one sign in front, and whether that sign was a minus. -/
def splitSign : List Char → Bool × List Char
  | '-' :: rest => (true, rest)
  | '+' :: rest => (false, rest)
  | text => (false, text)

/-- The natural number written by decimal digits, zero for none. -/
def digitsValue (digits : List Char) : Nat :=
  digits.foldl (fun total digit => 10 * total + (digit.toNat - '0'.toNat)) 0

/-- Only ASCII digits. -/
def allDigits (text : List Char) : Bool :=
  text.all Char.isDigit

/-- Signs stand in front of an integer, in any number. -/
def isSign (char : Char) : Bool :=
  char == '+' || char == '-'

/-- Whether nothing but digits follows the signs. -/
def kind (numeral : Numeral) : NumeralKind :=
  if allDigits (numeral.text.toList.dropWhile isSign) then .integer else .number

/-- The integer written by a text of at most one sign and at least one digit. -/
def integerOf? (text : List Char) : Option Int :=
  let (negative, digits) := splitSign text
  if digits.isEmpty || !allDigits digits then
    none
  else
    let value : Int := digitsValue digits
    some (if negative then -value else value)

/-- Whether an integer fits into sixty-four bits with a sign. -/
def fitsInt64 (value : Int) : Bool :=
  decide (-(Int.pow 2 63) ≤ value) && decide (value < Int.pow 2 63)

/-- The integer of a numeral of integer kind, if it fits into sixty-four bits. -/
def integer? (numeral : Numeral) : Option Int :=
  match numeral.kind with
  | .number =>
      none
  | .integer =>
      (integerOf? numeral.text.toList).filter fitsInt64

/-- The exponent written at the end of a number, empty text meaning none. -/
def exponentOf? : List Char → Option Int
  | [] =>
      some 0
  | mark :: rest =>
      if mark == 'e' || mark == 'E' then integerOf? rest else none

/-- The double written by digits, a point and an exponent without a sign. -/
def decimalOf? (negative : Bool) (text : List Char) : Option Binary64 :=
  let whole := text.takeWhile Char.isDigit
  let afterWhole := text.dropWhile Char.isDigit
  let (fraction, afterFraction) :=
    match afterWhole with
    | '.' :: rest => (rest.takeWhile Char.isDigit, rest.dropWhile Char.isDigit)
    | _ => ([], afterWhole)
  if whole.isEmpty && fraction.isEmpty then
    none
  else
    (exponentOf? afterFraction).map fun exponent =>
      Binary64.ofDecimal negative (digitsValue (whole ++ fraction)) (exponent - fraction.length)

/-- The double written by a text: a decimal, an infinity or not a number. -/
def valueOf? (text : List Char) : Option Binary64 :=
  let (negative, unsigned) := splitSign text
  let word := String.ofList (unsigned.map Char.toLower)
  if word = "inf" ∨ word = "infinity" then
    some (Binary64.infinity negative)
  else if word = "nan" then
    some Binary64.notANumber
  else
    decimalOf? negative unsigned

/-- The value of a numeral, zero if its text is no number. -/
def value (numeral : Numeral) : Binary64 :=
  (valueOf? numeral.text.toList).getD (Binary64.zero false)

end Numeral

end TreeSelectors
