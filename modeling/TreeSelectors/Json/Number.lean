import TreeSelectors.Decimal.Layout
import TreeSelectors.Json.Basic
import TreeSelectors.Numeral

namespace TreeSelectors.JsonNumber

/-!
# Numbers of JSON text

An integer literal that fits into sixty-four bits, with or without a sign, is
an integer; minus zero and every other literal is a double.

Doubles are read quickly rather than exactly: the leading digits that fit into
an unsigned sixty-four-bit significand are taken, rounded to a double, and
scaled by a tabulated power of ten with one more rounding. A literal whose
magnitude is beyond all doubles is no number at all.
-/

/-- The parts of a number literal. -/
structure Literal where
  negative : Bool
  whole : List Char
  fraction : List Char
  /-- The exponent, if one is written. -/
  exponent? : Option Int
deriving Repr, DecidableEq

/-- The first value that a significand cannot take. -/
def significandLimit : Nat :=
  Nat.pow 2 64

/--
A significand continued by the digits that fit, and how many of them do. The
first digit that does not fit ends it.
-/
def absorbDigits (significand : Nat) : List Char → Nat × Nat
  | [] =>
      (significand, 0)
  | digit :: rest =>
      let next := 10 * significand + (digit.toNat - '0'.toNat)
      if next < significandLimit then
        let (result, count) := absorbDigits next rest
        (result, count + 1)
      else
        (significand, 0)

/-- The double nearest to a power of ten. -/
def powerOfTen (power : Nat) : Binary64 :=
  Binary64.ofDecimal false 1 power

/-- The largest power of ten that is tabulated. -/
def largestPower : Nat :=
  308

/--
A nonnegative double scaled by a power of ten, one rounding for each
multiplication or division. There is no result if it would be infinite.
-/
def scale? (number : Binary64) (power : Int) : Option Binary64 :=
  if number = Binary64.zero false then
    some number
  else if (largestPower : Int) < power then
    none
  else if 0 ≤ power then
    let product := number.multiply (powerOfTen power.toNat)
    if product.isInfinite then none else some product
  else if -(largestPower : Int) ≤ power then
    some (number.divide (powerOfTen (-power).toNat))
  else
    scale? (number.divide (powerOfTen largestPower)) (power + largestPower)
termination_by (-power).toNat
decreasing_by
  simp only [largestPower] at *
  omega

/-- A magnitude with the sign of a literal. -/
def withSign (negative : Bool) (number : Binary64) : Binary64 :=
  if negative then number.negate else number

/-- The double that a literal stands for, if it is within range. -/
def doubleOf? (literal : Literal) : Option Binary64 :=
  let (leading, wholeCount) := absorbDigits 0 literal.whole
  let (significand, fractionCount) := absorbDigits leading literal.fraction
  let power : Int :=
    (literal.whole.length : Int) - wholeCount - fractionCount + literal.exponent?.getD 0
  (scale? (Binary64.ofNat significand) power).map (withSign literal.negative)

/-- Whether a literal has neither a fraction nor an exponent. -/
def isInteger (literal : Literal) : Bool :=
  literal.fraction.isEmpty && literal.exponent?.isNone

/-- The number that a literal stands for, if it is within range. -/
def ofLiteral? (literal : Literal) : Option JsonNumber :=
  let magnitude := Numeral.digitsValue literal.whole
  if isInteger literal && !literal.negative && decide (magnitude < significandLimit) then
    some (.integer magnitude)
  else if isInteger literal && literal.negative && magnitude != 0 &&
      decide (magnitude ≤ Nat.pow 2 63) then
    some (.integer (-magnitude))
  else
    (doubleOf? literal).map .double

/--
Doubles are written positionally from `0.00001` up to, but not including, ten
to the sixteenth; the exponent of any other always carries its sign. Of two
equally near decimals the even one is written.
-/
def layout : Decimal.Layout :=
  { tie := .toEven
    leastPositional := -5
    firstScientific := 16
    plusSign := true }

/-- The text of a number; JSON has none for a double that is not finite. -/
def text : JsonNumber → String
  | .integer value => toString value
  | .double value => if value.isFinite then Decimal.write layout value else "null"

end TreeSelectors.JsonNumber
