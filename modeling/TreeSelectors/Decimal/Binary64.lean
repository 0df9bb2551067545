namespace TreeSelectors

/-!
# Double-precision numbers as bits

A double is its sixty-four bits. Its value is a natural number times a power
of two, so that rounding, multiplying and dividing are exact computations on
natural numbers followed by one rounding to the nearest double, ties going to
the even neighbour.
-/

/-- A double-precision number, given by its bits. -/
structure Binary64 where
  bits : UInt64
deriving Repr, DecidableEq

namespace Binary64

/-- The bit that marks a negative number. -/
def signBit : Nat :=
  Nat.pow 2 63

/-- The bits of positive infinity. -/
def infinityBits : Nat :=
  0x7FF0000000000000

/-- The double with the given sign and magnitude bits. -/
def ofMagnitude (negative : Bool) (magnitude : Nat) : Binary64 :=
  ⟨UInt64.ofNat (if negative then signBit + magnitude else magnitude)⟩

/-- Zero, with a sign. -/
def zero (negative : Bool) : Binary64 :=
  ofMagnitude negative 0

/-- Infinity, with a sign. -/
def infinity (negative : Bool) : Binary64 :=
  ofMagnitude negative infinityBits

/-- The quiet not-a-number. -/
def notANumber : Binary64 :=
  ⟨0x7FF8000000000000⟩

/-- Whether the sign bit is set. -/
def isNegative (number : Binary64) : Bool :=
  decide (signBit ≤ number.bits.toNat)

/-- The bits without the sign. -/
def magnitude (number : Binary64) : Nat :=
  number.bits.toNat % signBit

/-- Neither infinite nor not a number. -/
def isFinite (number : Binary64) : Bool :=
  decide (number.magnitude < infinityBits)

/-- Infinite, of either sign. -/
def isInfinite (number : Binary64) : Bool :=
  number.magnitude == infinityBits

/-- Not a number, whatever its payload. -/
def isNaN (number : Binary64) : Bool :=
  decide (infinityBits < number.magnitude)

/-- The exponent field. -/
def exponentField (number : Binary64) : Nat :=
  number.magnitude / Nat.pow 2 52

/-- The integer `m` of a finite value `m * 2 ^ q`. -/
def significand (number : Binary64) : Nat :=
  if number.exponentField = 0 then
    number.magnitude % Nat.pow 2 52
  else
    Nat.pow 2 52 + number.magnitude % Nat.pow 2 52

/-- The exponent `q` of a finite value `m * 2 ^ q`. -/
def exponent (number : Binary64) : Int :=
  (max number.exponentField 1 : Nat) - 1075

/-- The numerator of `n * 2 ^ q` as a fraction. -/
def scaledNumerator (n : Nat) (q : Int) : Nat :=
  n * Nat.pow 2 q.toNat

/-- The denominator of `n * 2 ^ q` as a fraction. -/
def scaledDenominator (q : Int) : Nat :=
  Nat.pow 2 (-q).toNat

/-- A fraction rounded to the nearest integer, a tie going to the even one. -/
def roundHalfEven (numerator denominator : Nat) : Nat :=
  let quotient := numerator / denominator
  let twice := 2 * (numerator % denominator)
  if twice < denominator then
    quotient
  else if denominator < twice then
    quotient + 1
  else
    quotient + quotient % 2

/--
The exponent of the doubles around a positive fraction: the one for which the
significand has fifty-three bits, but never less than that of the smallest
doubles.
-/
def unitExponent (numerator denominator : Nat) : Int :=
  let guess : Int := (numerator.log2 : Int) - (denominator.log2 : Int) - 52
  let large :=
    decide (denominator * Nat.pow 2 52 * Nat.pow 2 guess.toNat ≤
      numerator * Nat.pow 2 (-guess).toNat)
  max (if large then guess else guess - 1) (-1074)

/-- The double nearest to a fraction with the given sign. -/
def ofFraction (negative : Bool) (numerator denominator : Nat) : Binary64 :=
  if numerator = 0 then
    zero negative
  else
    let unit := unitExponent numerator denominator
    let rounded :=
      roundHalfEven (numerator * Nat.pow 2 (-unit).toNat) (denominator * Nat.pow 2 unit.toNat)
    let magnitude := (unit + 1074).toNat * Nat.pow 2 52 + rounded
    if infinityBits ≤ magnitude then
      infinity negative
    else
      ofMagnitude negative magnitude

/-- The numerator of a finite double's absolute value. -/
def numerator (number : Binary64) : Nat :=
  scaledNumerator number.significand number.exponent

/-- The denominator of a finite double's absolute value. -/
def denominator (number : Binary64) : Nat :=
  scaledDenominator number.exponent

/-- The product of two finite doubles, rounded once. -/
def multiply (left right : Binary64) : Binary64 :=
  ofFraction (left.isNegative != right.isNegative)
    (left.numerator * right.numerator) (left.denominator * right.denominator)

/-- The quotient of two finite doubles, the second not zero, rounded once. -/
def divide (left right : Binary64) : Binary64 :=
  ofFraction (left.isNegative != right.isNegative)
    (left.numerator * right.denominator) (left.denominator * right.numerator)

/-- The double nearest to a natural number. -/
def ofNat (n : Nat) : Binary64 :=
  ofFraction false n 1

/-- The number with its sign turned. -/
def negate (number : Binary64) : Binary64 :=
  ofMagnitude (!number.isNegative) number.magnitude

/--
The double nearest to `digits * 10 ^ power`. Numbers far outside the range of
doubles are decided by their decimal magnitude, before any power of ten is
computed.
-/
def ofDecimal (negative : Bool) (digits : Nat) (power : Int) : Binary64 :=
  let size : Int := (digits.log2 : Int) * 30103 / 100000 + power
  if digits = 0 then
    zero negative
  else if 400 < size then
    infinity negative
  else if size < -500 then
    zero negative
  else
    ofFraction negative (digits * Nat.pow 10 power.toNat) (Nat.pow 10 (-power).toNat)

end Binary64

end TreeSelectors
