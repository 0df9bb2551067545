import TreeSelectors.Decimal.Binary64

namespace TreeSelectors.Decimal

/-!
# The shortest decimal that reads back

Among the decimals that round to a given double, the one with the fewest
digits is written; of several with that many digits the one nearest to the
double. Which of two equally near ones is taken is for the format to say. The
search tries grids of one, two, … seventeen digits and looks at the two
neighbours of the value on each, in exact arithmetic.
-/

/-- Which of two equally near decimals is taken. -/
inductive Tie where
  /-- The one with the even last digit. -/
  | toEven
  /-- The one farther from zero. -/
  | up
deriving Repr, DecidableEq

/-- The decimal for a value in the middle between a grid point and the next. -/
def Tie.choose (below : Nat) : Tie → Nat
  | .toEven => below + below % 2
  | .up => below + 1

/-- A positive decimal `digits * 10 ^ power`. -/
structure Digits where
  digits : Nat
  power : Int
deriving Repr, DecidableEq

/-- The number of decimal digits of a natural number, at least one. -/
def digitCount (n : Nat) : Nat :=
  (Nat.toDigits 10 n).length

/-- The exponent of the leading digit of a positive fraction. -/
def leadingPower (numerator denominator : Nat) : Int :=
  if denominator ≤ numerator then
    (digitCount (numerator / denominator) : Int) - 1
  else
    -(digitCount ((denominator + numerator - 1) / numerator - 1) : Int)

/-- The decimals that round to one double, as fractions over four denominators. -/
structure RoundingInterval where
  lower : Nat
  value : Nat
  upper : Nat
  denominator : Nat
  closed : Bool
deriving Repr

/-- The interval of a positive finite double. -/
def roundingInterval (number : Binary64) : RoundingInterval :=
  let unit := Binary64.scaledNumerator 1 number.exponent
  let significand := number.significand
  let gapBelow :=
    if significand = Nat.pow 2 52 ∧ 1 < number.exponentField then unit else 2 * unit
  { lower := 4 * significand * unit - gapBelow
    value := 4 * significand * unit
    upper := 4 * significand * unit + 2 * unit
    denominator := 4 * number.denominator
    closed := significand % 2 == 0 }

namespace RoundingInterval

/-- Whether the decimal `digits * 10 ^ power` rounds to the double. -/
def holds (interval : RoundingInterval) (digits : Nat) (power : Int) : Bool :=
  let point := digits * Nat.pow 10 power.toNat * interval.denominator
  let scale := Nat.pow 10 (-power).toNat
  if interval.closed then
    decide (interval.lower * scale ≤ point) && decide (point ≤ interval.upper * scale)
  else
    decide (interval.lower * scale < point) && decide (point < interval.upper * scale)

/-- The decimal on the grid of one power of ten that is to be written, if any. -/
def onGrid? (tie : Tie) (interval : RoundingInterval) (power : Int) : Option Nat :=
  let scaled := interval.value * Nat.pow 10 (-power).toNat
  let cell := interval.denominator * Nat.pow 10 power.toNat
  let below := scaled / cell
  let twice := 2 * (scaled % cell)
  let nearest :=
    if twice < cell then below
    else if cell < twice then below + 1
    else tie.choose below
  let other := if nearest = below then below + 1 else below
  if interval.holds nearest power then some nearest
  else if interval.holds other power then some other
  else none

end RoundingInterval

/-- The first grid with a hit, starting at the given power and going down. -/
def searchGrids (tie : Tie) (interval : RoundingInterval) : Nat → Int → Digits
  | 0, power =>
      ⟨interval.value * Nat.pow 10 (-power).toNat /
        (interval.denominator * Nat.pow 10 power.toNat), power⟩
  | tries + 1, power =>
      match interval.onGrid? tie power with
      | some digits =>
          ⟨digits, power⟩
      | none =>
          searchGrids tie interval tries (power - 1)

/-- The decimal without zeros at its end. -/
def dropTrailingZeros : Nat → Digits → Digits
  | 0, decimal =>
      decimal
  | tries + 1, decimal =>
      if decimal.digits % 10 = 0 then
        dropTrailingZeros tries ⟨decimal.digits / 10, decimal.power + 1⟩
      else
        decimal

/-- The shortest decimal of a positive finite double. -/
def shortest (tie : Tie) (number : Binary64) : Digits :=
  let interval := roundingInterval number
  dropTrailingZeros 20
    (searchGrids tie interval 17 (leadingPower interval.value interval.denominator))

end TreeSelectors.Decimal
