import TreeSelectors.Decimal.Shortest

namespace TreeSelectors.Decimal

/-!
# Writing a double

A layout decides what the shortest digits do not: which of two equally near
decimals is written, from which magnitude to which a number is written without
an exponent, and how an exponent is written.
A whole number without an exponent always ends in `.0`.
-/

/-- The decisions of a number format. -/
structure Layout where
  /-- Which of two equally near decimals is written. -/
  tie : Tie
  /-- The least exponent of the leading digit that is written positionally. -/
  leastPositional : Int
  /-- The first exponent of the leading digit that is too large for that. -/
  firstScientific : Int
  /-- Whether a positive exponent carries its sign. -/
  plusSign : Bool
deriving Repr, DecidableEq

/-- The digits with a point among them or zeros around them. -/
def positional (digits : List Char) (power : Int) : List Char :=
  let count : Int := digits.length
  if 0 ≤ power then
    digits ++ List.replicate power.toNat '0' ++ ['.', '0']
  else if -power < count then
    let whole := (count + power).toNat
    digits.take whole ++ '.' :: digits.drop whole
  else
    '0' :: '.' :: List.replicate (-power - count).toNat '0' ++ digits

/-- The digits with a point behind the first and an exponent. -/
def scientific (layout : Layout) (digits : List Char) (leading : Int) : List Char :=
  let fraction :=
    match digits.drop 1 with
    | [] => []
    | others => '.' :: others
  let sign :=
    if leading < 0 then ['-'] else if layout.plusSign then ['+'] else []
  digits.take 1 ++ fraction ++ 'e' :: sign ++ Nat.toDigits 10 leading.natAbs

/-- A double without its sign. -/
def unsignedChars (layout : Layout) (number : Binary64) : List Char :=
  if number.magnitude = 0 then
    ['0', '.', '0']
  else
    let decimal := shortest layout.tie number
    let digits := Nat.toDigits 10 decimal.digits
    let leading := (digits.length : Int) - 1 + decimal.power
    if layout.leastPositional ≤ leading ∧ leading < layout.firstScientific then
      positional digits decimal.power
    else
      scientific layout digits leading

/-- The text of a finite double. -/
def write (layout : Layout) (number : Binary64) : String :=
  (if number.isNegative then "-" else "") ++ String.ofList (unsignedChars layout number)

end TreeSelectors.Decimal
