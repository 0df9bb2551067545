import TreeSelectors.Text.Table.Lower
import TreeSelectors.Text.Table.Cased
import TreeSelectors.Text.Table.CaseIgnorable

namespace TreeSelectors.Text

/-!
# Lower-casing

Lower-casing maps every character on its own, with one exception that looks at
its neighbours: a capital sigma at the end of a word becomes a final sigma. It
ends a word if a cased character stands before it and none after it, case
ignorable characters in between being passed over.
-/

/-- Whether a code point lies in one of the ranges. -/
def inRanges (ranges : List (Nat × Nat)) (code : Nat) : Bool :=
  ranges.any fun range => decide (range.1 ≤ code) && decide (code ≤ range.2)

/-- The Unicode property `Cased`. -/
def isCased (char : Char) : Bool :=
  inRanges casedRanges char.toNat

/-- The Unicode property `Case_Ignorable`. -/
def isCaseIgnorable (char : Char) : Bool :=
  inRanges caseIgnorableRanges char.toNat

namespace LowerRun

/-- Whether the run holds the code point. -/
def covers (run : LowerRun) (code : Nat) : Bool :=
  decide (run.first ≤ code) && decide (code ≤ run.last) &&
    (code - run.first) % run.stride == 0

/-- The code point that a covered one is lowered to. -/
def lower (run : LowerRun) (code : Nat) : Nat :=
  run.target + (code - run.first)

end LowerRun

/-- The lower case of one character, whatever stands around it. -/
def lowerChar (char : Char) : List Char :=
  if char == '\u0130' then
    ['i', '\u0307']
  else
    match lowerRuns.find? (·.covers char.toNat) with
    | some run =>
        [Char.ofNat (run.lower char.toNat)]
    | none =>
        [char]

/-- Capital sigma, the one letter whose lower case depends on its place. -/
def capitalSigma : Char :=
  '\u03A3'

/-- Whether a text starts with case-ignorable characters and then a cased one. -/
def startsCased (text : List Char) : Bool :=
  match text.dropWhile isCaseIgnorable with
  | [] =>
      false
  | char :: _ =>
      isCased char

/--
The lower case of a text that follows other text. `afterCased` says whether
the last character before it that is not case ignorable is cased.
-/
def lowerAfter (afterCased : Bool) : List Char → List Char
  | [] =>
      []
  | char :: rest =>
      let lowered :=
        if char == capitalSigma then
          if afterCased && !startsCased rest then ['\u03C2'] else ['\u03C3']
        else
          lowerChar char
      let afterNext := if isCaseIgnorable char then afterCased else isCased char
      lowered ++ lowerAfter afterNext rest

/-- The lower case of a text. -/
def lowerCase (text : List Char) : List Char :=
  lowerAfter false text

end TreeSelectors.Text
