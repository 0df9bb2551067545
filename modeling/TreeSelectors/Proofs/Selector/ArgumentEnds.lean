import TreeSelectors.Proofs.Selector.FlatPhrases

namespace TreeSelectors.Grammar

/-!
# Where an argument ends

The end of an argument is found by a cursor that goes from token to token and
counts the parentheses that are still open. Here that scan is written with a
counter that must not go below zero and with parts of the tokens that have to be
there. It cuts off what `splitArgument?` cuts off, which is all up to the
parenthesis that has no partner in front of it: `scansArgument`.
-/

open TreeSelectors.Parser

/-- The tokens from one position up to another; both have to be there. -/
def slice? (tokens : List Token) (start stop : Nat) : Option (List Token) :=
  if start ≤ stop ∧ stop ≤ tokens.length then
    some ((tokens.drop start).take (stop - start))
  else
    none

/-- What a scan for the end of an argument comes to. -/
inductive ArgumentScan where
  /-- The argument, and the position behind the parenthesis that closes it. -/
  | found (inside : List Token) (position : Nat)
  | failed (error : SyntaxError)
  /-- A parenthesis is closed and none is counted as open. -/
  | underflow
  /-- A part of the tokens is cut out that is not there. -/
  | outOfBounds
deriving Repr, DecidableEq

/-- The scan from a position on, with the start of the argument and the open parentheses. -/
def scanFrom (tokens : List Token) (start position unclosed : Nat) : ArgumentScan :=
  if small : position < tokens.length then
    if closes tokens[position] then
      match unclosed with
      | 0 => .underflow
      | unclosed + 1 =>
          if unclosed = 0 then
            match slice? tokens start position with
            | some inside => .found inside (position + 1)
            | none => .outOfBounds
          else
            scanFrom tokens start (position + 1) unclosed
    else if opens tokens[position] then
      scanFrom tokens start (position + 1) (unclosed + 1)
    else
      scanFrom tokens start (position + 1) unclosed
  else
    .failed .parenthesesMismatch
termination_by tokens.length - position

/-- The scan for the end of the argument that starts at a position, its function being read. -/
def scanArgument (tokens : List Token) (start : Nat) : ArgumentScan :=
  scanFrom tokens start start 1

/-- The scan that cuts off an argument from its start, or finds no end of it. -/
def ArgumentScan.ofSplit (start : Nat) : Option (List Token × List Token) → ArgumentScan
  | none => .failed .parenthesesMismatch
  | some (inside, _) => .found inside (start + inside.length + 1)

theorem splitArgument?_eq_some_iff
    {depth : Nat}
    {tokens inside behind : List Token} :
    splitArgument? depth tokens = some (inside, behind) ↔
      tokens = inside ++ .rightParen :: behind ∧ Closing depth inside := by
  constructor
  · intro found
    exact ⟨splitArgument?_eq_some found, closing_of_splitArgument? found⟩
  · rintro ⟨whole, closing⟩
    rw [whole]
    exact splitArgument?_append closing behind

/-- No end of an argument is found if nowhere more is closed than has been opened. -/
theorem splitArgument?_eq_none_iff
    {depth : Nat}
    {tokens : List Token} :
    splitArgument? depth tokens = none ↔ NeverOvercloses depth tokens := by
  induction tokens generalizing depth with
  | nil =>
      refine iff_of_true rfl fun front isFront => ?_
      rw [List.prefix_nil.mp isFront]
      exact Nat.zero_le _
  | cons token tokens inductionHypothesis =>
      rcases exists_step depth token with ⟨isZero, isClosing⟩ | ⟨after, step⟩
      · subst isZero
        subst isClosing
        exact iff_of_false (by simp [splitArgument?]) not_neverOvercloses_zero_rightParen
      · rw [splitArgument?_cons step, Option.map_eq_none_iff, inductionHypothesis,
          neverOvercloses_cons_iff step]

section Scanning

variable {tokens front rest : List Token} {token : Token} {start depth after : Nat}

theorem slice?_eq
    (whole : tokens.drop start = front ++ token :: rest) :
    slice? tokens start (start + front.length) = some front := by
  have within := congrArg List.length whole
  rw [List.length_drop, List.length_append, List.length_cons] at within
  rw [slice?, if_pos ⟨Nat.le_add_right _ _, by omega⟩, Nat.add_sub_cancel_left, whole,
    List.take_left]

/-- The token at a position of the scan is the one behind those it has passed. -/
theorem getElem?_eq
    (whole : tokens.drop start = front ++ token :: rest) :
    tokens[start + front.length]? = some token := by
  rw [← List.getElem?_drop, whole]
  simp

/-- At a token that closes the argument the scan has found it. -/
theorem scanFrom_found
    (whole : tokens.drop start = front ++ .rightParen :: rest) :
    scanFrom tokens start (start + front.length) 1 =
      .found front (start + front.length + 1) := by
  obtain ⟨small, here⟩ := List.getElem?_eq_some_iff.mp (getElem?_eq whole)
  rw [scanFrom, dif_pos small, here, slice?_eq whole]
  rfl

/-- At any other token the scan goes on, with what is open behind that token. -/
theorem scanFrom_step
    (whole : tokens.drop start = front ++ token :: rest)
    (step : depth + (opens token).toNat = after + (closes token).toNat) :
    scanFrom tokens start (start + front.length) (depth + 1) =
      scanFrom tokens start (start + (front ++ [token]).length) (after + 1) := by
  obtain ⟨small, here⟩ := List.getElem?_eq_some_iff.mp (getElem?_eq whole)
  rw [scanFrom, dif_pos small, here, List.length_append, List.length_singleton, ← Nat.add_assoc]
  cases token with
  | rightParen =>
      have fewer : depth = after + 1 := step
      simp [closes, fewer]
  | leftParen =>
      have more : depth + 1 = after := step
      simp [closes, opens, more]
  | function name =>
      have more : depth + 1 = after := step
      simp [closes, opens, more]
  | _ =>
      have same : depth = after := step
      simp [closes, opens, same]

/-- From wherever it has come a scan cuts off what is left, behind the tokens it has passed. -/
theorem scanFrom_eq
    (whole : tokens.drop start = front ++ rest) :
    scanFrom tokens start (start + front.length) (depth + 1) =
      .ofSplit start
        ((splitArgument? depth rest).map fun found => (front ++ found.1, found.2)) := by
  induction rest generalizing front depth with
  | nil =>
      have ends := congrArg List.length whole
      rw [List.append_nil, List.length_drop] at ends
      rw [scanFrom, dif_neg (by omega)]
      rfl
  | cons token rest inductionHypothesis =>
      rcases exists_step depth token with ⟨isZero, isClosing⟩ | ⟨after, step⟩
      · subst isZero
        subst isClosing
        rw [scanFrom_found whole]
        simp [splitArgument?, ArgumentScan.ofSplit]
      -- The counter is one more than what is open inside the argument.
      · have passed : tokens.drop start = front ++ [token] ++ rest := by
          rw [whole, List.append_assoc, List.singleton_append]
        rw [scanFrom_step whole step, inductionHypothesis passed, splitArgument?_cons step,
          Option.map_map]
        simp [Function.comp_def]

theorem scanArgument_eq
    (tokens : List Token)
    (start : Nat) :
    scanArgument tokens start = .ofSplit start (splitArgument? 0 (tokens.drop start)) := by
  have scanned : scanFrom tokens start (start + ([] : List Token).length) (0 + 1) = _ :=
    scanFrom_eq (List.nil_append (tokens.drop start)).symm
  simpa [scanArgument] using scanned

/-- A scan finds what is cut off and goes past it, or nothing is cut off and it fails. -/
theorem scanArgument_cases
    (tokens : List Token)
    (start : Nat) :
    splitArgument? 0 (tokens.drop start) = none ∧
        scanArgument tokens start = .failed .parenthesesMismatch ∨
      ∃ inside,
        splitArgument? 0 (tokens.drop start) =
            some (inside, tokens.drop (start + inside.length + 1)) ∧
          scanArgument tokens start = .found inside (start + inside.length + 1) := by
  rw [scanArgument_eq]
  cases cut : splitArgument? 0 (tokens.drop start) with
  | none =>
      exact Or.inl ⟨rfl, rfl⟩
  | some parts =>
      obtain ⟨inside, behind⟩ := parts
      have after : behind = tokens.drop (start + inside.length + 1) := by
        rw [Nat.add_assoc, ← List.drop_drop, splitArgument?_eq_some cut]
        simp
      rw [after]
      exact Or.inr ⟨inside, rfl, rfl⟩

end Scanning

/-- What a scan for the end of the argument at a position does. -/
structure ScansArgument (tokens : List Token) (start : Nat) : Prop where
  /-- It comes to what a pseudo selector there takes as its argument. -/
  agrees :
    scanArgument tokens start = .ofSplit start (splitArgument? 0 (tokens.drop start))
  /-- It cuts in front of the parenthesis that has no partner, and stands behind it. -/
  cuts :
    ∀ {inside position}, scanArgument tokens start = .found inside position →
      Parenthesized inside ∧ position = start + inside.length + 1 ∧
        tokens.drop start = inside ++ .rightParen :: tokens.drop position
  /-- There is no second way to cut there. -/
  unique :
    ∀ {inside behind other rest},
      Parenthesized inside → tokens.drop start = inside ++ .rightParen :: behind →
      Parenthesized other → tokens.drop start = other ++ .rightParen :: rest →
      inside = other ∧ behind = rest
  /-- It fails if nowhere more is closed than has been opened. -/
  fails :
    scanArgument tokens start = .failed .parenthesesMismatch ↔
      ∀ front, front <+: tokens.drop start → front.countP closes ≤ front.countP opens
  /-- There is no other way to fail. -/
  failsOnly :
    ∀ {error}, scanArgument tokens start = .failed error → error = .parenthesesMismatch
  counts :
    scanArgument tokens start ≠ .underflow
  inBounds :
    scanArgument tokens start ≠ .outOfBounds

theorem scanArgument_scans
    (tokens : List Token)
    (start : Nat) :
    ScansArgument tokens start := by
  have agrees := scanArgument_eq tokens start
  have unique : ∀ {inside behind other rest},
      Parenthesized inside → tokens.drop start = inside ++ .rightParen :: behind →
      Parenthesized other → tokens.drop start = other ++ .rightParen :: rest →
      inside = other ∧ behind = rest :=
    fun first whole second same => parenthesized_inj first second (whole.symm.trans same)
  obtain ⟨uncut, failed⟩ | ⟨inside, cut, found⟩ := scanArgument_cases tokens start
  · have never := splitArgument?_eq_none_iff.mp uncut
    exact ⟨agrees, by simp [failed], unique, iff_of_true failed never, by simp [failed],
      by simp [failed], by simp [failed]⟩
  · have overcloses : ¬ NeverOvercloses 0 (tokens.drop start) := by
      rw [← splitArgument?_eq_none_iff, cut]
      simp
    obtain ⟨whole, closing⟩ := splitArgument?_eq_some_iff.mp cut
    refine ⟨agrees, fun same => ?_, unique, iff_of_false (by simp [found]) overcloses,
      by simp [found], by simp [found], by simp [found]⟩
    rw [found] at same
    cases same
    exact ⟨closing, rfl, whole⟩

end TreeSelectors.Grammar
