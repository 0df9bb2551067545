import Mathlib
import TreeSelectors.Proofs.Token.Pieces

namespace TreeSelectors

/-!
# Reading on behind a failure

A tokenizer that has failed stands behind what it failed at and can be called
again. Nothing of its text is lost or read twice between two calls: a call reads
pieces that spell the tokens it adds and, if it fails, one broken piece behind
them. `Tokenizer.resumes` says this of every call, together with what follows
for a row of calls: how often they can fail, and that they end for good.
-/

open TreeSelectors.Text

namespace Lexer

/-- A text is a row of comments and of the spellings of tokens, with other text behind it. -/
inductive PiecesBefore (rest : List Char) : List Char → List Token → Prop where
  | done :
      PiecesBefore rest [] []
  | comment {text others : List Char} {tokens : List Token} :
      CommentText text →
      PiecesBefore rest others tokens →
      PiecesBefore rest ('/' :: '*' :: (text ++ others)) tokens
  | token {text others : List Char} {token : Token} {tokens : List Token} :
      text ≠ [] →
      Spelling (others ++ rest) text token →
      PiecesBefore rest others tokens →
      PiecesBefore rest (text ++ others) (token :: tokens)

/-- What a failure takes of a text: all that one step reads, and nothing where none has failed. -/
inductive BrokenPiece (rest : List Char) : List Char → Option LexicalError → Prop where
  | none :
      BrokenPiece rest [] none
  | failed {char : Char} {text : List Char} {error : LexicalError} :
      (step char (text ++ rest)).outcome = .error error →
      (step char (text ++ rest)).rest = rest →
      BrokenPiece rest (char :: text) (some error)

/--
What one run reads in front of the rest: pieces that spell some tokens and, if it fails, one that
is broken.
-/
def ReadBy (text rest : List Char) (tokens : List Token) (error? : Option LexicalError) : Prop :=
  ∃ pieces broken,
    text = pieces ++ (broken ++ rest) ∧
      PiecesBefore (broken ++ rest) pieces tokens ∧
      BrokenPiece rest broken error?

theorem readBy_run
    (text : List Char) :
    ReadBy text (run text).rest (run text).tokens (run text).error? := by
  induction text using run.induct with
  | case1 =>
      rw [run_nil]
      exact ⟨[], [], rfl, .done, .none⟩
  | case2 char rest token? read inductionHypothesis =>
      obtain ⟨pieces, broken, shape, isPieces, isBroken⟩ := inductionHypothesis
      rw [run_cons, read]
      cases token? with
      | none =>
          obtain ⟨front, whole, commentText⟩ := commentText_of_step read
          refine ⟨'/' :: '*' :: (front ++ pieces), broken, ?_, .comment commentText isPieces,
            isBroken⟩
          rw [whole, List.cons_append, List.cons_append, List.append_assoc]
          exact congrArg (fun behind => '/' :: '*' :: (front ++ behind)) shape
      | some token =>
          obtain ⟨front, whole, nonempty, spelling⟩ := spells_step read
          refine ⟨front ++ pieces, broken, ?_, .token nonempty (shape ▸ spelling) isPieces,
            isBroken⟩
          rw [whole, List.append_assoc]
          exact congrArg (front ++ ·) shape
  | case3 char rest error read =>
      rw [run_cons, read]
      obtain ⟨front, whole⟩ := step_rest_suffix char rest
      refine ⟨[], char :: front, ?_, .done, .failed ?_ ?_⟩
      · rw [List.nil_append, List.cons_append, whole]
      · rw [whole, read]
      · rw [whole]

theorem BrokenPiece.length_pos
    {rest broken : List Char}
    {error? : Option LexicalError}
    (isBroken : BrokenPiece rest broken error?)
    (fails : error? ≠ Option.none) :
    0 < broken.length := by
  cases isBroken with
  | none => exact absurd rfl fails
  | failed => exact Nat.succ_pos _

/-- A run leaves the end of its text, and less than the whole text if it fails. -/
theorem run_rest_suffix
    (text : List Char) :
    (run text).rest <:+ text ∧
      ((run text).error? ≠ none → (run text).rest.length < text.length) := by
  obtain ⟨pieces, broken, shape, _, isBroken⟩ := readBy_run text
  refine ⟨⟨pieces ++ broken, ?_⟩, fun fails => ?_⟩
  · rw [List.append_assoc, ← shape]
  · have nonempty := isBroken.length_pos fails
    have lengths := congrArg List.length shape
    rw [List.length_append, List.length_append] at lengths
    omega

end Lexer

namespace Tokenizer

open TreeSelectors.Lexer

/-- The tokenizer of a text after some calls to read on. -/
def after (text : String) : Nat → Tokenizer
  | 0 => start text
  | calls + 1 => (after text calls).run.2

/-- What a call answers that has so many others before it. -/
def answer? (text : String) (earlier : Nat) : Option LexicalError :=
  (after text earlier).run.1

/-- How many characters of its text a tokenizer is past after some calls. -/
def position (text : String) (calls : Nat) : Nat :=
  (normalize text.toList).length - (after text calls).remaining.length

/-- The characters of a text from a position on. -/
def textFrom (text : String) (place : Nat) : List Char :=
  (normalize text.toList).drop place

/-- What a call does that has so many others before it. -/
structure Resumes (text : String) (calls : Nat) : Prop where
  keepsTokens :
    (after text calls).tokens <+: (after text (calls + 1)).tokens
  withinText :
    position text (calls + 1) ≤ (normalize text.toList).length
  advances :
    answer? text calls ≠ none → position text calls + 1 ≤ position text (calls + 1)
  failures :
    (List.range calls).countP (fun earlier => (answer? text earlier).isSome) ≤
      (normalize text.toList).length
  /-- A call that does not fail leaves nothing unread. -/
  readsAll :
    answer? text calls = none → position text (calls + 1) = (normalize text.toList).length
  finished :
    answer? text calls = none →
      ∀ later, calls < later →
        answer? text later = none ∧ (after text later).tokens = (after text (calls + 1)).tokens
  /--
  A new tokenizer on the characters that are left adds and answers the same, whether a notice has
  been given or not; all that a call does to that is to set it if it reads such an escape.
  -/
  startsAfresh :
    ∃ added escaped,
      (after text (calls + 1)).tokens = (after text calls).tokens ++ added ∧
        (after text (calls + 1)).hexEscapeReported =
          ((after text calls).hexEscapeReported || escaped) ∧
        (∀ reported,
          Tokenizer.run ⟨textFrom text (position text calls), [], reported⟩ =
            (answer? text calls,
              ⟨textFrom text (position text (calls + 1)), added, reported || escaped⟩)) ∧
        ReadBy (textFrom text (position text calls)) (textFrom text (position text (calls + 1)))
          added (answer? text calls)

section Calls

variable (text : String) (calls : Nat)

theorem remaining_suffix :
    (after text calls).remaining <:+ normalize text.toList := by
  induction calls with
  | zero => exact List.suffix_refl _
  | succ calls inductionHypothesis =>
      exact (run_rest_suffix (after text calls).remaining).1.trans inductionHypothesis

/-- What is left is the text from the position on. -/
theorem remaining_eq :
    (after text calls).remaining = textFrom text (position text calls) :=
  List.suffix_iff_eq_drop.mp (remaining_suffix text calls)

theorem position_le :
    position text calls ≤ (normalize text.toList).length :=
  Nat.sub_le _ _

/-- A call moves the position on if it fails, and never back. -/
theorem position_step :
    position text calls + (answer? text calls).isSome.toNat ≤ position text (calls + 1) := by
  have inside := (remaining_suffix text calls).length_le
  obtain ⟨isSuffix, shorter⟩ := run_rest_suffix (after text calls).remaining
  have later : (after text (calls + 1)).remaining = (Lexer.run (after text calls).remaining).rest :=
    rfl
  have answer : answer? text calls = (Lexer.run (after text calls).remaining).error? :=
    rfl
  rw [position, position, later, answer]
  cases failed : (Lexer.run (after text calls).remaining).error? with
  | none =>
      have notLonger := isSuffix.length_le
      simp only [Option.isSome_none, Bool.toNat_false]
      omega
  | some error =>
      have fewer := shorter (by simp [failed])
      simp only [Option.isSome_some, Bool.toNat_true]
      omega

/-- No more calls have failed than characters have been passed. -/
theorem failures_le_position :
    (List.range calls).countP (fun earlier => (answer? text earlier).isSome) ≤
      position text calls := by
  induction calls with
  | zero => simp
  | succ calls inductionHypothesis =>
      have step := position_step text calls
      rw [List.range_succ, List.countP_append, List.countP_singleton]
      cases failed : (answer? text calls).isSome with
      | false =>
          simp only [failed, Bool.toNat_false] at step
          simp only [Bool.false_eq_true, if_false]
          omega
      | true =>
          simp only [failed, Bool.toNat_true] at step
          simp only [if_true]
          omega

end Calls

/-- A tokenizer with nothing left does nothing. -/
theorem run_of_remaining_eq_nil
    {tokenizer : Tokenizer}
    (nothing : tokenizer.remaining = []) :
    tokenizer.run = (none, tokenizer) := by
  obtain ⟨remaining, tokens⟩ := tokenizer
  subst nothing
  simp [Tokenizer.run, hexEscape?, consumed, escapedChars]

theorem after_of_remaining_eq_nil
    {text : String}
    {calls : Nat}
    (nothing : (after text calls).remaining = [])
    (more : Nat) :
    after text (calls + more) = after text calls := by
  induction more with
  | zero => rfl
  | succ more inductionHypothesis =>
      calc
        after text (calls + (more + 1)) = (after text (calls + more)).run.2 := rfl
        _ = (after text calls).run.2 := by rw [inductionHypothesis]
        _ = after text calls := by rw [run_of_remaining_eq_nil nothing]

/-- A call that has not failed has left nothing. -/
theorem remaining_eq_nil_of_answer?_eq_none
    {text : String}
    {calls : Nat}
    (succeeded : answer? text calls = none) :
    (after text (calls + 1)).remaining = [] :=
  rest_run_of_noError succeeded

/-- Calls after one that has not failed answer the same and add nothing. -/
theorem after_of_answer?_eq_none
    {text : String}
    {calls later : Nat}
    (succeeded : answer? text calls = none)
    (isLater : calls < later) :
    answer? text later = none ∧ after text later = after text (calls + 1) := by
  have nothing := remaining_eq_nil_of_answer?_eq_none succeeded
  obtain ⟨more, same⟩ := Nat.exists_eq_add_of_le isLater
  have settled : after text later = after text (calls + 1) := by
    rw [same]
    exact after_of_remaining_eq_nil nothing more
  refine ⟨?_, settled⟩
  rw [answer?, settled, run_of_remaining_eq_nil nothing]

/-- Every call goes on where the one before it has stopped, whether that has failed or not. -/
theorem resumes
    (text : String)
    (calls : Nat) :
    Resumes text calls where
  keepsTokens :=
    List.prefix_append _ _
  withinText :=
    position_le text (calls + 1)
  advances := by
    intro failed
    have step := position_step text calls
    rwa [Option.isSome_iff_ne_none.mpr failed] at step
  failures :=
    (failures_le_position text calls).trans (position_le text calls)
  readsAll := by
    intro succeeded
    rw [position, remaining_eq_nil_of_answer?_eq_none succeeded]
    exact Nat.sub_zero _
  finished := by
    intro succeeded later isLater
    obtain ⟨answer, settled⟩ := after_of_answer?_eq_none succeeded isLater
    exact ⟨answer, congrArg tokens settled⟩
  startsAfresh := by
    refine ⟨(Lexer.run (after text calls).remaining).tokens,
      (hexEscape? (after text calls).remaining).isSome, rfl, rfl, fun reported => ?_, ?_⟩
    · rw [← remaining_eq, ← remaining_eq]
      rfl
    · rw [← remaining_eq, ← remaining_eq]
      exact readBy_run (after text calls).remaining

/--
A string that a line ends, then a name, a string that is never closed, and the end: both failures
stand before it, and the name between them is read.
-/
theorem resumes_brokenStrings :
    (∀ calls, Resumes "'a\nb\"c" calls) ∧
      (List.range 4).map (answer? "'a\nb\"c") =
        [some .newlineInString, some (.unterminatedString "c"), none, none] ∧
      (List.range 4).map (position "'a\nb\"c") = [0, 3, 6, 6] ∧
      (after "'a\nb\"c" 2).tokens = [.ident "b"] :=
  ⟨resumes _, by decide +kernel, by decide +kernel, by decide +kernel⟩

/-- A row of calls gives one notice at most, and none as long as the tokenizer notes none. -/
theorem length_notices_le_one
    (text : String)
    (source : List Char)
    (calls : Nat) :
    ((List.range calls).flatMap fun earlier => (after text earlier).notices source).length +
        (!(after text calls).hexEscapeReported).toNat ≤
      1 := by
  induction calls with
  | zero => exact Nat.le_refl 1
  | succ calls inductionHypothesis =>
      have flag : (after text (calls + 1)).hexEscapeReported =
          ((after text calls).hexEscapeReported ||
            (hexEscape? (after text calls).remaining).isSome) :=
        rfl
      rw [List.range_succ, List.flatMap_append, List.length_append, List.flatMap_singleton, flag,
        notices]
      cases reported : (after text calls).hexEscapeReported with
      | true => simpa [reported] using inductionHypothesis
      | false =>
          -- The notice of this call makes up for the flag that it sets.
          rw [reported] at inductionHypothesis
          cases hexEscape? (after text calls).remaining with
          | none => simpa using inductionHypothesis
          | some digit => simpa using inductionHypothesis

end Tokenizer

end TreeSelectors
