import TreeSelectors.Token.ScanProgress
import TreeSelectors.Notice

namespace TreeSelectors.Lexer

/-!
# Cutting text into tokens

`Lexer.run` repeats single steps until the text ends or one of them fails;
`Tokenizer` keeps the tokens read so far and can read on behind a failure.
`tokenize` is one run over a whole text.

Escapes are never decoded as code point numbers. Where one looks as if it was
meant so, `Tokenizer.notices` says so, once for a tokenizer.
-/

open TreeSelectors.Text

/-- What cutting up a text gives: its tokens up to an error, if there is one. -/
structure Run where
  tokens : List Token
  error? : Option LexicalError
  rest : List Char

namespace Run

/-- A run with what an earlier step gave in front of it. -/
def precededBy (token? : Option Token) (later : Run) : Run :=
  match token? with
  | some token => ⟨token :: later.tokens, later.error?, later.rest⟩
  | none => later

end Run

/-- Cuts a text into tokens until it ends or a step fails. -/
def run : List Char → Run
  | [] =>
      ⟨[], none, []⟩
  | char :: rest =>
      match (step char rest).outcome with
      | .ok token? =>
          (run (step char rest).rest).precededBy token?
      | .error error =>
          ⟨[], some error, (step char rest).rest⟩
termination_by text => text.length
decreasing_by
  have := step_rest_length char rest
  simp only [List.length_cons]
  omega

@[simp] theorem run_nil :
    run [] = ⟨[], none, []⟩ := by
  rw [run]

/-- The characters behind the backslashes of a text, read from left to right. -/
def escapedChars : List Char → List Char
  | '\\' :: escaped :: rest => escaped :: escapedChars rest
  | _ :: rest => escapedChars rest
  | [] => []

/-- The part of a normalised text that a run reads, failures included. -/
def consumed (source : List Char) : List Char :=
  source.take (source.length - (run source).rest.length)

/-- The first escape that a run reads and that could be taken for a code point number. -/
def hexEscape? (source : List Char) : Option Char :=
  (escapedChars (consumed source)).find? isHexDigit

end TreeSelectors.Lexer

namespace TreeSelectors

/--
A text being cut into tokens: what is left of it, the tokens so far, and whether
a notice has been given of an escape that could be taken for a code point number.
-/
structure Tokenizer where
  remaining : List Char
  tokens : List Token
  hexEscapeReported : Bool
deriving Repr, DecidableEq

namespace Tokenizer

/-- The tokenizer at the start of a text. -/
def start (text : String) : Tokenizer :=
  ⟨Lexer.normalize text.toList, [], false⟩

/--
Reads on until the text ends or a step fails. After a failure the tokenizer
stands behind it and can read on.
-/
def run (tokenizer : Tokenizer) : Option LexicalError × Tokenizer :=
  let result := Lexer.run tokenizer.remaining
  (result.error?,
    { remaining := result.rest
      tokens := tokenizer.tokens ++ result.tokens
      hexEscapeReported :=
        tokenizer.hexEscapeReported || (Lexer.hexEscape? tokenizer.remaining).isSome })

/--
The notices that reading on gives, for a tokenizer that started on some source:
one at most, and none if it has given one before.
-/
def notices (source : List Char) (tokenizer : Tokenizer) : List Notice :=
  if tokenizer.hexEscapeReported then
    []
  else
    ((Lexer.hexEscape? tokenizer.remaining).map fun digit =>
      .hexEscape digit (String.ofList source)).toList

end Tokenizer

/-- The notices of one run over a whole text. -/
def Lexer.notices (text : String) : List Notice :=
  (Tokenizer.start text).notices (Lexer.normalize text.toList)

/-- The tokens of a text, or the first error in it. -/
def tokenize (text : String) : Except LexicalError (List Token) :=
  match (Tokenizer.start text).run with
  | (some error, _) =>
      .error error
  | (none, tokenizer) =>
      .ok tokenizer.tokens

end TreeSelectors
