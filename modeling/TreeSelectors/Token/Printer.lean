import TreeSelectors.Text.Escape
import TreeSelectors.Token.Basic

namespace TreeSelectors

/-!
# Writing tokens

Every token is written on its own and nothing is put between two of them. A
run of blanks is written as one space.
-/

open TreeSelectors.Text

namespace Token

/-- Whether a unit would continue the number before it as an exponent. -/
def startsExponent : List Char → Bool
  | first :: _ => first == 'e' || first == 'E'
  | [] => false

/-- A unit, with a backslash where it would be taken for an exponent. -/
def unitChars (unit : List Char) : List Char :=
  if startsExponent unit then '\\' :: escapeIdentChars unit else escapeIdentChars unit

/-- The characters of a token. -/
def chars : Token → List Char
  | .ident name => escapeIdentChars name.toList
  | .function name => escapeIdentChars name.toList ++ ['(']
  | .atKeyword name => '@' :: escapeIdentChars name.toList
  | .hash name _ => '#' :: escapeNameChars name.toList
  | .string value => quoteChars value.toList
  | .number numeral => numeral.text.toList
  | .dimension numeral unit => numeral.text.toList ++ unitChars unit.toList
  | .delim char => [char]
  | .whitespace => [' ']
  | .colon => [':']
  | .semicolon => [';']
  | .comma => [',']
  | .leftBracket => ['[']
  | .rightBracket => [']']
  | .leftParen => ['(']
  | .rightParen => [')']
  | .leftBrace => ['\x7b']
  | .rightBrace => ['\x7d']

/-- The characters of tokens in a row. -/
def listChars (tokens : List Token) : List Char :=
  tokens.flatMap chars

/-- The text of tokens in a row. -/
def listText (tokens : List Token) : String :=
  String.ofList (listChars tokens)

@[simp] theorem listChars_nil :
    listChars [] = [] :=
  rfl

@[simp] theorem listChars_cons
    (token : Token)
    (rest : List Token) :
    listChars (token :: rest) = token.chars ++ listChars rest :=
  rfl

@[simp] theorem listChars_append
    (left right : List Token) :
    listChars (left ++ right) = listChars left ++ listChars right := by
  simp [listChars]

@[simp] theorem toList_listText
    (tokens : List Token) :
    (listText tokens).toList = listChars tokens := by
  simp [listText]

end Token

end TreeSelectors
