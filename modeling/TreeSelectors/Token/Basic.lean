import TreeSelectors.Numeral

namespace TreeSelectors

/-!
# Tokens of selector text

The tokens a selector breaks into. Combinators, `*`, `.`, `|` and the
characters of attribute matchers are delimiters; blanks in a row are one token.
A name is kept with its escapes resolved, a number as it was written.
-/

/-- Whether the name behind a `#` could stand as an identifier. -/
inductive HashKind where
  | identifier
  | unrestricted
deriving Repr, DecidableEq

/-- A token of selector text. -/
inductive Token where
  /-- A name. -/
  | ident (name : String)
  /-- A name and the opening parenthesis behind it. -/
  | function (name : String)
  /-- A name behind `@`. -/
  | atKeyword (name : String)
  /-- A name behind `#`. -/
  | hash (name : String) (kind : HashKind)
  /-- A quoted string. -/
  | string (value : String)
  /-- A number. -/
  | number (numeral : Numeral)
  /-- A number and the unit behind it. -/
  | dimension (numeral : Numeral) (unit : String)
  /-- Any other single character. -/
  | delim (char : Char)
  /-- A run of blanks. -/
  | whitespace
  | colon
  | semicolon
  | comma
  | leftBracket
  | rightBracket
  | leftParen
  | rightParen
  | leftBrace
  | rightBrace
deriving Repr, DecidableEq

namespace HashKind

/-- The word for the kind. -/
def word : HashKind → String
  | .identifier => "id"
  | .unrestricted => "unrestricted"

end HashKind

namespace NumeralKind

/-- The word for the kind. -/
def word : NumeralKind → String
  | .integer => "integer"
  | .number => "number"

end NumeralKind

namespace Token

/-- Whether the token is a run of blanks. -/
def isWhitespace : Token → Bool
  | .whitespace => true
  | _ => false

/-- The short name of the kind of a token. -/
def kind : Token → String
  | .ident _ => "ident"
  | .function _ => "function"
  | .atKeyword _ => "at-keyword"
  | .hash _ _ => "hash"
  | .string _ => "string"
  | .number _ => "number"
  | .dimension _ _ => "dimension"
  | .delim _ => "delim"
  | .whitespace => "whitespace"
  | .colon => "colon"
  | .semicolon => "semicolon"
  | .comma => "comma"
  | .leftBracket => "["
  | .rightBracket => "]"
  | .leftParen => "("
  | .rightParen => ")"
  | .leftBrace => "\x7b"
  | .rightBrace => "\x7d"

/-- The value of a token as messages show it behind its kind, if it has one. -/
def detail? : Token → Option String
  | .ident name => some name
  | .function name => some (name ++ "(")
  | .atKeyword name => some ("@" ++ name)
  | .hash name hashKind => some ("#" ++ name ++ " (" ++ hashKind.word ++ ")")
  | .string value => some ("\"" ++ value ++ "\"")
  | .number numeral => some numeral.text
  | .dimension numeral unit => some (numeral.text ++ unit)
  | .delim char => some (String.singleton char)
  | _ => none

/-- The token as messages name it: its kind, and its value behind a colon. -/
def describe (token : Token) : String :=
  match token.detail? with
  | some detail => "<" ++ token.kind ++ ":" ++ detail ++ ">"
  | none => "<" ++ token.kind ++ ">"

end Token

end TreeSelectors
