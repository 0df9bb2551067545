namespace TreeSelectors

/-!
# Errors

Reading a selector can go wrong between characters (`LexicalError`) and between
tokens (`SyntaxError`); matching it can meet something that is not supported
(`MatchError`); writing it can meet a custom argument that nobody knows how to
write (`PrintError`). `SelectorError` is their sum, for operations that do
more than one of these. Every type has its wording in one function.
-/

/-- Text that breaks off or cannot be cut into tokens. -/
inductive LexicalError where
  /-- The text ends inside a string, of which this much was read. -/
  | unterminatedString (value : String)
  /-- A line ends inside a string. -/
  | newlineInString
  /-- The text ends inside a comment. -/
  | unterminatedComment
  /-- The text ends behind a backslash. -/
  | unterminatedEscape
  /-- A backslash outside a string has nothing it could escape. -/
  | invalidEscape
deriving Repr, DecidableEq

/-- Tokens that do not make up a selector list. -/
inductive SyntaxError where
  /-- The text could not be cut into tokens. -/
  | lexical (error : LexicalError)
  /-- No name behind an opening bracket. -/
  | invalidAttributeName
  /-- Neither a string nor a name behind an attribute matcher. -/
  | expectedAttributeValue
  /-- Something other than the closing bracket. -/
  | unclosedAttributeSelector
  /-- Neither a name nor `*` behind a namespace bar. -/
  | expectedNameAfterNamespace (qualifier : String)
  /-- A functional pseudo-class whose parenthesis is never closed. -/
  | parenthesesMismatch
  /-- A token, described, that cannot continue the list. -/
  | unexpectedToken (description : String)
  /-- A combinator with no compound behind it. -/
  | expectedSelectorAfterCombinator (combinator : Char)
deriving Repr, DecidableEq

/-- The shapes that pseudo-classes ask of their arguments. -/
inductive ArgumentShape where
  | selectorList
  | singleInteger
deriving Repr, DecidableEq

/-- Selectors that are well written but cannot be matched. -/
inductive MatchError where
  /-- A pseudo-class that is unknown or not implemented. -/
  | unsupportedPseudoClass (name : String)
  /-- A pseudo-element; no node is one. -/
  | unsupportedPseudoElement (name : String)
  /-- A selector that starts with a combinator. -/
  | relativeSelector
  /-- An attribute matcher outside the six that have a meaning. -/
  | unsupportedAttributeMatcher (char : Char)
  /-- A pseudo-class whose argument has the wrong shape. -/
  | argumentShape (name : String) (expected : ArgumentShape)
deriving Repr, DecidableEq

/-- Selectors that cannot be written. -/
inductive PrintError where
  /-- A custom argument of a type without a text. -/
  | unknownNodeType (typeName : String)
deriving Repr, DecidableEq

/-- Anything that can go wrong with a selector. -/
inductive SelectorError where
  | malformed (error : SyntaxError)
  | unmatchable (error : MatchError)
  | unprintable (error : PrintError)
deriving Repr, DecidableEq

namespace LexicalError

/-- The wording of an error between characters. -/
def message : LexicalError → String
  | .unterminatedString value =>
      "unexpected end of input, unterminated string \"" ++ value ++ "\""
  | .newlineInString =>
      "unexpected newline character inside string"
  | .unterminatedComment =>
      "unexpected end of input, unterminated comment"
  | .unterminatedEscape =>
      "unexpected end of input, unterminated escape sequence"
  | .invalidEscape =>
      "invalid escape"

end LexicalError

namespace SyntaxError

/-- The wording of an error between tokens. -/
def message : SyntaxError → String
  | .lexical error =>
      error.message
  | .invalidAttributeName =>
      "invalid attribute name"
  | .expectedAttributeValue =>
      "expected attribute value"
  | .unclosedAttributeSelector =>
      "unclosed attribute selector"
  | .expectedNameAfterNamespace qualifier =>
      "expected a name after namespace prefix `" ++ qualifier ++ "|`"
  | .parenthesesMismatch =>
      "parentheses mismatch"
  | .unexpectedToken description =>
      "unexpected token " ++ description
  | .expectedSelectorAfterCombinator combinator =>
      "expected selector after combinator `" ++ String.singleton combinator ++ "`"

end SyntaxError

namespace ArgumentShape

/-- The words for the shape. -/
def words : ArgumentShape → String
  | .selectorList => "selector list"
  | .singleInteger => "single integer"

end ArgumentShape

namespace MatchError

/-- The wording of an error met while matching. -/
def message : MatchError → String
  | .unsupportedPseudoClass name =>
      "pseudo-class :" ++ name ++ " not implemented yet"
  | .unsupportedPseudoElement name =>
      "pseudo-elements are not supported (::" ++ name ++ ")"
  | .relativeSelector =>
      "relative selectors are not implemented yet"
  | .unsupportedAttributeMatcher char =>
      "unsupported attribute matcher " ++ String.singleton char ++ "="
  | .argumentShape name expected =>
      "expected a " ++ expected.words ++ " argument for :" ++ name

end MatchError

namespace PrintError

/-- The wording of an error met while writing. -/
def message : PrintError → String
  | .unknownNodeType typeName =>
      "unknown node type " ++ typeName

end PrintError

namespace SelectorError

/-- The wording of an error; a malformed selector is announced as such. -/
def message : SelectorError → String
  | .malformed error =>
      "syntax error: " ++ error.message
  | .unmatchable error =>
      error.message
  | .unprintable error =>
      error.message

/-- The error behind an error: what is wrong with a malformed selector. -/
def cause? : SelectorError → Option String
  | .malformed error =>
      some error.message
  | _ =>
      none

end SelectorError

end TreeSelectors
