import TreeSelectors.Error
import TreeSelectors.Text.Escape
import TreeSelectors.Text.WhiteSpace
import TreeSelectors.Token.Basic

namespace TreeSelectors.Lexer

/-!
# Scanning one token

The text is normalised first: white space at its ends is dropped, every line
break becomes a line feed and NUL becomes the replacement character. Then
`step` cuts one token or comment off the front. A backslash always stands for
the character behind it, never for a code point number.

A scan that fails leaves the text behind the failure, so that reading can go
on from there.
-/

open TreeSelectors.Text

/-- Line feeds for all line breaks, the replacement character for NUL. -/
def unifyBreaks : List Char → List Char
  | [] => []
  | '\r' :: '\n' :: rest => '\n' :: unifyBreaks rest
  | '\r' :: rest => '\n' :: unifyBreaks rest
  | '\x0C' :: rest => '\n' :: unifyBreaks rest
  | '\x00' :: rest => '\uFFFD' :: unifyBreaks rest
  | char :: rest => char :: unifyBreaks rest

/-- The text that is cut into tokens. -/
def normalize (text : List Char) : List Char :=
  unifyBreaks (trim text)

/-- Whether a text starts with a backslash that escapes something. -/
def startsEscape : List Char → Bool
  | '\\' :: escaped :: _ => escaped != '\n'
  | _ => false

/-- Whether a text starts with a digit. -/
def startsDigit : List Char → Bool
  | char :: _ => char.isDigit
  | [] => false

/-- Whether a text starts with an identifier. -/
def startsIdent : List Char → Bool
  | [] =>
      false
  | char :: rest =>
      if char == '-' then
        startsEscape rest ||
          match rest with
          | [] => false
          | second :: _ => isNameStart second || second == '-'
      else
        isNameStart char || startsEscape (char :: rest)

/-- Whether a text starts with digits, or with a point and digits. -/
def startsUnsignedNumber : List Char → Bool
  | '.' :: rest => startsDigit rest
  | text => startsDigit text

/-- Whether a text starts with a number. -/
def startsNumber : List Char → Bool
  | '+' :: rest => startsUnsignedNumber rest
  | '-' :: rest => startsUnsignedNumber rest
  | text => startsUnsignedNumber text

/-- Whether a text starts with a character of a name, escaped or not. -/
def startsNameChar : List Char → Bool
  | [] => false
  | char :: rest => isNameChar char || startsEscape (char :: rest)

/-- What a scan gives: a value or an error, and the text behind. -/
structure Scan (α : Type) where
  outcome : Except LexicalError α
  rest : List Char

namespace Scan

/-- A scan with its value changed. -/
def map {α β : Type} (transform : α → β) (scan : Scan α) : Scan β :=
  ⟨scan.outcome.map transform, scan.rest⟩

@[simp] theorem rest_map
    {α β : Type}
    (transform : α → β)
    (scan : Scan α) :
    (scan.map transform).rest = scan.rest :=
  rfl

end Scan

/-- The longest name at the start of a text, with its escapes resolved. -/
def scanName : List Char → Scan (List Char)
  | [] =>
      ⟨.ok [], []⟩
  | char :: rest =>
      if isNameChar char then
        (scanName rest).map (char :: ·)
      else if char == '\\' then
        match rest with
        | [] => ⟨.error .unterminatedEscape, []⟩
        | escaped :: others =>
            if escaped == '\n' then
              ⟨.ok [], char :: rest⟩
            else
              (scanName others).map (escaped :: ·)
      else
        ⟨.ok [], char :: rest⟩

/--
A string up to its closing quote; `read` is what stands before, the last
character first.
-/
def scanString (quote : Char) (read : List Char) : List Char → Scan (List Char)
  | [] =>
      ⟨.error (.unterminatedString (String.ofList read.reverse)), []⟩
  | char :: rest =>
      if char == quote then
        ⟨.ok read.reverse, rest⟩
      else if char == '\n' then
        ⟨.error .newlineInString, rest⟩
      else if char == '\\' then
        match rest with
        | [] => ⟨.error .unterminatedEscape, []⟩
        | escaped :: others =>
            if escaped == '\n' then
              scanString quote read others
            else
              scanString quote (escaped :: read) others
      else
        scanString quote (char :: read) rest

/-- The rest of a comment; a backslash hides the character behind it. -/
def scanComment : List Char → Scan Unit
  | [] =>
      ⟨.error .unterminatedComment, []⟩
  | '*' :: '/' :: rest =>
      ⟨.ok (), rest⟩
  | '\\' :: [] =>
      ⟨.error .unterminatedEscape, []⟩
  | '\\' :: _ :: rest =>
      scanComment rest
  | _ :: rest =>
      scanComment rest

/-- The sign at the start of a text, and what is behind it. -/
def splitSign : List Char → List Char × List Char
  | '+' :: rest => (['+'], rest)
  | '-' :: rest => (['-'], rest)
  | text => ([], text)

/-- The digits at the start of a text, and what is behind them. -/
def splitDigits (text : List Char) : List Char × List Char :=
  (text.takeWhile Char.isDigit, text.dropWhile Char.isDigit)

/-- The point and digits at the start of a text, and what is behind them. -/
def splitFraction : List Char → List Char × List Char
  | '.' :: rest =>
      if startsDigit rest then
        ('.' :: (splitDigits rest).1, (splitDigits rest).2)
      else
        ([], '.' :: rest)
  | text =>
      ([], text)

/-- The exponent at the start of a text, and what is behind it. -/
def splitExponent : List Char → List Char × List Char
  | [] =>
      ([], [])
  | mark :: rest =>
      if (mark == 'e' || mark == 'E') && startsDigit (splitSign rest).2 then
        let (sign, unsigned) := splitSign rest
        (mark :: sign ++ (splitDigits unsigned).1, (splitDigits unsigned).2)
      else
        ([], mark :: rest)

/-- The longest number at the start of a text, and what is behind it. -/
def splitNumber (text : List Char) : List Char × List Char :=
  let (sign, unsigned) := splitSign text
  let (whole, afterWhole) := splitDigits unsigned
  let (fraction, afterFraction) := splitFraction afterWhole
  let (exponent, rest) := splitExponent afterFraction
  (sign ++ whole ++ fraction ++ exponent, rest)

/-- A number, with the unit that may stand behind it. -/
def scanNumeric (text : List Char) : Scan Token :=
  let (digits, rest) := splitNumber text
  let numeral : Numeral := ⟨String.ofList digits⟩
  if startsIdent rest then
    (scanName rest).map fun unit => .dimension numeral (String.ofList unit)
  else
    ⟨.ok (.number numeral), rest⟩

/-- A name, and whether a parenthesis behind it makes it a function. -/
def scanIdentLike (text : List Char) : Scan Token :=
  match scanName text with
  | ⟨.error error, rest⟩ =>
      ⟨.error error, rest⟩
  | ⟨.ok name, '(' :: rest⟩ =>
      ⟨.ok (.function (String.ofList name)), rest⟩
  | ⟨.ok name, rest⟩ =>
      ⟨.ok (.ident (String.ofList name)), rest⟩

/-- What stands behind a `#`. -/
def scanHash (rest : List Char) : Scan Token :=
  if startsNameChar rest then
    let kind := if startsIdent rest then HashKind.identifier else HashKind.unrestricted
    (scanName rest).map fun name => .hash (String.ofList name) kind
  else
    ⟨.ok (.delim '#'), rest⟩

/-- What stands behind an `@`. -/
def scanAtKeyword (rest : List Char) : Scan Token :=
  if startsIdent rest then
    (scanName rest).map fun name => .atKeyword (String.ofList name)
  else
    ⟨.ok (.delim '@'), rest⟩

/-- The token of a character that is always a token of its own. -/
def punctuation? : Char → Option Token
  | '(' => some .leftParen
  | ')' => some .rightParen
  | ',' => some .comma
  | ':' => some .colon
  | ';' => some .semicolon
  | '[' => some .leftBracket
  | ']' => some .rightBracket
  | '\x7b' => some .leftBrace
  | '\x7d' => some .rightBrace
  | _ => none

/-- The token that starts with a character, whatever stands behind it. -/
def scanToken (char : Char) (rest : List Char) : Scan Token :=
  if isBlank char then
    ⟨.ok .whitespace, rest.dropWhile isBlank⟩
  else if char == doubleQuote || char == apostrophe then
    (scanString char [] rest).map fun value => .string (String.ofList value)
  else if char == '#' then
    scanHash rest
  else if char == '@' then
    scanAtKeyword rest
  else if char == '\\' then
    if startsEscape (char :: rest) then
      scanIdentLike (char :: rest)
    else
      ⟨.error .invalidEscape, rest⟩
  else if startsNumber (char :: rest) then
    scanNumeric (char :: rest)
  else if startsIdent (char :: rest) then
    scanIdentLike (char :: rest)
  else
    match punctuation? char with
    | some token => ⟨.ok token, rest⟩
    | none => ⟨.ok (.delim char), rest⟩

/-- The token or, as `none`, the comment that starts with a character. -/
def step (char : Char) (rest : List Char) : Scan (Option Token) :=
  match char, rest with
  | '/', '*' :: body =>
      (scanComment body).map fun _ => none
  | _, _ =>
      (scanToken char rest).map some

end TreeSelectors.Lexer
