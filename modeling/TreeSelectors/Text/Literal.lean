import TreeSelectors.Text.LowerCase
import TreeSelectors.Text.Table.GraphemeExtend
import TreeSelectors.Text.Table.Unprintable

namespace TreeSelectors.Text

/-!
# Literals

A literal shows a text between quotes in such a way that every character can
be told: line breaks and the like by a letter behind a backslash, marks that
would merge with the character before them and everything that is not printed
by their code point.
-/

/-- Whether a character is drawn on the one before it. -/
def extendsGrapheme (char : Char) : Bool :=
  inRanges graphemeExtendRanges char.toNat

/-- Whether a character is printed as it is. -/
def isPrintable (char : Char) : Bool :=
  !inRanges unprintableRanges char.toNat

/-- A character by its code point. -/
def codePointLiteral (char : Char) : List Char :=
  ['\\', 'u', '\x7b'] ++ Nat.toDigits 16 char.toNat ++ ['\x7d']

/-- A character inside a literal with the given quotes. -/
def literalChar (quote char : Char) : List Char :=
  if char == '\x00' then ['\\', '0']
  else if char == '\t' then ['\\', 't']
  else if char == '\r' then ['\\', 'r']
  else if char == '\n' then ['\\', 'n']
  else if char == '\\' || char == quote then ['\\', char]
  else if extendsGrapheme char || !isPrintable char then codePointLiteral char
  else [char]

/-- A text as a literal in double quotes. -/
def stringLiteral (value : String) : String :=
  String.ofList ('\x22' :: value.toList.flatMap (literalChar '\x22') ++ ['\x22'])

/-- A character as a literal in single quotes. -/
def charLiteral (value : Char) : String :=
  String.ofList ('\x27' :: literalChar '\x27' value ++ ['\x27'])

end TreeSelectors.Text
