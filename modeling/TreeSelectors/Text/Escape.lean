import TreeSelectors.Text.CharClass

namespace TreeSelectors.Text

/-!
# Escaping names and quoting strings

A character that would not be read as part of a name is written with a
backslash in front of it; nothing is ever written as a code point number.
Inside a quoted string only the double quote and the backslash need one.
-/

/-- The double quote, which delimits every string that is written. -/
def doubleQuote : Char :=
  '\x22'

/-- The apostrophe, the other delimiter that is read. -/
def apostrophe : Char :=
  '\x27'

/-- One character of a name behind its first, escaped where it has to be. -/
def escapeNameChar (char : Char) : List Char :=
  if isNameChar char then [char] else ['\\', char]

/-- A name, escaped wherever it holds a character that names do not. -/
def escapeNameChars (name : List Char) : List Char :=
  name.flatMap escapeNameChar

/--
Whether a first character may stand unescaped before the others: it starts
names, or it is a hyphen with something other than a digit behind it.
-/
def startsUnescaped (first : Char) (others : List Char) : Bool :=
  isNameStart first ||
    (first == '-' &&
      match others with
      | [] => false
      | second :: _ => !second.isDigit)

/-- An identifier: a name whose first character has to start one. -/
def escapeIdentChars : List Char → List Char
  | [] =>
      []
  | first :: others =>
      (if startsUnescaped first others then [first] else ['\\', first]) ++
        escapeNameChars others

/-- One character inside double quotes. -/
def quoteChar (char : Char) : List Char :=
  if char == doubleQuote || char == '\\' then ['\\', char] else [char]

/-- A string in double quotes. -/
def quoteChars (value : List Char) : List Char :=
  doubleQuote :: value.flatMap quoteChar ++ [doubleQuote]

/-- The text that reads back as a name. -/
def escapeName (name : String) : String :=
  String.ofList (escapeNameChars name.toList)

/-- The text that reads back as an identifier. -/
def escapeIdent (name : String) : String :=
  String.ofList (escapeIdentChars name.toList)

/-- The text that reads back as a string. -/
def quoteString (value : String) : String :=
  String.ofList (quoteChars value.toList)

@[simp] theorem escapeNameChars_nil :
    escapeNameChars [] = [] :=
  rfl

@[simp] theorem escapeNameChars_cons
    (char : Char)
    (rest : List Char) :
    escapeNameChars (char :: rest) = escapeNameChar char ++ escapeNameChars rest :=
  rfl

@[simp] theorem toList_escapeName
    (name : String) :
    (escapeName name).toList = escapeNameChars name.toList := by
  simp [escapeName]

@[simp] theorem toList_escapeIdent
    (name : String) :
    (escapeIdent name).toList = escapeIdentChars name.toList := by
  simp [escapeIdent]

end TreeSelectors.Text
