namespace TreeSelectors.Text

/-!
# Character classes of selector text

The classes the lexer and the escaping functions share. They are stated for
text whose line breaks have been normalised to line feeds: a blank is then a
space, a tab or a line feed, and nothing else.

Every character from U+0080 upwards may start a name, whatever its Unicode
category is.
-/

/-- Blank characters of normalised selector text. -/
def isBlank (char : Char) : Bool :=
  char == ' ' || char == '\t' || char == '\n'

/-- Characters that may start a name. -/
def isNameStart (char : Char) : Bool :=
  char.isAlpha || char == '_' || decide (0x80 ≤ char.toNat)

/-- Characters that may continue a name. -/
def isNameChar (char : Char) : Bool :=
  isNameStart char || char.isDigit || char == '-'

/-- Hexadecimal digits in either case. -/
def isHexDigit (char : Char) : Bool :=
  char.isDigit || (decide ('a' ≤ char) && decide (char ≤ 'f')) ||
    (decide ('A' ≤ char) && decide (char ≤ 'F'))

/-- The text with ASCII capitals lowered; every other character stays. -/
def asciiLower (text : String) : String :=
  text.map Char.toLower

/-- Equality of texts up to the case of ASCII letters. -/
def eqIgnoringAsciiCase (left right : String) : Bool :=
  asciiLower left == asciiLower right

/-- Whatever may start a name may also continue it. -/
theorem isNameChar_of_isNameStart
    {char : Char}
    (starts : isNameStart char = true) :
    isNameChar char = true := by
  simp [isNameChar, starts]

/-- A backslash belongs to no name unless it starts an escape. -/
theorem isNameChar_backslash :
    isNameChar '\\' = false := by
  decide

/-- Blanks belong to no name. -/
theorem isNameChar_eq_false_of_isBlank
    {char : Char}
    (blank : isBlank char = true) :
    isNameChar char = false := by
  simp only [isBlank, Bool.or_eq_true, beq_iff_eq] at blank
  rcases blank with (same | same) | same <;> subst same <;> decide

end TreeSelectors.Text
