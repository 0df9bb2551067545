namespace TreeSelectors.Text

/-!
# White space and words

`isWhiteSpace` is the Unicode property `White_Space`; `isAsciiWhiteSpace` is
the smaller set that separates class names. Cutting a text into words and
trimming it are stated for an arbitrary class of separators.
-/

/-- The Unicode property `White_Space`, twenty-five characters in all. -/
def isWhiteSpace (char : Char) : Bool :=
  let code := char.toNat
  (decide (0x9 ≤ code) && decide (code ≤ 0xD)) || code == 0x20 || code == 0x85 ||
    code == 0xA0 || code == 0x1680 ||
    (decide (0x2000 ≤ code) && decide (code ≤ 0x200A)) ||
    code == 0x2028 || code == 0x2029 || code == 0x202F || code == 0x205F ||
    code == 0x3000

/-- Space, tab, line feed, form feed and carriage return. -/
def isAsciiWhiteSpace (char : Char) : Bool :=
  char == ' ' || char == '\t' || char == '\n' || char == '\x0C' || char == '\r'

/-- The text without the separators at its two ends. -/
def trimBy (separates : Char → Bool) (text : List Char) : List Char :=
  ((text.dropWhile separates).reverse.dropWhile separates).reverse

/-- The text without white space at its two ends. -/
def trim (text : List Char) : List Char :=
  trimBy isWhiteSpace text

/--
The words of a text, `pending` being the characters already read of the word
that is under way.
-/
def wordsFrom (separates : Char → Bool) (pending : List Char) :
    List Char → List (List Char)
  | [] =>
      if pending.isEmpty then [] else [pending]
  | char :: rest =>
      if separates char then
        if pending.isEmpty then
          wordsFrom separates [] rest
        else
          pending :: wordsFrom separates [] rest
      else
        wordsFrom separates (pending ++ [char]) rest

/-- The maximal runs of characters that do not separate, in order. -/
def wordsBy (separates : Char → Bool) (text : List Char) : List (List Char) :=
  wordsFrom separates [] text

/-- The words of a text between white space. -/
def words (text : List Char) : List (List Char) :=
  wordsBy isWhiteSpace text

/-- The words of a text between ASCII white space. -/
def asciiWords (text : List Char) : List (List Char) :=
  wordsBy isAsciiWhiteSpace text

end TreeSelectors.Text
