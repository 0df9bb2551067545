import TreeSelectors.Decimal.Layout
import TreeSelectors.Outline.Basic
import TreeSelectors.Selector.Basic
import TreeSelectors.Text.Literal

namespace TreeSelectors

/-!
# Outlines of tokens and selectors

The outline of a selector names every node by its kind and shows all fields,
also those that are empty.
-/

namespace Outline

/-- A text as a literal. -/
def string (value : String) : Outline :=
  .atom (Text.stringLiteral value)

/-- A character as a literal. -/
def char (value : Char) : Outline :=
  .atom (Text.charLiteral value)

/--
Doubles are written positionally from a ten-thousandth up to, but not
including, ten to the sixteenth; a positive exponent has no sign. Of two
equally near decimals the one farther from zero is written.
-/
def doubleLayout : Decimal.Layout :=
  { tie := .up
    leastPositional := -4
    firstScientific := 16
    plusSign := false }

/-- A double. -/
def double (value : Binary64) : Outline :=
  .atom <|
    if value.isNaN then "NaN"
    else if value.isInfinite then (if value.isNegative then "-inf" else "inf")
    else Decimal.write doubleLayout value

end Outline

namespace NumeralKind

/-- The outline of the kind of a numeral. -/
def outline : NumeralKind → Outline
  | .integer => .atom "Integer"
  | .number => .atom "Number"

end NumeralKind

namespace HashKind

/-- The outline of the kind of a hash. -/
def outline : HashKind → Outline
  | .identifier => .atom "Id"
  | .unrestricted => .atom "Unrestricted"

end HashKind

namespace Numeral

/-- The outline of a numeral. -/
def outline (numeral : Numeral) : Outline :=
  .record "Numeric"
    [("repr", .string numeral.text),
      ("value", .double numeral.value),
      ("int_value", .optional (numeral.integer?.map fun value => .atom (toString value))),
      ("numeric_type", numeral.kind.outline)]

end Numeral

namespace Token

/-- The outline of a token. -/
def outline : Token → Outline
  | .ident name => .wrapped "Ident" (.string name)
  | .function name => .wrapped "Function" (.string name)
  | .atKeyword name => .wrapped "AtKeyword" (.string name)
  | .hash name hashKind =>
      .record "Hash" [("value", .string name), ("hash_type", hashKind.outline)]
  | .string value => .wrapped "String" (.string value)
  | .number numeral => .wrapped "Number" numeral.outline
  | .dimension numeral unit =>
      .record "Dimension" [("number", numeral.outline), ("unit", .string unit)]
  | .delim value => .wrapped "Delim" (.char value)
  | .whitespace => .atom "Whitespace"
  | .colon => .atom "Colon"
  | .semicolon => .atom "Semicolon"
  | .comma => .atom "Comma"
  | .leftBracket => .atom "LeftBracket"
  | .rightBracket => .atom "RightBracket"
  | .leftParen => .atom "LeftParen"
  | .rightParen => .atom "RightParen"
  | .leftBrace => .atom "LeftBrace"
  | .rightBrace => .atom "RightBrace"

/-- The outline of tokens in a row. -/
def outlineList (tokens : List Token) : Outline :=
  .items (tokens.map outline)

end Token

namespace Combinator

/-- The outline of a combinator. -/
def outline : Combinator → Outline
  | .descendant => .atom "Descendant"
  | .child => .atom "Child"
  | .nextSibling => .atom "NextSibling"
  | .subsequentSibling => .atom "SubsequentSibling"

end Combinator

namespace AttributeMatcher

/-- The outline of an attribute matcher. -/
def outline : AttributeMatcher → Outline
  | .equals => .atom "Equals"
  | .includes => .atom "Includes"
  | .dashMatch => .atom "DashMatch"
  | .startsWith => .atom "Prefix"
  | .endsWith => .atom "Suffix"
  | .contains => .atom "Substring"
  | .other mark => .wrapped "Other" (.char mark)

end AttributeMatcher

namespace CaseModifier

/-- The outline of a modifier. -/
def outline : CaseModifier → Outline
  | .insensitive => .atom "CaseInsensitive"
  | .sensitive => .atom "CaseSensitive"

end CaseModifier

namespace AttributeTest

/-- The outline of an attribute selector. -/
def outline (test : AttributeTest) : Outline :=
  .record "AttributeSelector"
    [("identifier", .string test.name),
      ("namespace", .optional (test.qualifier.map .string)),
      ("matcher", .optional (test.matcher.map AttributeMatcher.outline)),
      ("value", .optional (test.value.map .string)),
      ("modifier", .optional (test.modifier.map CaseModifier.outline))]

end AttributeTest

namespace PseudoForm

/-- The name of a pseudo selector in an outline. -/
def outlineName : PseudoForm → String
  | .pseudoClass => "PseudoClass"
  | .pseudoElement => "PseudoElement"

end PseudoForm

namespace Selector

mutual

/-- The outline of a selector node. -/
def outline : Selector → Outline
  | .list members =>
      .wrapped "List" (.record "SelectorList" [("selectors", .items (outlineMembers members))])
  | .complex left combinator right =>
      .wrapped "Complex"
        (.record "ComplexSelector"
          [("left", .optional (some (outline left))),
            ("combinator", combinator.outline),
            ("right", outline right)])
  | .relative combinator right =>
      .wrapped "Complex"
        (.record "ComplexSelector"
          [("left", .optional none),
            ("combinator", combinator.outline),
            ("right", outline right)])
  | .compound members =>
      .wrapped "Compound"
        (.record "CompoundSelector" [("selectors", .items (outlineMembers members))])
  | .typeName name qualifier =>
      .wrapped "Type"
        (.record "TypeSelector"
          [("identifier", .string name), ("namespace", .optional (qualifier.map .string))])
  | .identifier name =>
      .wrapped "Id" (.record "IdSelector" [("identifier", .string name)])
  | .className name =>
      .wrapped "Class" (.record "ClassSelector" [("identifier", .string name)])
  | .attribute test =>
      .wrapped "Attribute" test.outline
  | .pseudo form name argument =>
      .wrapped form.outlineName
        (.record "PseudoSelector"
          [("identifier", .string name), ("argument", .optional (outlineArgument? argument))])

/-- The outline of an argument, if there is one. -/
def outlineArgument? : Argument → Option Outline
  | .absent => none
  | .raw tokens => some (.wrapped "Tokens" (Token.outlineList tokens))
  | .selectors members =>
      some (.wrapped "SelectorList"
        (.record "SelectorList" [("selectors", .items (outlineMembers members))]))
  | .anPlusB tokens => some (.wrapped "AnPlusB" (Token.outlineList tokens))
  | .custom node => some (.wrapped "Custom" (.atom node.typeName))

/-- The outlines of selector nodes. -/
def outlineMembers : List Selector → List Outline
  | [] => []
  | member :: rest => outline member :: outlineMembers rest

end

/-- The outline of a selector list. -/
def outlineList (members : List Selector) : Outline :=
  .record "SelectorList" [("selectors", .items (outlineMembers members))]

end Selector

end TreeSelectors
