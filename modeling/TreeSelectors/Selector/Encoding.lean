import TreeSelectors.Selector.Basic

namespace TreeSelectors

/-!
# Tokens and selectors as JSON

A token is an object with its kind under `type` and its value, if it has one,
under `value`. A selector node is an object with its kind under `type`; what it
does not have is left out, except that a relative selector has a null `left`.
-/

namespace Numeral

/-- A double, or null where JSON has no number for it. -/
def encodeValue (value : Binary64) : Json :=
  if value.isFinite then .number (.double value) else .null

/-- A numeral as an object. -/
def encode (numeral : Numeral) : Json :=
  .object
    [("repr", .string numeral.text),
      ("value", encodeValue numeral.value),
      ("int_value",
        match numeral.integer? with
        | some value => .number (.integer value)
        | none => .null),
      ("numeric_type", .string numeral.kind.word)]

end Numeral

namespace Token

/-- The kind of a token in JSON. -/
def encodedKind : Token → String
  | .leftBracket => "left-bracket"
  | .rightBracket => "right-bracket"
  | .leftParen => "left-paren"
  | .rightParen => "right-paren"
  | .leftBrace => "left-brace"
  | .rightBrace => "right-brace"
  | token => token.kind

/-- The value of a token in JSON, if it has one. -/
def encodedValue? : Token → Option Json
  | .ident name => some (.string name)
  | .function name => some (.string name)
  | .atKeyword name => some (.string name)
  | .hash name hashKind =>
      some (.object [("value", .string name), ("hash_type", .string hashKind.word)])
  | .string value => some (.string value)
  | .number numeral => some numeral.encode
  | .dimension numeral unit =>
      some (.object [("number", numeral.encode), ("unit", .string unit)])
  | .delim char => some (.string (String.singleton char))
  | _ => none

/-- A field that is left out if there is no value for it. -/
def optionalField (key : String) (value? : Option Json) : List (String × Json) :=
  match value? with
  | some value => [(key, value)]
  | none => []

/-- A token as an object. -/
def encode (token : Token) : Json :=
  .object (("type", .string token.encodedKind) :: optionalField "value" token.encodedValue?)

/-- Tokens in a row as an array. -/
def encodeList (tokens : List Token) : Json :=
  .array (tokens.map encode)

end Token

namespace AttributeTest

/-- The fields of an attribute selector. -/
def encodedFields (test : AttributeTest) : List (String × Json) :=
  ("identifier", .string test.name) ::
    Token.optionalField "namespace" (test.qualifier.map .string) ++
    Token.optionalField "matcher" (test.matcher.map fun matcher => .string matcher.text) ++
    Token.optionalField "value" (test.value.map .string) ++
    Token.optionalField "modifier"
      (test.modifier.map fun modifier => .string (String.singleton modifier.char))

end AttributeTest

namespace Selector

mutual

/-- A selector node as an object. -/
def encode : Selector → Json
  | .list members =>
      .object [("type", .string "SelectorList"), ("selectors", .array (encodeMembers members))]
  | .complex left combinator right =>
      .object
        [("type", .string "ComplexSelector"),
          ("left", encode left),
          ("combinator", .string (String.singleton combinator.char)),
          ("right", encode right)]
  | .relative combinator right =>
      .object
        [("type", .string "ComplexSelector"),
          ("left", .null),
          ("combinator", .string (String.singleton combinator.char)),
          ("right", encode right)]
  | .compound members =>
      .object
        [("type", .string "CompoundSelector"), ("selectors", .array (encodeMembers members))]
  | .typeName name qualifier =>
      .object
        (("type", .string "TypeSelector") :: ("identifier", .string name) ::
          Token.optionalField "namespace" (qualifier.map .string))
  | .identifier name =>
      .object [("type", .string "IdSelector"), ("identifier", .string name)]
  | .className name =>
      .object [("type", .string "ClassSelector"), ("identifier", .string name)]
  | .attribute test =>
      .object (("type", .string "AttributeSelector") :: test.encodedFields)
  | .pseudo form name argument =>
      .object
        (("type", .string (kind (.pseudo form name .absent))) ::
          ("identifier", .string name) :: encodedArgument argument)

/-- The field of an argument, left out if there is none. -/
def encodedArgument : Argument → List (String × Json)
  | .absent => []
  | .raw tokens => [("argument", Token.encodeList tokens)]
  | .selectors members =>
      [("argument", .object [("selectors", .array (encodeMembers members))])]
  | .anPlusB tokens => [("argument", Token.encodeList tokens)]
  | .custom node => [("argument", node.content)]

/-- Selector nodes as objects. -/
def encodeMembers : List Selector → List Json
  | [] => []
  | member :: rest => encode member :: encodeMembers rest

end

/-- A selector list as an object. -/
def encodeList (members : List Selector) : Json :=
  .object [("selectors", .array (encodeMembers members))]

end Selector

end TreeSelectors
