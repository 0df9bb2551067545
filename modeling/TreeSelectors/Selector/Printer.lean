import TreeSelectors.Error
import TreeSelectors.Selector.Basic
import TreeSelectors.Token.Printer

namespace TreeSelectors.Selector

/-!
# Writing selectors

Members of a list are separated by a comma and a space, combinators stand
between spaces, and everything else follows without a gap. Attribute values
are always quoted.

A custom argument is written by a function that the caller supplies; writing
fails at the first one, in the order of the text, that the function declines.
-/

open TreeSelectors.Text

/-- How custom arguments are written, if they can be. -/
abbrev CustomPrinter :=
  CustomNode → Option String

/-- A namespace and its bar. -/
def qualifierChars : Option String → List Char
  | none => []
  | some qualifier =>
      if qualifier = "*" then ['*', '|'] else escapeIdentChars qualifier.toList ++ ['|']

/-- A node name or `*`. -/
def typeNameChars (name : String) : List Char :=
  if name = "*" then ['*'] else escapeIdentChars name.toList

/-- The flag at the end of an attribute selector. -/
def modifierChars : Option CaseModifier → List Char
  | none => []
  | some modifier => [' ', modifier.char]

/-- The matcher, value and flag of an attribute selector. -/
def conditionChars (test : AttributeTest) : List Char :=
  match test.matcher with
  | none => []
  | some matcher =>
      matcher.chars ++ quoteChars (test.value.getD "").toList ++ modifierChars test.modifier

/-- An attribute selector. -/
def attributeChars (test : AttributeTest) : List Char :=
  '[' :: qualifierChars test.qualifier ++ escapeIdentChars test.name.toList ++
    conditionChars test ++ [']']

/-- A combinator between the spaces that belong to it. -/
def combinatorChars : Combinator → List Char
  | .descendant => []
  | combinator => [combinator.char, ' ']

/-- A custom argument, if the caller knows how to write it. -/
def customChars (printer : CustomPrinter) (node : CustomNode) : Except PrintError (List Char) :=
  match printer node with
  | some text => .ok text.toList
  | none => .error (.unknownNodeType node.typeName)

mutual

/-- The characters of a selector. -/
def chars (printer : CustomPrinter) : Selector → Except PrintError (List Char)
  | .list members =>
      listChars printer members
  | .complex left combinator right => do
      let before ← chars printer left
      let behind ← chars printer right
      return before ++ ' ' :: combinatorChars combinator ++ behind
  | .relative combinator right => do
      let behind ← chars printer right
      return combinatorChars combinator ++ behind
  | .compound members =>
      compoundChars printer members
  | .typeName name qualifier =>
      return qualifierChars qualifier ++ typeNameChars name
  | .identifier name =>
      return '#' :: escapeNameChars name.toList
  | .className name =>
      return '.' :: escapeIdentChars name.toList
  | .attribute test =>
      return attributeChars test
  | .pseudo form name argument => do
      let behind ← argumentChars printer argument
      return form.colons ++ escapeIdentChars name.toList ++ behind

/-- The characters of an argument with its parentheses. -/
def argumentChars (printer : CustomPrinter) : Argument → Except PrintError (List Char)
  | .absent =>
      return []
  | .raw tokens =>
      return '(' :: Token.listChars tokens ++ [')']
  | .selectors members => do
      let inside ← listChars printer members
      return '(' :: inside ++ [')']
  | .anPlusB tokens =>
      return '(' :: Token.listChars tokens ++ [')']
  | .custom node => do
      let inside ← customChars printer node
      return '(' :: inside ++ [')']

/-- The characters of the members of a compound. -/
def compoundChars (printer : CustomPrinter) : List Selector → Except PrintError (List Char)
  | [] =>
      return []
  | member :: rest => do
      let first ← chars printer member
      let others ← compoundChars printer rest
      return first ++ others

/-- The characters of the members of a list. -/
def listChars (printer : CustomPrinter) : List Selector → Except PrintError (List Char)
  | [] =>
      return []
  | member :: rest => do
      let first ← chars printer member
      let others ← furtherChars printer rest
      return first ++ others

/-- The characters of the members of a list behind the first. -/
def furtherChars (printer : CustomPrinter) : List Selector → Except PrintError (List Char)
  | [] =>
      return []
  | member :: rest => do
      let first ← chars printer member
      let others ← furtherChars printer rest
      return ',' :: ' ' :: first ++ others

end

/-- The printer that knows no custom argument. -/
def noCustom : CustomPrinter :=
  fun _ => none

/-- The text of a selector. -/
def text (printer : CustomPrinter) (selector : Selector) : Except PrintError String :=
  (chars printer selector).map String.ofList

/-- The text of a selector list. -/
def listText (printer : CustomPrinter) (members : List Selector) : Except PrintError String :=
  (listChars printer members).map String.ofList

end TreeSelectors.Selector
