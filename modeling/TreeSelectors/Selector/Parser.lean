import TreeSelectors.Selector.ArgumentRules
import TreeSelectors.Selector.Reading
import TreeSelectors.Token.Lexer

namespace TreeSelectors.Parser

/-!
# Reading selectors from tokens

A selector list is a sequence of complex selectors with commas between them; a
complex selector is a chain of compounds with combinators between them; a
compound is a run of simple selectors in any order. Each function takes the
tokens that are left and gives what it read and the tokens behind it, or
`none` if nothing of its kind starts there.

Selector lists inside parentheses are read by a function that is passed down,
`readList`; `parseTokens` passes itself, for the tokens between parentheses are
fewer than those around them.
-/

/-- The tokens without the blanks at their start. -/
def skipBlanks (tokens : List Token) : List Token :=
  tokens.dropWhile Token.isWhitespace

/-- Whether the tokens start with blanks. -/
def startsBlank : List Token → Bool
  | .whitespace :: _ => true
  | _ => false

/-- The error of a token that does not belong there. -/
def unexpected : List Token → SyntaxError
  | [] => .unexpectedToken "end of input"
  | token :: _ => .unexpectedToken token.describe

/-- What follows a namespace bar: the tokens behind it, if they belong to it. -/
def qualified? (qualifier : String) :
    List Token → Except SyntaxError (Option (String × List Token))
  | .ident name :: rest => .ok (some (qualifier, .ident name :: rest))
  | .delim '*' :: rest => .ok (some (qualifier, .delim '*' :: rest))
  | .delim '=' :: _ => .ok none
  | _ => .error (.expectedNameAfterNamespace qualifier)

/--
A namespace and its bar, if a name or `*` stands behind them. The bar of an
attribute matcher, with an equals sign behind it, is none.
-/
def qualifier? : List Token → Except SyntaxError (Option (String × List Token))
  | .ident qualifier :: .delim '|' :: rest => qualified? qualifier rest
  | .delim '*' :: .delim '|' :: rest => qualified? "*" rest
  | .delim '|' :: rest => qualified? "" rest
  | _ => .ok none

/-- A namespace if there is one, and the tokens behind it. -/
def optionalQualifier (tokens : List Token) :
    Except SyntaxError (Option String × List Token) :=
  match qualifier? tokens with
  | .error error => .error error
  | .ok (some (qualifier, rest)) => .ok (some qualifier, rest)
  | .ok none => .ok (none, tokens)

/-- A node name or `*`, with a namespace or without. -/
def typeSelector? (tokens : List Token) :
    Except SyntaxError (Option (Selector × List Token)) :=
  match optionalQualifier tokens with
  | .error error => .error error
  | .ok (qualifier, .ident name :: rest) => .ok (some (.typeName name qualifier, rest))
  | .ok (qualifier, .delim '*' :: rest) => .ok (some (.typeName "*" qualifier, rest))
  | .ok _ => .ok none

/-- An equals sign, with a character in front of it or without. -/
def attributeMatcher? : List Token → Option (AttributeMatcher × List Token)
  | .delim '=' :: rest => some (.equals, rest)
  | .delim char :: .delim '=' :: rest => some (.ofMark (some char), rest)
  | _ => none

/-- The flag at the end of an attribute selector. -/
def caseModifier? : List Token → Option (CaseModifier × List Token)
  | .ident flag :: rest =>
      if Text.eqIgnoringAsciiCase flag "i" then
        some (.insensitive, rest)
      else if Text.eqIgnoringAsciiCase flag "s" then
        some (.sensitive, rest)
      else
        none
  | _ => none

/-- What an attribute is compared with: a string or a name. -/
def attributeValue? : List Token → Option (String × List Token)
  | .string value :: rest => some (value, rest)
  | .ident value :: rest => some (value, rest)
  | _ => none

/-- A flag if there is one, and the tokens behind it and its blanks. -/
def optionalModifier (tokens : List Token) : Option CaseModifier × List Token :=
  match caseModifier? tokens with
  | some (modifier, rest) => (some modifier, skipBlanks rest)
  | none => (none, tokens)

/-- What an attribute asks for beyond presence, the name being read. -/
def attributeCondition (name : String) (qualifier : Option String) (tokens : List Token) :
    Except SyntaxError (AttributeTest × List Token) :=
  match attributeMatcher? tokens with
  | none =>
      .ok (⟨name, qualifier, none, none, none⟩, tokens)
  | some (matcher, behind) =>
      match attributeValue? (skipBlanks behind) with
      | none =>
          .error .expectedAttributeValue
      | some (value, afterValue) =>
          let (modifier, rest) := optionalModifier (skipBlanks afterValue)
          .ok (⟨name, qualifier, some matcher, some value, modifier⟩, rest)

/-- An attribute selector behind its bracket, up to where it should be closed. -/
def attributeTest (tokens : List Token) :
    Except SyntaxError (AttributeTest × List Token) :=
  match optionalQualifier (skipBlanks tokens) with
  | .error error => .error error
  | .ok (qualifier, .ident name :: rest) => attributeCondition name qualifier (skipBlanks rest)
  | .ok _ => .error .invalidAttributeName

/-- An attribute selector behind its bracket; the end of the tokens closes it too. -/
def bracketed (tokens : List Token) : Reading (Selector × List Token) :=
  match attributeTest tokens with
  | .error error => .failure error
  | .ok (test, .rightBracket :: rest) => .value (.attribute test, rest)
  | .ok (test, []) => ⟨[.unclosedAttribute test.name], .ok (.attribute test, [])⟩
  | .ok _ => .failure .unclosedAttributeSelector

/--
The tokens up to the parenthesis that closes an argument, and those behind it;
`depth` parentheses have been opened inside the argument so far.
-/
def splitArgument? : Nat → List Token → Option (List Token × List Token)
  | _, [] =>
      none
  | 0, .rightParen :: rest =>
      some ([], rest)
  | depth + 1, .rightParen :: rest =>
      (splitArgument? depth rest).map fun found => (.rightParen :: found.1, found.2)
  | depth, .leftParen :: rest =>
      (splitArgument? (depth + 1) rest).map fun found => (.leftParen :: found.1, found.2)
  | depth, .function name :: rest =>
      (splitArgument? (depth + 1) rest).map fun found => (.function name :: found.1, found.2)
  | depth, token :: rest =>
      (splitArgument? depth rest).map fun found => (token :: found.1, found.2)

/-- The name under which the rule for an argument is looked up. -/
def ruleKey (form : PseudoForm) (name : String) : String :=
  String.ofList form.colons ++ Text.asciiLower name

/-- The form and name of a pseudo selector behind its first colon. -/
def pseudoName? : List Token → Option (PseudoForm × Token × List Token)
  | .colon :: .ident name :: rest => some (.pseudoElement, .ident name, rest)
  | .colon :: .function name :: rest => some (.pseudoElement, .function name, rest)
  | .ident name :: rest => some (.pseudoClass, .ident name, rest)
  | .function name :: rest => some (.pseudoClass, .function name, rest)
  | _ => none

section Lists

variable (rules : ArgumentRules) (readList : List Token → Reading (List Selector))

/-- The argument that the tokens between parentheses make up. -/
def argument (form : PseudoForm) (name : String) (tokens : List Token) : Reading Argument :=
  match rules.get? (ruleKey form name) with
  | none => .value (.raw tokens)
  | some .raw => .value (.raw tokens)
  | some .selectorList => do
      let members ← readList tokens
      return .selectors members
  | some .anPlusB => .value (.anPlusB tokens)
  | some (.custom read) => Reading.ofExcept (read tokens)

/-- A pseudo selector behind its first colon. -/
def pseudo? (tokens : List Token) : Reading (Option (Selector × List Token)) :=
  match pseudoName? tokens with
  | some (form, .ident name, rest) =>
      .value (some (.pseudo form name .absent, rest))
  | some (form, .function name, rest) =>
      match splitArgument? 0 rest with
      | none =>
          .failure .parenthesesMismatch
      | some (inside, behind) => do
          let found ← argument rules readList form name inside
          return some (.pseudo form name found, behind)
  | _ =>
      .value none

/-- A simple selector. -/
def simple? (tokens : List Token) : Reading (Option (Selector × List Token)) :=
  match typeSelector? tokens with
  | .error error => .failure error
  | .ok (some found) => .value (some found)
  | .ok none =>
      match tokens with
      | .hash name _ :: rest => .value (some (.identifier name, rest))
      | .delim '.' :: .ident name :: rest => .value (some (.className name, rest))
      | .leftBracket :: rest => do
          let found ← bracketed rest
          return some found
      | .colon :: rest => pseudo? rules readList rest
      | _ => .value none

/--
Repeats a step until it declines. A step that reads something takes up tokens,
so that the repetition ends; one that took up none would be the last.
-/
def many
    {α : Type}
    (step : List Token → Reading (Option (α × List Token)))
    (tokens : List Token) : Reading (List α × List Token) :=
  match step tokens with
  | ⟨notices, .error error⟩ =>
      ⟨notices, .error error⟩
  | ⟨notices, .ok none⟩ =>
      ⟨notices, .ok ([], tokens)⟩
  | ⟨notices, .ok (some (item, rest))⟩ =>
      Reading.noticing notices <|
        if rest.length < tokens.length then do
          let (items, behind) ← many step rest
          return (item :: items, behind)
        else
          .value ([item], rest)
termination_by tokens.length

/-- Conditions on one node as a selector; a single one stands for itself. -/
def compoundOf? : List Selector → Option Selector
  | [] => none
  | [simple] => some simple
  | members => some (.compound members)

/-- A compound selector. -/
def compound? (tokens : List Token) : Reading (Option (Selector × List Token)) := do
  let (members, rest) ← many (simple? rules readList) tokens
  return (compoundOf? members).map fun selector => (selector, rest)

/-- A combinator that is written with a character, and the blanks behind it. -/
def explicitCombinator? : List Token → Option (Combinator × List Token)
  | .delim char :: rest =>
      (Combinator.ofDelim? char).map fun combinator => (combinator, skipBlanks rest)
  | _ => none

/-- A combinator with the blanks around it, or blanks alone. -/
def combinator? (tokens : List Token) : Option (Combinator × List Token) :=
  let rest := skipBlanks tokens
  match explicitCombinator? rest with
  | some found => some found
  | none => if startsBlank tokens then some (.descendant, rest) else none

/--
A combinator and the compound behind it. Blanks with no compound behind them
are not a combinator; a combinator that is written out has to have one.
-/
def link? (tokens : List Token) :
    Reading (Option ((Combinator × Selector) × List Token)) :=
  match combinator? tokens with
  | none =>
      .value none
  | some (combinator, behind) => do
      match ← compound? rules readList behind with
      | some (right, rest) => return some ((combinator, right), rest)
      | none =>
          if combinator = .descendant then
            return none
          else
            Reading.failure (.expectedSelectorAfterCombinator combinator.char)

/-- A chain that starts with a selector and nests to the left. -/
def chain (first : Selector) (links : List (Combinator × Selector)) : Selector :=
  links.foldl (fun left link => .complex left link.1 link.2) first

/-- The start of a complex selector: a compound, with a combinator or without. -/
def chainStart? (tokens : List Token) : Reading (Option (Selector × List Token)) :=
  match explicitCombinator? tokens with
  | none =>
      compound? rules readList tokens
  | some (combinator, behind) => do
      match ← compound? rules readList behind with
      | some (right, rest) => return some (.relative combinator right, rest)
      | none => Reading.failure (.expectedSelectorAfterCombinator combinator.char)

/-- A complex selector, or the compound that it consists of. -/
def complex? (tokens : List Token) : Reading (Option (Selector × List Token)) := do
  match ← chainStart? rules readList tokens with
  | none => return none
  | some (first, behind) =>
      let (links, rest) ← many (link? rules readList) behind
      return some (chain first links, rest)

/-- A member of a list, with blanks in front of it. -/
def member (tokens : List Token) : Reading (Selector × List Token) := do
  match ← complex? rules readList (skipBlanks tokens) with
  | some found => return found
  | none => Reading.failure (unexpected (skipBlanks tokens))

/-- A comma and the member behind it, unless only blanks are left. -/
def furtherMember? (tokens : List Token) : Reading (Option (Selector × List Token)) :=
  match skipBlanks tokens with
  | [] => .value none
  | .comma :: rest => do
      let found ← member rules readList rest
      return some found
  | token :: _ => .failure (unexpected [token])

/-- A whole selector list; no tokens but blanks are the empty list. -/
def selectorList (tokens : List Token) : Reading (List Selector) :=
  if (skipBlanks tokens).isEmpty then
    .value []
  else do
    let (first, behind) ← member rules readList tokens
    let (others, _) ← many (furtherMember? rules readList) behind
    return first :: others

end Lists

end TreeSelectors.Parser

namespace TreeSelectors

/-- The selector list that tokens make up. -/
def parseTokens (rules : ArgumentRules) (tokens : List Token) : Reading (List Selector) :=
  Parser.selectorList rules
    (fun inside =>
      -- An argument never has all the tokens, for its function is among them.
      if inside.length < tokens.length then parseTokens rules inside else .value [])
    tokens
termination_by tokens.length

/-- The selector list that a text stands for. -/
def parseReading (rules : ArgumentRules) (text : String) : Reading (List Selector) :=
  Reading.noticing (Lexer.notices text) <|
    match tokenize text with
    | .error error => .failure (.lexical error)
    | .ok tokens => parseTokens rules tokens

/-- The selector list that a text stands for, or the first error in it. -/
def parse (rules : ArgumentRules) (text : String) : Except SyntaxError (List Selector) :=
  (parseReading rules text).outcome

end TreeSelectors
