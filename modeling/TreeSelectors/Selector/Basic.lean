import TreeSelectors.Json.Basic
import TreeSelectors.Token.Basic

namespace TreeSelectors

/-!
# Selectors

A selector is a tree. Simple selectors are its leaves, a compound is a list of
conditions on one node, a complex selector puts a combinator between what
stands left of it and a compound on its right. Chains of combinators nest to
the left. A relative selector starts with a combinator and has no left side.

The tree admits shapes that no text is read as, for instance a compound with
no members; whatever can be built can be matched and written.

Equality of selectors is decided by `Selector.equal`; `Selector.equal_iff` says
that it is equality.
-/

/-- How the nodes on the two sides of a combinator are related. -/
inductive Combinator where
  | descendant
  | child
  | nextSibling
  | subsequentSibling
deriving Repr, DecidableEq

/-- How the value of an attribute is compared. -/
inductive AttributeMatcher where
  /-- The value is the expected one. -/
  | equals
  /-- One of the words of the value is the expected one. -/
  | includes
  /-- The value is the expected one, or goes on with a hyphen behind it. -/
  | dashMatch
  /-- The value starts with the expected one. -/
  | startsWith
  /-- The value ends with the expected one. -/
  | endsWith
  /-- The value holds the expected one somewhere. -/
  | contains
  /-- A character without a meaning in front of the equals sign. -/
  | other (char : Char)
deriving Repr, DecidableEq

/-- The flag at the end of an attribute selector. -/
inductive CaseModifier where
  | insensitive
  | sensitive
deriving Repr, DecidableEq

/-- An attribute selector. Without a matcher only presence is asked. -/
structure AttributeTest where
  name : String
  qualifier : Option String
  matcher : Option AttributeMatcher
  value : Option String
  modifier : Option CaseModifier
deriving Repr, DecidableEq

/-- Whether one colon or two stand in front of a pseudo selector. -/
inductive PseudoForm where
  | pseudoClass
  | pseudoElement
deriving Repr, DecidableEq

/-- An argument node made by a rule that the caller supplied. -/
structure CustomNode where
  typeName : String
  content : Json
deriving Repr, DecidableEq

mutual

/-- A node of a selector. -/
inductive Selector where
  /-- Alternatives. -/
  | list (members : List Selector)
  /-- A selector, a combinator and the compound behind it. -/
  | complex (left : Selector) (combinator : Combinator) (right : Selector)
  /-- A combinator with nothing in front of it, and the compound behind it. -/
  | relative (combinator : Combinator) (right : Selector)
  /-- Conditions on the same node. -/
  | compound (members : List Selector)
  /-- A node name, or `*` for any. -/
  | typeName (name : String) (qualifier : Option String)
  /-- An identifier, behind `#`. -/
  | identifier (name : String)
  /-- A class name, behind a point. -/
  | className (name : String)
  /-- An attribute, in brackets. -/
  | attribute (test : AttributeTest)
  /-- A pseudo-class or pseudo-element, behind its colons. -/
  | pseudo (form : PseudoForm) (name : String) (argument : Argument)

/-- What stands in the parentheses of a pseudo selector. -/
inductive Argument where
  /-- There are no parentheses. -/
  | absent
  /-- Tokens without a rule. -/
  | raw (tokens : List Token)
  /-- A selector list. -/
  | selectors (members : List Selector)
  /-- The tokens of a position in a sequence. -/
  | anPlusB (tokens : List Token)
  /-- The outcome of a rule that the caller supplied. -/
  | custom (node : CustomNode)

end

namespace Combinator

/-- The character that a combinator is written with. -/
def char : Combinator → Char
  | .descendant => ' '
  | .child => '>'
  | .nextSibling => '+'
  | .subsequentSibling => '~'

/-- The combinator that a delimiter stands for. -/
def ofDelim? : Char → Option Combinator
  | '>' => some .child
  | '+' => some .nextSibling
  | '~' => some .subsequentSibling
  | _ => none

/-- A delimiter stands for the combinator that is written with it. -/
theorem ofDelim?_eq_some_iff
    {delim : Char}
    {combinator : Combinator} :
    ofDelim? delim = some combinator ↔
      combinator ≠ .descendant ∧ delim = combinator.char := by
  constructor
  · intro found
    unfold ofDelim? at found
    split at found <;> first | (cases found; exact ⟨by simp, rfl⟩) | simp at found
  · rintro ⟨explicit, same⟩
    subst same
    cases combinator <;> simp_all [ofDelim?, char]

end Combinator

namespace AttributeMatcher

/-- The matcher with the given character in front of its equals sign. -/
def ofMark : Option Char → AttributeMatcher
  | none => .equals
  | some '~' => .includes
  | some '|' => .dashMatch
  | some '^' => .startsWith
  | some '$' => .endsWith
  | some '*' => .contains
  | some char => .other char

/-- The character in front of the equals sign, if there is one. -/
def mark? : AttributeMatcher → Option Char
  | .equals => none
  | .includes => some '~'
  | .dashMatch => some '|'
  | .startsWith => some '^'
  | .endsWith => some '$'
  | .contains => some '*'
  | .other char => some char

/-- The characters of a matcher. -/
def chars (matcher : AttributeMatcher) : List Char :=
  matcher.mark?.toList ++ ['=']

/-- The text of a matcher. -/
def text (matcher : AttributeMatcher) : String :=
  String.ofList matcher.chars

/-- Every mark is written back as it was read. -/
@[simp] theorem mark?_ofMark
    (mark : Option Char) :
    (ofMark mark).mark? = mark := by
  unfold ofMark
  split <;> rfl

end AttributeMatcher

namespace CaseModifier

/-- The letter of a modifier. -/
def char : CaseModifier → Char
  | .insensitive => 'i'
  | .sensitive => 's'

end CaseModifier

namespace PseudoForm

/-- The colons in front of a pseudo selector. -/
def colons : PseudoForm → List Char
  | .pseudoClass => [':']
  | .pseudoElement => [':', ':']

end PseudoForm

namespace Selector

/-- The name of the kind of a node. -/
def kind : Selector → String
  | .list _ => "SelectorList"
  | .complex _ _ _ => "ComplexSelector"
  | .relative _ _ => "ComplexSelector"
  | .compound _ => "CompoundSelector"
  | .typeName _ _ => "TypeSelector"
  | .identifier _ => "IdSelector"
  | .className _ => "ClassSelector"
  | .attribute _ => "AttributeSelector"
  | .pseudo .pseudoClass _ _ => "PseudoClassSelector"
  | .pseudo .pseudoElement _ _ => "PseudoElementSelector"

mutual

/-- Whether two selectors are the same. -/
def equal : Selector → Selector → Bool
  | .list left, .list right => equalMembers left right
  | .complex left combinator right, .complex otherLeft otherCombinator otherRight =>
      combinator == otherCombinator && (equal left otherLeft && equal right otherRight)
  | .relative combinator right, .relative otherCombinator otherRight =>
      combinator == otherCombinator && equal right otherRight
  | .compound left, .compound right => equalMembers left right
  | .typeName name qualifier, .typeName otherName otherQualifier =>
      name == otherName && qualifier == otherQualifier
  | .identifier name, .identifier otherName => name == otherName
  | .className name, .className otherName => name == otherName
  | .attribute test, .attribute otherTest => test == otherTest
  | .pseudo form name argument, .pseudo otherForm otherName otherArgument =>
      form == otherForm && (name == otherName && equalArgument argument otherArgument)
  | _, _ => false

/-- Whether two arguments are the same. -/
def equalArgument : Argument → Argument → Bool
  | .absent, .absent => true
  | .raw left, .raw right => left == right
  | .selectors left, .selectors right => equalMembers left right
  | .anPlusB left, .anPlusB right => left == right
  | .custom left, .custom right => left == right
  | _, _ => false

/-- Whether two lists of selectors are the same. -/
def equalMembers : List Selector → List Selector → Bool
  | [], [] => true
  | left :: lefts, right :: rights => equal left right && equalMembers lefts rights
  | _, _ => false

end

mutual

theorem equal_iff :
    (left right : Selector) → (equal left right = true ↔ left = right)
  | .list members, other => by
      cases other <;> simp [equal, equalMembers_iff members]
  | .complex left combinator right, other => by
      cases other with
      | complex otherLeft otherCombinator otherRight =>
          simp only [equal, Bool.and_eq_true, beq_iff_eq, equal_iff left otherLeft,
            equal_iff right otherRight, complex.injEq]
          exact ⟨fun same => ⟨same.2.1, same.1, same.2.2⟩,
            fun same => ⟨same.2.1, same.1, same.2.2⟩⟩
      | _ => simp [equal]
  | .relative combinator right, other => by
      cases other <;> simp [equal, equal_iff right]
  | .compound members, other => by
      cases other <;> simp [equal, equalMembers_iff members]
  | .typeName name qualifier, other => by
      cases other <;> simp [equal]
  | .identifier name, other => by
      cases other <;> simp [equal]
  | .className name, other => by
      cases other <;> simp [equal]
  | .attribute test, other => by
      cases other <;> simp [equal]
  | .pseudo form name argument, other => by
      cases other <;> simp [equal, equalArgument_iff argument]

theorem equalArgument_iff :
    (left right : Argument) → (equalArgument left right = true ↔ left = right)
  | .absent, other => by
      cases other <;> simp [equalArgument]
  | .raw tokens, other => by
      cases other <;> simp [equalArgument]
  | .selectors members, other => by
      cases other <;> simp [equalArgument, equalMembers_iff members]
  | .anPlusB tokens, other => by
      cases other <;> simp [equalArgument]
  | .custom node, other => by
      cases other <;> simp [equalArgument]

theorem equalMembers_iff :
    (left right : List Selector) → (equalMembers left right = true ↔ left = right)
  | [], other => by
      cases other <;> simp [equalMembers]
  | member :: rest, other => by
      cases other with
      | nil => simp [equalMembers]
      | cons head tail =>
          simp [equalMembers, equal_iff member head, equalMembers_iff rest tail]

end

instance : DecidableEq Selector := fun left right =>
  if same : equal left right = true then
    .isTrue ((equal_iff left right).mp same)
  else
    .isFalse fun equality => same ((equal_iff left right).mpr equality)

instance : DecidableEq Argument := fun left right =>
  if same : equalArgument left right = true then
    .isTrue ((equalArgument_iff left right).mp same)
  else
    .isFalse fun equality => same ((equalArgument_iff left right).mpr equality)

end Selector

end TreeSelectors
