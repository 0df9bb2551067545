import TreeSelectors.Error
import TreeSelectors.Selector.Basic
import TreeSelectors.Text.CharClass

namespace TreeSelectors

/-!
# Rules for the arguments of pseudo selectors

How the tokens in the parentheses of a pseudo selector are read depends on its
name. A table of rules has one entry for a name with its colons; ASCII letters
are looked up in lower case. Names without an entry keep their tokens.
-/

/-- How the tokens of an argument are read. -/
inductive ArgumentRule where
  /-- They are kept. -/
  | raw
  /-- They are read as a selector list. -/
  | selectorList
  /-- They are kept as the tokens of a position in a sequence. -/
  | anPlusB
  /-- They are given to a function of the caller, which makes any argument of them. -/
  | custom (read : List Token → Except SyntaxError Argument)

/-- A table of rules, one for each name. -/
structure ArgumentRules where
  entries : List (String × ArgumentRule)

namespace ArgumentRules

/-- The table without entries. -/
def empty : ArgumentRules :=
  ⟨[]⟩

/-- The rule for a name with its colons, if the table has one. -/
def get? (rules : ArgumentRules) (key : String) : Option ArgumentRule :=
  (rules.entries.find? fun entry => entry.1 == Text.asciiLower key).map Prod.snd

/-- The rule that a name had, if any, and the table with another in its place. -/
def insert
    (rules : ArgumentRules)
    (key : String)
    (rule : ArgumentRule) :
    Option ArgumentRule × ArgumentRules :=
  let lowered := Text.asciiLower key
  (rules.get? key, ⟨(lowered, rule) :: rules.entries.filter fun entry => entry.1 != lowered⟩)

/-- The table with a rule for a name, in place of any it had. -/
def withRule
    (rules : ArgumentRules)
    (key : String)
    (rule : ArgumentRule) :
    ArgumentRules :=
  (rules.insert key rule).2

/-- The names whose argument is a selector list. -/
def selectorListKeys : List String :=
  [":is", ":matches", ":-moz-any", ":-webkit-any", ":where", ":not", ":has"]

/-- The names whose argument is a position in a sequence. -/
def anPlusBKeys : List String :=
  [":nth-child", ":nth-child-of", ":nth-last-child", ":nth-of-type", ":nth-last-of-type",
    ":nth-col", ":nth-last-col"]

/-- The rules that apply unless the caller says otherwise. -/
def standard : ArgumentRules :=
  ⟨selectorListKeys.map (fun key => (key, .selectorList)) ++
    anPlusBKeys.map (fun key => (key, .anPlusB))⟩

instance : Inhabited ArgumentRules :=
  ⟨standard⟩

/-- The rule that was put in for a name is the one found for it, in any case. -/
theorem get?_withRule
    (rules : ArgumentRules)
    (rule : ArgumentRule)
    {key other : String}
    (same : Text.asciiLower other = Text.asciiLower key) :
    (rules.withRule key rule).get? other = some rule := by
  simp [withRule, insert, get?, same]

/-- Putting in a rule leaves the rules for all other names. -/
theorem get?_withRule_of_ne
    (rules : ArgumentRules)
    (rule : ArgumentRule)
    {key other : String}
    (different : Text.asciiLower other ≠ Text.asciiLower key) :
    (rules.withRule key rule).get? other = rules.get? other := by
  have apart : (Text.asciiLower key == Text.asciiLower other) = false := by
    simpa using fun same => different same.symm
  -- Of the entries that are kept, only those for the changed name are missing.
  have kept : ∀ entry : String × ArgumentRule,
      decide ((entry.1 != Text.asciiLower key) = true ∧
          (entry.1 == Text.asciiLower other) = true) =
        (entry.1 == Text.asciiLower other) := by
    intro entry
    by_cases isOther : entry.1 = Text.asciiLower other
    · simp [isOther, different]
    · simp [isOther]
  simp only [withRule, insert, get?, List.find?_cons, apart, List.find?_filter, kept]

end ArgumentRules

end TreeSelectors
