namespace TreeSelectors

/-!
# Outlines

An outline shows nested data with labels. Everything that holds something is
spread over lines: what it holds stands four blanks deeper, a line each, with a
comma behind it.
-/

/-- Labelled nested data. -/
inductive Outline where
  /-- A word or literal. -/
  | atom (text : String)
  /-- A name with one thing in parentheses. -/
  | wrapped (name : String) (inside : Outline)
  /-- A name with labelled fields in braces. -/
  | record (name : String) (fields : List (String × Outline))
  /-- Things in brackets. -/
  | items (members : List Outline)

namespace Outline

/-- A line break and the blanks of an indentation. -/
def lineBreak (level : Nat) : String :=
  String.ofList ('\n' :: List.replicate (4 * level) ' ')

mutual

/-- An outline whose first line stands at an indentation. -/
def renderAt (level : Nat) : Outline → String
  | .atom text => text
  | .wrapped name inside =>
      name ++ "(" ++ lineBreak (level + 1) ++ renderAt (level + 1) inside ++ "," ++
        lineBreak level ++ ")"
  | .record name fields =>
      name ++ " \x7b" ++ renderFieldsAt (level + 1) fields ++ lineBreak level ++ "\x7d"
  | .items [] => "[]"
  | .items (member :: rest) =>
      "[" ++ lineBreak (level + 1) ++ renderAt (level + 1) member ++ "," ++
        renderItemsAt (level + 1) rest ++ lineBreak level ++ "]"

/-- Labelled fields, each on a line of its own. -/
def renderFieldsAt (level : Nat) : List (String × Outline) → String
  | [] => ""
  | (label, value) :: rest =>
      lineBreak level ++ label ++ ": " ++ renderAt level value ++ "," ++
        renderFieldsAt level rest

/-- Things, each on a line of its own. -/
def renderItemsAt (level : Nat) : List Outline → String
  | [] => ""
  | member :: rest =>
      lineBreak level ++ renderAt level member ++ "," ++ renderItemsAt level rest

end

/-- The text of an outline. -/
def render (outline : Outline) : String :=
  renderAt 0 outline

/-- Something that may be missing. -/
def optional (value? : Option Outline) : Outline :=
  match value? with
  | some value => .wrapped "Some" value
  | none => .atom "None"

end Outline

end TreeSelectors
