namespace TreeSelectors

/-!
# Notices

Things that are accepted but may not mean what their author thought.
-/

/-- A remark on text that is accepted all the same. -/
inductive Notice where
  /-- An escape in front of a hexadecimal digit, which is taken as it stands. -/
  | hexEscape (digit : Char) (source : String)
  /-- An attribute selector that the end of its tokens leaves open. -/
  | unclosedAttribute (name : String)
deriving Repr, DecidableEq

namespace Notice

/-- The part of the program that raises the notice. -/
def component : Notice → String
  | .hexEscape _ _ => "Tokenizer"
  | .unclosedAttribute _ => "Parser"

/-- The wording of the notice. -/
def message : Notice → String
  | .hexEscape digit source =>
      "hex escape before '" ++ String.singleton digit ++ "' is not decoded in \"" ++
        source ++ "\""
  | .unclosedAttribute name =>
      "unclosed attribute selector [" ++ name

end Notice

end TreeSelectors
